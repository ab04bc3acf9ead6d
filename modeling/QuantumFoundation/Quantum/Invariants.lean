import QuantumFoundation.Quantum.Harness

/-!
# The runtime checks

The checks of the five layers and the report of `verify_all_invariants`.  A layer runs its checks
one after the other and puts the name of a check among the passed ones, or the name with the
message among the failed ones; an exception of a class that the layer does not catch ends the
report.
-/

namespace QuantumFoundation

variable {R ω κ : Type*} [PyFloat R]

/-! ### Running checks -/

/-- The report of a layer. -/
structure InvariantReport where
  passed : List String
  failed : List String

/-- A layer runs its named checks, and catches the exceptions of some classes. -/
def runChecks (caught : ErrorClass → Bool) :
    List (String × Except Raised Unit) → InvariantReport → Except Raised InvariantReport
  | [], report => .ok report
  | (name, .ok ()) :: rest, report =>
    runChecks caught rest { report with passed := report.passed ++ [name] }
  | (name, .error exc) :: rest, report =>
    if caught exc.cls then
      runChecks caught rest { report with failed := report.failed ++ [name ++ ": " ++ exc.msg] }
    else .error exc

/-- A check of every member of a list, which stops at the first that fails. -/
def checkEach {α : Type*} (check : α → Except Raised Unit) : List α → Except Raised Unit
  | [] => .ok ()
  | x :: rest =>
    match check x with
    | .error exc => .error exc
    | .ok () => checkEach check rest

/-- A check of every member of a list and the one before it, with the position of the member. -/
def checkPairs {α : Type*} (check : ℕ → α → α → Except Raised Unit) :
    ℕ → List α → Except Raised Unit
  | i, prev :: curr :: rest =>
    match check i prev curr with
    | .error exc => .error exc
    | .ok () => checkPairs check (i + 1) (curr :: rest)
  | _, _ => .ok ()

/-! ### Cycle 1 -/

/-- `check_norm_conservation`. -/
def checkNormConservation (state : StateVector R) : Except Raised Unit :=
  let normSq := pySum (state.amplitudes.map Amplitude.probability)
  if PyFloat.abs (normSq - 1) > 1e-10 then
    .error ⟨.invariantViolation, "NORM CONSERVATION VIOLATED: ‖ψ‖² = " ++ PyFloat.fixed 12 normSq
      ++ ", expected 1.0. Deviation: " ++ PyFloat.scientific2 (PyFloat.abs (normSq - 1))⟩
  else .ok ()

/-- `check_no_zero_state`. -/
def checkNoZeroState (state : StateVector R) : Except Raised Unit :=
  if state.amplitudes.all fun a => a.value.abs < 1e-15 then
    .error ⟨.invariantViolation, "FORBIDDEN STATE: Zero vector detected. The zero vector cannot "
      ++ "represent a physical quantum state."⟩
  else .ok ()

/-- `check_sequence_monotonicity`. -/
def checkSequenceMonotonicity (log : List (StateDelta R ω)) : Except Raised Unit :=
  checkPairs (fun i prev curr =>
    if curr.sequenceNumber ≠ prev.sequenceNumber + 1 then
      .error ⟨.invariantViolation, "SEQUENCE MONOTONICITY VIOLATED: delta[" ++ toString (i - 1)
        ++ "].seq=" ++ toString prev.sequenceNumber ++ ", delta[" ++ toString i ++ "].seq="
        ++ toString curr.sequenceNumber ++ ". Expected strictly increasing by 1."⟩
    else .ok ()) 1 log

/-- `check_delta_continuity`. -/
def checkDeltaContinuity (log : List (StateDelta R ω)) : Except Raised Unit :=
  checkPairs (fun i prev curr =>
    if prev.nextState != curr.priorState then
      .error ⟨.invariantViolation, "DELTA CONTINUITY VIOLATED between delta[" ++ toString (i - 1)
        ++ "] and delta[" ++ toString i ++ "]. next_state of delta[" ++ toString (i - 1)
        ++ "] does not match prior_state of delta[" ++ toString i
        ++ "]. Hidden state mutation suspected."⟩
    else .ok ()) 1 log

/-- `check_dimension_preservation`. -/
def checkDimensionPreservation (log : List (StateDelta R ω)) : Except Raised Unit :=
  match log with
  | [] => .ok ()
  | first :: _ =>
    let initialDim := first.priorState.dimension
    checkEach (fun p : StateDelta R ω × ℕ =>
      checkEach (fun q : String × StateVector R =>
        if q.2.dimension ≠ initialDim then
          .error ⟨.invariantViolation, "DIMENSION PRESERVATION VIOLATED at delta[" ++ toString p.2
            ++ "]." ++ q.1 ++ "_state: got dimension " ++ toString q.2.dimension ++ ", expected "
            ++ toString initialDim ++ "."⟩
        else .ok ()) [("prior", p.1.priorState), ("next", p.1.nextState)]) log.zipIdx

/-- `check_replay_determinism`. -/
def checkReplayDeterminism (engine : SovereignStateEngine R ω) : Except Raised Unit :=
  match engine.verifyReplayIntegrity with
  | .ok _ => .ok ()
  | .error exc =>
    if exc.cls = .assertionError then
      .error ⟨.invariantViolation, "REPLAY DETERMINISM VIOLATED: " ++ exc.msg⟩
    else .error exc

/-- `run_all_invariants`. -/
def runAllInvariants (engine : SovereignStateEngine R ω) : Except Raised InvariantReport :=
  runChecks (· = .invariantViolation)
    [("NORM_CONSERVATION", checkNormConservation engine.currentState),
      ("NO_ZERO_STATE", checkNoZeroState engine.currentState),
      ("SEQUENCE_MONOTONICITY", checkSequenceMonotonicity engine.deltaLog),
      ("DELTA_CONTINUITY", checkDeltaContinuity engine.deltaLog),
      ("DIMENSION_PRESERVATION", checkDimensionPreservation engine.deltaLog),
      ("REPLAY_DETERMINISM", checkReplayDeterminism engine)] ⟨[], []⟩

/-! ### Cycle 2 -/

/-- `check_probability_normalization`. -/
def checkProbabilityNormalization (state : StateVector R) : Except Raised Unit :=
  let total := pySum (state.amplitudes.map Amplitude.probability)
  if PyFloat.abs (total - 1) > 1e-10 then
    .error ⟨.measurementInvariant, "M1 VIOLATED: Probability sum = " ++ PyFloat.fixed 12 total
      ++ ", expected 1.0"⟩
  else .ok ()

/-- `check_information_loss_nonnegative`. -/
def checkInformationLossNonnegative (result : MeasurementResult R) : Except Raised Unit :=
  if result.informationLossDeclared < -1e-10 then
    .error ⟨.measurementInvariant, "M2 VIOLATED: information_loss_declared = "
      ++ PyFloat.fixed 8 result.informationLossDeclared
      ++ ". Measurement cannot create information."⟩
  else .ok ()

/-- `check_collapse_log_monotonicity`. -/
def checkCollapseLogMonotonicity (events : List (IrreversibleCollapseEvent R)) :
    Except Raised Unit :=
  checkPairs (fun i prev curr =>
    if curr.eventId ≤ prev.eventId then
      .error ⟨.measurementInvariant, "M3 VIOLATED: event_id must be strictly increasing. events["
        ++ toString (i - 1) ++ "].id=" ++ toString prev.eventId ++ ", events[" ++ toString i
        ++ "].id=" ++ toString curr.eventId⟩
    else .ok ()) 1 events

/-- `check_collapse_replay_determinism`. -/
def checkCollapseReplayDeterminism (engine : CollapseEngine R) : Except Raised Unit :=
  match engine.verifyCollapseIntegrity with
  | .ok _ => .ok ()
  | .error exc =>
    if exc.cls = .assertionError then
      .error ⟨.measurementInvariant, "M5 VIOLATED: " ++ exc.msg⟩
    else .error exc

/-- `check_confidence_bounds`. -/
def checkConfidenceBounds (result : MeasurementResult R) : Except Raised Unit :=
  if -1e-10 ≤ result.confidence ∧ result.confidence ≤ 1 + 1e-10 then .ok ()
  else
    .error ⟨.measurementInvariant, "M6 VIOLATED: confidence = " ++ PyFloat.fixed 8 result.confidence
      ++ ", must be in [0, 1]"⟩

/-- `check_post_collapse_norm`. -/
def checkPostCollapseNorm (result : MeasurementResult R) : Except Raised Unit :=
  checkProbabilityNormalization result.postState

/-- The checks of one collapse, with its position. -/
def collapseChecks (p : IrreversibleCollapseEvent R × ℕ) : List (String × Except Raised Unit) :=
  let label := fun name => name ++ "[event=" ++ toString p.2 ++ "]"
  [(label "M2_INFO_LOSS_NONNEG", checkInformationLossNonnegative p.1.result),
    (label "M6_CONFIDENCE_BOUNDS", checkConfidenceBounds p.1.result),
    (label "M7_POST_COLLAPSE_NORM", checkPostCollapseNorm p.1.result),
    (label "M1_PRE_COLLAPSE_NORM", checkProbabilityNormalization p.1.preCollapseState)]

/-- `run_all_measurement_invariants`. -/
def runAllMeasurementInvariants (engine : CollapseEngine R) : Except Raised InvariantReport :=
  runChecks (· = .measurementInvariant)
    ([("M3_COLLAPSE_LOG_MONOTONICITY", checkCollapseLogMonotonicity engine.collapseLog),
      ("M5_COLLAPSE_REPLAY_DETERMINISM", checkCollapseReplayDeterminism engine)]
      ++ engine.collapseLog.zipIdx.flatMap collapseChecks) ⟨[], []⟩

/-! ### Cycle 4 -/

/-- `check_unrecoverable_bounds`. -/
def checkUnrecoverableBounds (errorModel : ErrorModel R) (collapseEngine : CollapseEngine R) :
    Except Raised Unit :=
  let actualLost := collapseEngine.totalInformationLost
  let trackedLoss := errorModel.totalUnrecoverableLoss
  if trackedLoss < actualLost then
    .error ⟨.invariantViolation, "E1 Violation: Tracked loss (" ++ PyFloat.str trackedLoss
      ++ ") is less than actual declared loss (" ++ PyFloat.str actualLost
      ++ "). Information destruction cannot be reversed."⟩
  else .ok ()

/-- `ev.payload.result`, of a payload that is to be a collapse. -/
def Payload.result : Payload R ω κ → Except Raised (MeasurementResult R)
  | .collapse event => .ok event.result
  | .delta _ => .error ⟨.attributeError, "'StateDelta' object has no attribute 'result'"⟩
  | .other _ => .error ⟨.attributeError, "object has no attribute 'result'"⟩
  | _ => .error ⟨.attributeError, "'dict' object has no attribute 'result'"⟩

/-- `check_no_free_restoration`. -/
def checkNoFreeRestoration (events : List (CausalEvent (Payload R ω κ))) : Except Raised Unit :=
  checkEach (fun ev =>
    if ev.eventType = "COLLAPSE" then
      match ev.payload.result with
      | .error exc => .error exc
      | .ok res =>
        if res.informationLossDeclared < 0 then
          .error ⟨.invariantViolation, "E2 Violation: Event ID " ++ toString ev.causalId
            ++ " declared negative information loss. Information cannot be freely created out of "
            ++ "a collapse."⟩
        else .ok ()
    else .ok ()) events

/-- `check_compensation_traceability`. -/
def checkCompensationTraceability (timeline : CausalTimeline (Payload R ω κ)) :
    Except Raised Unit :=
  checkEach (fun ev =>
    if ev.eventType = "CORRECTION" ∧ ev.isCompensation = false then
      .error ⟨.invariantViolation, "E4 Violation: Event ID " ++ toString ev.causalId
        ++ " is marked as 'CORRECTION' but is not a formal timeline compensation. Silent "
        ++ "correction is forbidden."⟩
    else .ok ()) timeline.events

/-- `run_all_error_invariants`. -/
def runAllErrorInvariants (errorModel : ErrorModel R) (collapseEngine : CollapseEngine R)
    (timeline : CausalTimeline (Payload R ω κ)) : Except Raised InvariantReport :=
  runChecks (fun _ => true)
    [("E1_UNRECOVERABLE_BOUNDS", checkUnrecoverableBounds errorModel collapseEngine),
      ("E2_NO_FREE_RESTORATION", checkNoFreeRestoration timeline.events),
      ("E4_COMPENSATION_TRACEABILITY", checkCompensationTraceability timeline)] ⟨[], []⟩

/-! ### Cycle 5 -/

/-- The loop of `check_linear_timeline`. -/
def linearLoop : ℤ → List (CausalEvent (Payload R ω κ)) → Except Raised Unit
  | _, [] => .ok ()
  | expectedId, ev :: rest =>
    if ev.causalId ≠ expectedId then
      .error ⟨.noCloningViolation, "NG1 Violation: Causal history branching detected! Expected "
        ++ "event " ++ toString expectedId ++ " but found " ++ toString ev.causalId
        ++ ". State cloning or parallel evaluation of unentangled references occurred."⟩
    else linearLoop (expectedId + 1) rest

/-- `check_linear_timeline`. -/
def checkLinearTimeline (timeline : CausalTimeline (Payload R ω κ)) : Except Raised Unit :=
  linearLoop 1 timeline.events

/-- `check_no_unlogged_deletions`.  The entries of the list are events, never `None`. -/
def checkNoUnloggedDeletions (timeline : CausalTimeline (Payload R ω κ)) : Except Raised Unit :=
  if timeline.events.length < timeline.length then
    .error ⟨.noDeletingViolation, "NG2 Violation: The timeline length metadata is greater than the "
      ++ "actual event list. History was deleted."⟩
  else .ok ()

/-- `check_confidence_disturbance_tradeoff`. -/
def checkConfidenceDisturbanceTradeoff (events : List (CausalEvent (Payload R ω κ))) :
    Except Raised Unit :=
  checkEach (fun ev =>
    if ev.eventType = "STRICT_COLLAPSE" then
      match ev.payload.result with
      | .error exc => .error exc
      | .ok res =>
        if res.confidence > 0 ∧ res.informationLossDeclared == 0 then
          .error ⟨.confidenceCollapseViolation, "NG3 Violation: Event " ++ toString ev.causalId
            ++ " acquired " ++ PyFloat.str (res.confidence * 100.0)
            ++ "% confidence with zero information loss. Hidden measurement bypass detected."⟩
        else .ok ()
    else .ok ()) events

/-- `run_all_nogo_invariants`. -/
def runAllNogoInvariants (timeline : CausalTimeline (Payload R ω κ)) :
    Except Raised InvariantReport :=
  runChecks (fun _ => true)
    [("NG1_NO_CLONING_BOUND", checkLinearTimeline timeline),
      ("NG2_NO_DELETING_BOUND", checkNoUnloggedDeletions timeline),
      ("NG3_CONFIDENCE_COLLAPSE_BOUND", checkConfidenceDisturbanceTradeoff timeline.events)]
    ⟨[], []⟩

/-! ### The whole report -/

/-- The report of `verify_all_invariants`, by layer. -/
structure FullReport where
  cycle1 : InvariantReport
  cycle2 : InvariantReport
  cycle3 : InvariantReport
  cycle4 : InvariantReport
  cycle5 : InvariantReport

/-- The check of the third layer, which catches whatever is raised. -/
def checkOrdering (timeline : CausalTimeline (Payload R ω κ)) : InvariantReport :=
  match timeline.verifyOrdering with
  | .ok _ => ⟨["C3_ORDERING"], []⟩
  | .error exc => ⟨[], ["C3_ORDERING: " ++ exc.msg]⟩

/-- `verify_all_invariants`, of the foundation system. -/
def QuantumFoundationSystem.verifyAllInvariants (system : QuantumFoundationSystem R ω κ) :
    Except Raised (InvariantReport × InvariantReport × InvariantReport) :=
  match runAllInvariants system.stateEngine with
  | .error exc => .error exc
  | .ok c1Report =>
    match runAllMeasurementInvariants system.collapseEngine with
    | .error exc => .error exc
    | .ok c2Report => .ok (c1Report, c2Report, checkOrdering system.timeline)

/-- `run_error_invariants`. -/
def ErrorEnforcementEngine.runErrorInvariants (engine : ErrorEnforcementEngine R ω κ) :
    Except Raised InvariantReport :=
  runAllErrorInvariants engine.errorModel engine.collapseEngine engine.timeline

/-- `verify_all_invariants`, of the harness. -/
def FullStackHarness.verifyAllInvariants (harness : FullStackHarness R ω κ) :
    Except Raised FullReport :=
  match harness.system.verifyAllInvariants with
  | .error exc => .error exc
  | .ok (c1, c2, c3) =>
    match harness.errorLayer.runErrorInvariants with
    | .error exc => .error exc
    | .ok c4 =>
      match runAllNogoInvariants harness.nogoLayer.timeline with
      | .error exc => .error exc
      | .ok c5 => .ok ⟨c1, c2, c3, c4, c5⟩

end QuantumFoundation
