import QuantumFoundation.Quantum.CollapseHistory
import QuantumFoundation.Quantum.Invariants
import QuantumFoundation.Quantum.StateHistory

/-!
# The checks in every reachable state

In exact arithmetic, every state that the harness reaches passes the checks of its layers that do
not depend on how close to one a norm is.  A measurement that the guard refuses leaves a collapse
without an event behind, but one that declares no loss, and so changes no sum.
-/

namespace QuantumFoundation

/-! ### Reports -/

section Reports

variable {α : Type*}

/-- **Reports.**  If what the checks raise is caught, there is a report, and the checks that hold
are among the passed ones. -/
theorem runChecks_ok (caught : ErrorClass → Bool) (checks : List (String × Except Raised Unit))
    (hcaught : ∀ p ∈ checks, ∀ exc, p.2 = .error exc → caught exc.cls = true)
    (report : InvariantReport) :
    ∃ report', runChecks caught checks report = .ok report' ∧ report.passed ⊆ report'.passed ∧
      ∀ p ∈ checks, p.2 = .ok () → p.1 ∈ report'.passed := by
  induction checks generalizing report with
  | nil => exact ⟨report, rfl, List.Subset.refl _, by simp⟩
  | cons p checks ih =>
    have hrest : ∀ q ∈ checks, ∀ exc, q.2 = .error exc → caught exc.cls = true :=
      fun q hq => hcaught q (List.mem_cons_of_mem p hq)
    obtain ⟨name, check⟩ := p
    cases check with
    | ok =>
      obtain ⟨report', hrun, hsub, hpassed⟩ :=
        ih hrest { report with passed := report.passed ++ [name] }
      refine ⟨report', hrun, List.Subset.trans (List.subset_append_left _ _) hsub, ?_⟩
      intro q hq hok
      rcases List.mem_cons.mp hq with rfl | hq
      · exact hsub (by simp)
      · exact hpassed q hq hok
    | error exc =>
      obtain ⟨report', hrun, hsub, hpassed⟩ :=
        ih hrest { report with failed := report.failed ++ [name ++ ": " ++ exc.msg] }
      refine ⟨report', ?_, hsub, ?_⟩
      · rw [runChecks, if_pos (hcaught _ List.mem_cons_self exc rfl)]
        exact hrun
      · intro q hq hok
        rcases List.mem_cons.mp hq with rfl | hq
        · exact absurd hok (by simp)
        · exact hpassed q hq hok

/-- A check that raises one exception raises that one. -/
lemma cls_of_error {p : Prop} [Decidable p] {raised exc : Raised}
    (h : (if p then .error raised else .ok () : Except Raised Unit) = .error exc) :
    exc.cls = raised.cls := by
  split at h
  · rw [← Except.error.inj h]
  · exact absurd h (by simp)

lemma checkEach_ok {check : α → Except Raised Unit} {L : List α}
    (h : ∀ x ∈ L, check x = .ok ()) : checkEach check L = .ok () := by
  induction L with
  | nil => rfl
  | cons x L ih =>
    rw [checkEach, h x List.mem_cons_self]
    exact ih fun y hy => h y (List.mem_cons_of_mem x hy)

lemma checkPairs_ok {check : ℕ → α → α → Except Raised Unit} {P : α → α → Prop}
    (h : ∀ i x y, P x y → check i x y = .ok ()) {L : List α} (hL : L.IsChain P) (i : ℕ) :
    checkPairs check i L = .ok () := by
  induction hL generalizing i with
  | nil => rfl
  | singleton x => rfl
  | cons_cons hxy _ ih =>
    rw [checkPairs, h i _ _ hxy]
    exact ih (i + 1)

end Reports

/-! ### The checks of the histories -/

section Histories

variable {R ω κ : Type*} [PyFloat R]

namespace SovereignStateEngine.History

variable {initialState : StateVector R} {engine : SovereignStateEngine R ω}
  (h : History initialState engine)
include h

lemma checkSequenceMonotonicity_ok : checkSequenceMonotonicity engine.deltaLog = .ok () :=
  checkPairs_ok (fun _ _ _ hnext => if_neg (not_not.mpr hnext)) h.numbered.isChain 1

lemma checkDeltaContinuity_ok [ReflBEq (StateVector R)] :
    checkDeltaContinuity engine.deltaLog = .ok () := by
  refine checkPairs_ok (fun i prev curr hlinked => if_neg ?_) h.linked.isChain 1
  rw [hlinked]
  simp [bne]

lemma checkDimensionPreservation_ok : checkDimensionPreservation engine.deltaLog = .ok () := by
  cases hlog : engine.deltaLog with
  | nil => rfl
  | cons first rest =>
    dsimp only [checkDimensionPreservation]
    have hdims : ∀ d ∈ first :: rest, d.priorState.dimension = initialState.dimension ∧
        d.nextState.dimension = initialState.dimension := by
      rw [← hlog]
      exact h.dimensions
    have hfirst := (hdims first List.mem_cons_self).1
    refine checkEach_ok fun p hp => checkEach_ok fun q hq => if_neg (not_not.mpr ?_)
    obtain ⟨hprior, hnext⟩ := hdims p.1 (List.fst_mem_of_mem_zipIdx hp)
    rw [hfirst]
    rcases List.mem_pair.mp hq with rfl | rfl
    · exact hprior
    · exact hnext

lemma checkReplayDeterminism_ok [ReflBEq (StateVector R)] :
    checkReplayDeterminism engine = .ok () := by
  rw [checkReplayDeterminism, h.verifyReplayIntegrity]

/-- **Cycle 1.** -/
theorem runAllInvariants_ok [ReflBEq (StateVector R)] :
    ∃ report, runAllInvariants engine = .ok report ∧
      ∀ name ∈ ["SEQUENCE_MONOTONICITY", "DELTA_CONTINUITY", "DIMENSION_PRESERVATION",
        "REPLAY_DETERMINISM"], name ∈ report.passed := by
  have hnorm : ∀ exc, checkNormConservation engine.currentState = .error exc →
      exc.cls = .invariantViolation := fun _ => cls_of_error
  have hzero : ∀ exc, checkNoZeroState engine.currentState = .error exc →
      exc.cls = .invariantViolation := fun _ => cls_of_error
  have hsequence := h.checkSequenceMonotonicity_ok
  have hcontinuity := h.checkDeltaContinuity_ok
  have hdimension := h.checkDimensionPreservation_ok
  have hreplay := h.checkReplayDeterminism_ok
  obtain ⟨report, hrun, -, hpassed⟩ := runChecks_ok (· = .invariantViolation)
    [("NORM_CONSERVATION", checkNormConservation engine.currentState),
      ("NO_ZERO_STATE", checkNoZeroState engine.currentState),
      ("SEQUENCE_MONOTONICITY", checkSequenceMonotonicity engine.deltaLog),
      ("DELTA_CONTINUITY", checkDeltaContinuity engine.deltaLog),
      ("DIMENSION_PRESERVATION", checkDimensionPreservation engine.deltaLog),
      ("REPLAY_DETERMINISM", checkReplayDeterminism engine)]
    (by
      simp only [List.forall_mem_cons, hsequence, hcontinuity, hdimension, hreplay]
      exact ⟨fun exc hexc => decide_eq_true (hnorm exc hexc),
        fun exc hexc => decide_eq_true (hzero exc hexc), by simp⟩) ⟨[], []⟩
  refine ⟨report, hrun, ?_⟩
  simp only [List.forall_mem_cons] at hpassed ⊢
  exact ⟨hpassed.2.2.1 hsequence, hpassed.2.2.2.1 hcontinuity, hpassed.2.2.2.2.1 hdimension,
    hpassed.2.2.2.2.2.1 hreplay, by simp⟩

end SovereignStateEngine.History

end Histories

/-! ### Exact arithmetic -/

section Exact

variable {R ω κ : Type*} [Field R] [LinearOrder R] [MathLibrary R]

instance PyFloat.instReflBEq : ReflBEq R := ⟨fun {a} => decide_eq_true (rfl : a = a)⟩

instance : ReflBEq (PyComplex R) := ⟨fun {z} => by
  show (z.re == z.re && z.im == z.im) = true
  rw [beq_self_eq_true, beq_self_eq_true]
  rfl⟩

instance : ReflBEq (Amplitude R) := ⟨fun {a} => by
  show (a.basisLabel == a.basisLabel && a.value == a.value) = true
  rw [beq_self_eq_true, beq_self_eq_true]
  rfl⟩

instance : ReflBEq (StateVector R) := ⟨fun {s} => by
  show (s.amplitudes == s.amplitudes) = true
  exact beq_self_eq_true _⟩

lemma pyMax_zero_nonneg (x : R) : 0 ≤ pyMax 0 x := by
  rw [pyMax]
  split
  · next hpos => exact hpos.le
  · exact le_refl 0

lemma pySum_append_singleton (l : List R) (x : R) : pySum (l ++ [x]) = pySum l + x := by
  rw [pySum, List.foldl_append]
  rfl

/-- A measurement that grants confidence and is refused declares no loss. -/
lemma loss_eq_zero_of_not_disturbs {result : MeasurementResult R}
    (hloss : 0 ≤ result.informationLossDeclared)
    (h : ¬NoGoEnforcementEngine.Disturbs result) : result.informationLossDeclared = 0 := by
  by_contra hne
  refine h ⟨fun hguard => hne (of_decide_eq_true hguard.2), not_lt.mpr hloss⟩

/-! ### The invariant of the harness -/

/-- **Cycle 2.** -/
theorem CollapseEngine.History.runAllMeasurementInvariants_ok [IsStrictOrderedRing R]
    {engine : CollapseEngine R} (h : engine.History) :
    ∃ report, runAllMeasurementInvariants engine = .ok report ∧
      "M3_COLLAPSE_LOG_MONOTONICITY" ∈ report.passed ∧
      "M5_COLLAPSE_REPLAY_DETERMINISM" ∈ report.passed ∧
      ∀ i < engine.collapseLog.length,
        "M2_INFO_LOSS_NONNEG" ++ "[event=" ++ toString i ++ "]" ∈ report.passed ∧
        "M6_CONFIDENCE_BOUNDS" ++ "[event=" ++ toString i ++ "]" ∈ report.passed := by
  have hmonotone : checkCollapseLogMonotonicity engine.collapseLog = .ok () := by
    refine checkPairs_ok (fun i prev curr hnext => if_neg ?_) h.numbered.isChain 1
    rw [hnext]
    omega
  have hreplay : checkCollapseReplayDeterminism engine = .ok () := by
    rw [checkCollapseReplayDeterminism, h.verifyCollapseIntegrity]
  have hloss : ∀ result : MeasurementResult R, checkInformationLossNonnegative result = .ok () :=
    fun result => if_neg result.informationLossDeclared_ge
  have hconfidence : ∀ result : MeasurementResult R, checkConfidenceBounds result = .ok () := by
    intro result
    have hneg : (-1e-10 : R) ≤ 0 := neg_nonpos.mpr (by norm_num)
    exact if_pos ⟨hneg.trans result.confidence_mem.1, result.confidence_mem.2⟩
  have hnorm : ∀ (state : StateVector R) exc, checkProbabilityNormalization state = .error exc →
      exc.cls = .measurementInvariant := fun _ _ => cls_of_error
  obtain ⟨report, hrun, -, hpassed⟩ := runChecks_ok (· = .measurementInvariant)
    ([("M3_COLLAPSE_LOG_MONOTONICITY", checkCollapseLogMonotonicity engine.collapseLog),
      ("M5_COLLAPSE_REPLAY_DETERMINISM", checkCollapseReplayDeterminism engine)]
      ++ engine.collapseLog.zipIdx.flatMap collapseChecks)
    (by
      intro p hp exc hexc
      rcases List.mem_append.mp hp with hp | hp
      · rcases List.mem_pair.mp hp with rfl | rfl
        · exact absurd (hmonotone.symm.trans hexc) (by simp)
        · exact absurd (hreplay.symm.trans hexc) (by simp)
      · obtain ⟨e, -, hp⟩ := List.mem_flatMap.mp hp
        simp only [collapseChecks, List.mem_cons, List.not_mem_nil, or_false] at hp
        rcases hp with rfl | rfl | rfl | rfl
        · exact absurd ((hloss _).symm.trans hexc) (by simp)
        · exact absurd ((hconfidence _).symm.trans hexc) (by simp)
        · exact decide_eq_true (hnorm _ _ hexc)
        · exact decide_eq_true (hnorm _ _ hexc)) ⟨[], []⟩
  -- the norm checks may fail, within the tolerance of the states
  refine ⟨report, hrun,
    hpassed (_, checkCollapseLogMonotonicity engine.collapseLog) (by simp) hmonotone,
    hpassed (_, checkCollapseReplayDeterminism engine) (by simp) hreplay, ?_⟩
  intro i hi
  have hmem : (engine.collapseLog[i], i) ∈ engine.collapseLog.zipIdx :=
    List.mk_mem_zipIdx_iff_getElem?.mpr (List.getElem?_eq_getElem hi)
  have hchecks : ∀ p ∈ collapseChecks (engine.collapseLog[i], i), p.2 = .ok () →
      p.1 ∈ report.passed := fun p hp =>
    hpassed p (List.mem_append_right _ (List.mem_flatMap.mpr ⟨_, hmem, hp⟩))
  exact ⟨hchecks (_, _) List.mem_cons_self (hloss _),
    hchecks (_, _) (List.mem_cons_of_mem _ List.mem_cons_self) (hconfidence _)⟩

/-- The types of the events of the harness; a collapse among them disturbs the state. -/
def HarnessEvent (e : CausalEvent (Payload R ω κ)) : Prop :=
  e.eventType = "GENESIS" ∨ e.eventType = "STRICT_EVOLUTION" ∨
    e.eventType = "STRICT_COLLAPSE" ∧
      ∃ c, e.payload = .collapse c ∧ NoGoEnforcementEngine.Disturbs c.result

namespace NoGoEnforcementEngine

/-- The invariant of the shared stores of the harness. -/
structure Sound (initialState : StateVector R) (engine : NoGoEnforcementEngine R ω κ) : Prop where
  states : engine.stateEngine.History initialState
  collapses : engine.collapseEngine.History
  total : engine.errorModel.totalUnrecoverableLoss = engine.collapseEngine.totalInformationLost
  timeline : engine.timeline.InStep
  events : ∀ e ∈ engine.timeline.events, HarnessEvent e

variable {initialState : StateVector R} {engine : NoGoEnforcementEngine R ω κ}

/-- **Step lemma.** -/
theorem Sound.evolveStrictly (h : engine.Sound initialState) (ref : StateReference)
    (observation : Observation ω) :
    (engine.evolveStrictly ref observation 1).1.Sound initialState := by
  rcases engine.evolveStrictly_cases ref observation 1 with
    ⟨exc, hr, -⟩ | ⟨delta, -, hrecords, ⟨hnoise, -⟩ | ⟨-, event, hr, hnext, htype, -⟩⟩
  · rw [hr]
    exact h
  · exact absurd hnoise (lt_irrefl 1)
  · rw [hr]
    refine ⟨h.states.commit hrecords, h.collapses, h.total, h.timeline.append hnext, ?_⟩
    intro e he
    rcases List.mem_append.mp he with he | he
    · exact h.events e he
    · rw [List.mem_singleton.mp he]
      exact Or.inr (Or.inl htype)

/-- **Step lemma.**  A projective measurement that the guard refuses adds a loss of zero to the
collapse log, and nothing to the error model. -/
theorem Sound.measureStrictly (h : engine.Sound initialState) (ref : StateReference)
    {token : CollapseToken} (htoken : engine.collapseEngine.Projective token) (seed : ℤ) :
    (engine.measureStrictly ref token seed).1.Sound initialState := by
  rcases engine.measureStrictly_cases ref token seed with
    ⟨exc, hr, -⟩ | ⟨collapse, -, hrecords, hend⟩
  · rw [hr]
    exact h
  · have hcollapses := h.collapses.commit hrecords htoken
    have hmeasured := hrecords.measured htoken
    have hloss : 0 ≤ collapse.result.informationLossDeclared := by
      rw [(ProjectiveMeasurementPolicy.projects_of_measure hmeasured).informationLossDeclared_eq]
      exact pyMax_zero_nonneg _
    have htotal : (engine.collapseEngine.commit collapse).totalInformationLost
        = engine.collapseEngine.totalInformationLost
          + collapse.result.informationLossDeclared := by
      rw [CollapseEngine.totalInformationLost, CollapseEngine.commit, List.map_append,
        List.map_singleton, pySum_append_singleton]
      rfl
    rcases hend with ⟨hdisturbs, exc, hr⟩ | ⟨hdisturbs, event, hr, hnext, htype, hpayload, -⟩
    · -- the collapse log has grown and the error model has not
      rw [hr]
      refine ⟨h.states, hcollapses, ?_, h.timeline, h.events⟩
      show engine.errorModel.totalUnrecoverableLoss
        = (engine.collapseEngine.commit collapse).totalInformationLost
      rw [htotal, loss_eq_zero_of_not_disturbs hloss hdisturbs, add_zero, h.total]
    · rw [hr]
      refine ⟨h.states, hcollapses, ?_, h.timeline.append hnext, ?_⟩
      · show engine.errorModel.totalInfoLoss + collapse.result.informationLossDeclared
          = (engine.collapseEngine.commit collapse).totalInformationLost
        rw [htotal, ← h.total]
        rfl
      · intro e he
        rcases List.mem_append.mp he with he | he
        · exact h.events e he
        · rw [List.mem_singleton.mp he]
          exact Or.inr (Or.inr ⟨htype, collapse, hpayload, hdisturbs⟩)

/-- **Cycle 4.** -/
theorem Sound.runAllErrorInvariants_ok (h : engine.Sound initialState) :
    runAllErrorInvariants engine.errorModel engine.collapseEngine engine.timeline
      = .ok ⟨["E1_UNRECOVERABLE_BOUNDS", "E2_NO_FREE_RESTORATION",
          "E4_COMPENSATION_TRACEABILITY"], []⟩ := by
  have hbounds : checkUnrecoverableBounds engine.errorModel engine.collapseEngine = .ok () :=
    if_neg (not_lt.mpr h.total.ge)
  have hrestoration : checkNoFreeRestoration engine.timeline.events = .ok () := by
    refine checkEach_ok fun e he => if_neg ?_
    rcases h.events e he with htype | htype | ⟨htype, -⟩ <;> rw [htype] <;> decide
  have htraceability : checkCompensationTraceability engine.timeline = .ok () := by
    refine checkEach_ok fun e he => if_neg ?_
    rintro ⟨htype, -⟩
    rcases h.events e he with htype' | htype' | ⟨htype', -⟩ <;>
      exact absurd (htype'.symm.trans htype) (by decide)
  rw [runAllErrorInvariants, hbounds, hrestoration, htraceability]
  rfl

/-- **Cycle 5.** -/
theorem Sound.runAllNogoInvariants_ok (h : engine.Sound initialState) :
    runAllNogoInvariants engine.timeline
      = .ok ⟨["NG1_NO_CLONING_BOUND", "NG2_NO_DELETING_BOUND", "NG3_CONFIDENCE_COLLAPSE_BOUND"],
          []⟩ := by
  have hlinear : checkLinearTimeline engine.timeline = .ok () := by
    have hloop : ∀ (L : List (CausalEvent (Payload R ω κ))) (s : ℤ),
        NumberedFrom CausalEvent.causalId s L → linearLoop s L = .ok () := by
      intro L
      induction L with
      | nil => exact fun _ _ => rfl
      | cons e L ih =>
        intro s hnumbered
        rw [linearLoop, if_neg (not_not.mpr hnumbered.1)]
        exact ih (s + 1) hnumbered.2
    exact hloop _ _ h.timeline.numbered
  have hdeletions : checkNoUnloggedDeletions engine.timeline = .ok () := if_neg (lt_irrefl _)
  have htradeoff : checkConfidenceDisturbanceTradeoff engine.timeline.events = .ok () := by
    refine checkEach_ok fun e he => ?_
    rcases h.events e he with htype | htype | ⟨htype, c, hpayload, hdisturbs⟩
    · exact if_neg (by rw [htype]; decide)
    · exact if_neg (by rw [htype]; decide)
    · rw [if_pos htype, hpayload]
      exact if_neg hdisturbs.1
  rw [runAllNogoInvariants, hlinear, hdeletions, htradeoff]
  rfl

end NoGoEnforcementEngine

namespace FullStackHarness

variable {harness : FullStackHarness R ω κ}

/-- A new harness meets the invariant. -/
lemma sound_of_new {O : SetOrder} {initialAmplitudes : Dict String (PyComplex R)}
    {rootId : String} (hnew : new O initialAmplitudes rootId = .ok harness) :
    harness.nogoLayer.Sound harness.c1State := by
  obtain ⟨-, hlayer, -⟩ := new_ok hnew
  obtain ⟨event, htimeline, hnext, htype, -⟩ := QuantumFoundationSystem.timeline_new (ω := ω)
    (κ := κ) harness.c1State "FullStackDeterministicHarness"
  rw [hlayer]
  refine ⟨SovereignStateEngine.History.init harness.c1State, ⟨rfl, trivial, rfl, ?_⟩, rfl, ?_, ?_⟩
  · exact fun e he => absurd he List.not_mem_nil
  · exact htimeline ▸ CausalTimeline.InStep.init.append hnext
  · intro e he
    have hevents : (QuantumFoundationSystem.new harness.c1State "FullStackDeterministicHarness"
        : QuantumFoundationSystem R ω κ).timeline.events = [event] :=
      congrArg CausalTimeline.events htimeline
    have hevent : e ∈ [event] := hevents ▸ he
    rw [List.mem_singleton.mp hevent]
    exact Or.inl htype

/-- **Step lemma.**  Every call keeps the invariant. -/
theorem sound_perform {initialState : StateVector R} (h : harness.nogoLayer.Sound initialState)
    (O : SetOrder) (c : HarnessCall R) :
    (harness.perform O c).nogoLayer.Sound initialState := by
  cases c with
  | defineUnitaryOperation ruleName matrix description =>
    rw [perform, defineUnitaryOperation]
    cases UnitaryOperator.new O matrix with
    | error exc => exact h
    | ok u =>
      -- the rule builds the operator anew at each evolution, and may raise there
      have hstates := h.states.registerRule ruleName (verifiedRule O matrix) description
      exact ⟨hstates, h.collapses, h.total, h.timeline, h.events⟩
  | evolveDeterministic ruleName =>
    rw [perform, evolveDeterministic]
    cases Observation.new ruleName [] with
    | error exc => exact h
    | ok obs =>
      have hnext := h.evolveStrictly harness.stateReference obs
      cases hr : harness.nogoLayer.evolveStrictly harness.stateReference obs 1 with
      | mk nogoLayer result =>
        rw [hr] at hnext
        cases result with
        | error exc => simpa only [hr] using hnext
        | ok p => simpa only [hr] using hnext
  | measureDeterministic tokenId seed =>
    rw [perform, measureDeterministic]
    cases htoken : harness.system.issueCollapseToken "ProjectiveMeasurement" tokenId with
    | error exc => exact h
    | ok token =>
      have hprojective := h.collapses.projective htoken
      have hnext := h.measureStrictly harness.stateReference hprojective seed
      cases hr : harness.nogoLayer.measureStrictly harness.stateReference token seed with
      | mk nogoLayer result =>
        rw [hr] at hnext
        cases result with
        | error exc => simpa only [hr] using hnext
        | ok p => simpa only [hr] using hnext
  | sealTimeline reason =>
    rw [perform, sealTimeline, QuantumFoundationSystem.sealTimeline]
    cases hlast : harness.system.timeline.events.getLast? with
    | none => exact ⟨h.states, h.collapses, h.total, h.timeline, h.events⟩
    | some last =>
      have htimeline := h.timeline.perform (.sealUpTo last.causalId reason)
      rcases htimeline with ⟨-, htimeline⟩ | ⟨htyped, -⟩
      · refine ⟨h.states, h.collapses, h.total, htimeline, ?_⟩
        show ∀ e ∈ (harness.nogoLayer.timeline.sealUpTo last.causalId reason).1.events,
          HarnessEvent e
        rcases harness.nogoLayer.timeline.sealUpTo_cases last.causalId reason with
          ⟨exc, hr⟩ | ⟨ponr, -, -, -, hr⟩ <;> rw [hr] <;> exact h.events
      · exact absurd trivial htyped

/-- **Run lemma.** -/
theorem sound_exec {O : SetOrder} {initialAmplitudes : Dict String (PyComplex R)}
    {rootId : String} (hnew : new O initialAmplitudes rootId = .ok harness)
    (calls : List (HarnessCall R)) :
    (Run.exec (perform O) harness calls).nogoLayer.Sound harness.c1State :=
  Run.invariant_of_forall (I := fun x : FullStackHarness R ω κ => x.nogoLayer.Sound harness.c1State)
    (fun _ c hx => sound_perform hx O c) (sound_of_new hnew) calls

/-- **The audit.**  In exact arithmetic, whatever has been called on a harness, there is a report,
and the checks of the log of deltas, of the collapses, of the order of the timeline, of the error
bounds and of the no-go bounds are among the passed ones. -/
theorem audit_passes [IsStrictOrderedRing R] (O : SetOrder)
    (initialAmplitudes : Dict String (PyComplex R)) (rootId : String)
    (hnew : new O initialAmplitudes rootId = .ok harness) (calls : List (HarnessCall R)) :
    let reached := Run.exec (perform O) harness calls
    ∃ report, reached.verifyAllInvariants = .ok report ∧
      (∀ name ∈ ["SEQUENCE_MONOTONICITY", "DELTA_CONTINUITY", "DIMENSION_PRESERVATION",
        "REPLAY_DETERMINISM"], name ∈ report.cycle1.passed) ∧
      "M3_COLLAPSE_LOG_MONOTONICITY" ∈ report.cycle2.passed ∧
      "M5_COLLAPSE_REPLAY_DETERMINISM" ∈ report.cycle2.passed ∧
      (∀ i < reached.nogoLayer.collapseEngine.collapseLog.length,
        "M2_INFO_LOSS_NONNEG" ++ "[event=" ++ toString i ++ "]" ∈ report.cycle2.passed ∧
        "M6_CONFIDENCE_BOUNDS" ++ "[event=" ++ toString i ++ "]" ∈ report.cycle2.passed) ∧
      report.cycle3.passed = ["C3_ORDERING"] ∧
      report.cycle4.passed = ["E1_UNRECOVERABLE_BOUNDS", "E2_NO_FREE_RESTORATION",
        "E4_COMPENSATION_TRACEABILITY"] ∧
      report.cycle5.passed = ["NG1_NO_CLONING_BOUND", "NG2_NO_DELETING_BOUND",
        "NG3_CONFIDENCE_COLLAPSE_BOUND"] := by
  intro reached
  have h : reached.nogoLayer.Sound harness.c1State := sound_exec hnew calls
  obtain ⟨c1, hc1, hpassed1⟩ := h.states.runAllInvariants_ok
  obtain ⟨c2, hc2, hmonotone, hreplay, hevents⟩ := h.collapses.runAllMeasurementInvariants_ok
  have hordered := CausalTimeline.ordered_of_numbered h.timeline.wellFormed h.timeline.numbered
  have hc3 : checkOrdering reached.nogoLayer.timeline = ⟨["C3_ORDERING"], []⟩ := by
    rw [checkOrdering, hordered.verified]
  have hsystem : reached.system.verifyAllInvariants = .ok (c1, c2, ⟨["C3_ORDERING"], []⟩) := by
    simp only [QuantumFoundationSystem.verifyAllInvariants, system, hc1, hc2, hc3]
  have hc4 := h.runAllErrorInvariants_ok
  have hc5 := h.runAllNogoInvariants_ok
  refine ⟨⟨c1, c2, ⟨["C3_ORDERING"], []⟩, ⟨_, []⟩, ⟨_, []⟩⟩, ?report, hpassed1, hmonotone, hreplay,
    hevents, rfl, rfl, rfl⟩
  case report =>
    simp only [verifyAllInvariants, hsystem, ErrorEnforcementEngine.runErrorInvariants, errorLayer,
      hc4, hc5]

/-- A superposition is measured, and the second of the measurements uses the same token. -/
theorem audit_passes_superposed :
    ∃ (harness : FullStackHarness ℚ Unit Unit) (report : FullReport),
      new .lastInsertion superposed "root" = .ok harness ∧
      (Run.exec (perform .lastInsertion) harness [.measureDeterministic "m1" 0,
        .measureDeterministic "m1" 8, .sealTimeline "end"]).verifyAllInvariants = .ok report ∧
      "REPLAY_DETERMINISM" ∈ report.cycle1.passed ∧
      "M5_COLLAPSE_REPLAY_DETERMINISM" ∈ report.cycle2.passed ∧
      report.cycle3.passed = ["C3_ORDERING"] := by
  obtain ⟨harness, hnew⟩ := exists_superposed
  obtain ⟨report, hreport, h1, -, h5, -, h3, -⟩ := audit_passes .lastInsertion superposed "root"
    hnew [.measureDeterministic "m1" 0, .measureDeterministic "m1" 8, .sealTimeline "end"]
  exact ⟨harness, report, hnew, hreport, h1 _ (by simp), h5, h3⟩

end FullStackHarness

end Exact

end QuantumFoundation
