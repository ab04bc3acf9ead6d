import QuantumFoundation.Quantum.Foundation

/-!
# The error layer

The error model, the correction by syndromes, and the engine of `error_enforcement_engine.py`.  The
engine keeps two states of its own, an ideal and a physical one: an evolution goes through the
state engine and overwrites both, a measurement collapses the physical state and overwrites both,
and leaves the state engine as it is.
-/

namespace QuantumFoundation

variable {R ω κ : Type*} [PyFloat R]

/-! ### The error model -/

/-- The error model, with the loss it has been told of. -/
structure ErrorModel (R : Type*) where
  totalInfoLoss : R

namespace ErrorModel

/-- A model that has been told of no loss. -/
def new : ErrorModel R := ⟨0⟩

/-- `register_measurement_disturbance`. -/
def registerMeasurementDisturbance (lossBits : R) (errorModel : ErrorModel R) :
    Attempt (ErrorModel R) Unit :=
  if lossBits < 0 then
    (errorModel, .error ⟨.valueError, "Cannot recover information by negative loss."⟩)
  else (⟨errorModel.totalInfoLoss + lossBits⟩, .ok ())

/-- `total_unrecoverable_loss`. -/
def totalUnrecoverableLoss (errorModel : ErrorModel R) : R := errorModel.totalInfoLoss

end ErrorModel

/-- `calculate_fidelity`.  The labels are visited in the order of a set. -/
def calculateFidelity (O : SetOrder) (stateA stateB : StateVector R) : R :=
  let dictA := stateA.asDict
  let dictB := stateB.asDict
  let innerProduct := (O.iter (dictA.keys ++ dictB.keys)).foldl (fun inner k =>
    let ampA := (dictA.get? k).getD (.ofReal 0)
    let ampB := (dictB.get? k).getD (.ofReal 0)
    inner + ampA.conjugate * ampB) (PyComplex.ofReal 0)
  let fidelity := innerProduct.abs * innerProduct.abs
  if fidelity > 1 then 1 else if fidelity < 0 then 0 else fidelity

/-- The authority for a correction. -/
structure SyndromeToken (R : Type*) where
  detectedError : String
  confidence : R

/-- `attempt_correction`. -/
def attemptCorrection (O : SetOrder) (currentState intendedState : StateVector R)
    (syndrome : SyndromeToken R) : StateVector R × Bool :=
  if syndrome.confidence < 0.5 then (currentState, false)
  else if calculateFidelity O currentState intendedState == 0 then (currentState, false)
  else (intendedState, true)

lemma attemptCorrection_cases (O : SetOrder) (currentState intendedState : StateVector R)
    (syndrome : SyndromeToken R) :
    attemptCorrection O currentState intendedState syndrome = (currentState, false) ∨
      attemptCorrection O currentState intendedState syndrome = (intendedState, true) := by
  rw [attemptCorrection]
  split
  · exact Or.inl rfl
  · split
    · exact Or.inl rfl
    · exact Or.inr rfl

/-! ### The engine -/

/-- The engine. -/
structure ErrorEnforcementEngine (R ω κ : Type*) [PyFloat R] where
  stateEngine : SovereignStateEngine R ω
  collapseEngine : CollapseEngine R
  timeline : CausalTimeline (Payload R ω κ)
  errorModel : ErrorModel R
  idealState : StateVector R
  physicalState : StateVector R

namespace ErrorEnforcementEngine

/-- The constructor. -/
def new (baseState : StateVector R) (stateEngine : SovereignStateEngine R ω)
    (collapseEngine : CollapseEngine R) (timeline : CausalTimeline (Payload R ω κ)) :
    ErrorEnforcementEngine R ω κ :=
  ⟨stateEngine, collapseEngine, timeline, .new, baseState, baseState⟩

/-- The amplitudes with a phase error on the first of them. -/
def noisyAmplitudes (idealState : StateVector R) (errorPhase : R) : Dict String (PyComplex R) :=
  match h : idealState.asDict.entries with
  | [] => .empty
  | (k, v) :: rest => ⟨(k, v * .expI errorPhase) :: rest, by
      have hnodup := idealState.asDict.nodup
      rw [h] at hnodup
      exact hnodup⟩

/-- `evolve_with_noise`. -/
def evolveWithNoise (observation : Observation ω) (noiseFidelity : R)
    (engine : ErrorEnforcementEngine R ω κ) :
    Attempt (ErrorEnforcementEngine R ω κ) (StateVector R × CausalEvent (Payload R ω κ)) :=
  match engine.stateEngine.observe observation with
  | (stateEngine, .error exc) => ({ engine with stateEngine := stateEngine }, .error exc)
  | (stateEngine, .ok _) =>
    let idealState := stateEngine.currentState
    let engine := { engine with stateEngine := stateEngine, idealState := idealState }
    match StateVector.new (noisyAmplitudes idealState (1 - noiseFidelity)) with
    | .error exc => (engine, .error exc)
    | .ok physicalState =>
      let engine := { engine with physicalState := physicalState }
      match engine.timeline.record "NOISY_EVOLUTION"
          (.noisyEvolution observation noiseFidelity) false with
      | (timeline, .error exc) => ({ engine with timeline := timeline }, .error exc)
      | (timeline, .ok event) => ({ engine with timeline := timeline }, .ok (physicalState, event))

/-- `measure_with_disturbance`. -/
def measureWithDisturbance (token : CollapseToken) (seed : ℤ)
    (engine : ErrorEnforcementEngine R ω κ) :
    Attempt (ErrorEnforcementEngine R ω κ)
      (IrreversibleCollapseEvent R × CausalEvent (Payload R ω κ)) :=
  match engine.collapseEngine.collapse engine.physicalState token seed with
  | (collapseEngine, .error exc) => ({ engine with collapseEngine := collapseEngine }, .error exc)
  | (collapseEngine, .ok collapseEvent) =>
    let engine := { engine with
      collapseEngine := collapseEngine
      physicalState := collapseEvent.result.postState
      idealState := collapseEvent.result.postState }
    match engine.errorModel.registerMeasurementDisturbance
        collapseEvent.result.informationLossDeclared with
    | (errorModel, .error exc) => ({ engine with errorModel := errorModel }, .error exc)
    | (errorModel, .ok ()) =>
      let engine := { engine with errorModel := errorModel }
      match engine.timeline.record "MEASUREMENT_COLLAPSE" (.collapse collapseEvent) false with
      | (timeline, .error exc) => ({ engine with timeline := timeline }, .error exc)
      | (timeline, .ok causalEvent) =>
        ({ engine with timeline := timeline }, .ok (collapseEvent, causalEvent))

/-- `apply_syndrome_correction`.  The event is made a compensation after it has been recorded, and
nothing reads it in between. -/
def applySyndromeCorrection (O : SetOrder) (syndrome : SyndromeToken R)
    (engine : ErrorEnforcementEngine R ω κ) :
    Attempt (ErrorEnforcementEngine R ω κ) (CausalEvent (Payload R ω κ)) :=
  let (correctedState, success) :=
    attemptCorrection O engine.physicalState engine.idealState syndrome
  let engine := if success then { engine with physicalState := correctedState } else engine
  let r := engine.timeline.record "CORRECTION"
    (.correction syndrome.detectedError syndrome.confidence success) true
  ({ engine with timeline := r.1 }, r.2)

/-! ### What an operation does -/

/-- The engine after an evolution of the state engine. -/
def advance (delta : StateDelta R ω) (engine : ErrorEnforcementEngine R ω κ) :
    ErrorEnforcementEngine R ω κ :=
  { engine with stateEngine := engine.stateEngine.commit delta, idealState := delta.nextState }

/-- The engine after a collapse. -/
def settle (collapse : IrreversibleCollapseEvent R) (engine : ErrorEnforcementEngine R ω κ) :
    ErrorEnforcementEngine R ω κ :=
  { engine with
    collapseEngine := engine.collapseEngine.commit collapse
    physicalState := collapse.result.postState
    idealState := collapse.result.postState }

/-- **Evolving.**  An evolution is refused, and nothing changes; or the state engine commits, and
then the physical state cannot be built, or it is built and the evolution is recorded. -/
theorem evolveWithNoise_cases (observation : Observation ω) (noiseFidelity : R)
    (engine : ErrorEnforcementEngine R ω κ) :
    (∃ exc, engine.evolveWithNoise observation noiseFidelity = (engine, .error exc)) ∨
    ∃ delta, engine.stateEngine.Records observation delta ∧
      ((∃ exc, engine.evolveWithNoise observation noiseFidelity
          = (engine.advance delta, .error exc)) ∨
        ∃ physicalState event,
          StateVector.new (noisyAmplitudes delta.nextState (1 - noiseFidelity))
            = .ok physicalState ∧
          engine.evolveWithNoise observation noiseFidelity
            = ({ engine.advance delta with
                  physicalState := physicalState
                  timeline := engine.timeline.append event }, .ok (physicalState, event))) := by
  rw [evolveWithNoise]
  rcases engine.stateEngine.observe_cases observation with ⟨exc, hr, -⟩ | ⟨delta, hr, -, hrecords⟩
  · rw [hr]
    exact Or.inl ⟨exc, rfl⟩
  · simp only [hr]
    refine Or.inr ⟨delta, hrecords, ?_⟩
    have hstate : (engine.stateEngine.commit delta).currentState = delta.nextState := rfl
    cases hnoisy : StateVector.new (noisyAmplitudes delta.nextState (1 - noiseFidelity)) with
    | error exc =>
      refine Or.inl ⟨exc, ?_⟩
      simp only [hstate, hnoisy]
      rfl
    | ok physicalState =>
      obtain ⟨event, hrec, -⟩ := engine.timeline.record_of_ne "NOISY_EVOLUTION" (by decide)
        (.noisyEvolution observation noiseFidelity) false
      refine Or.inr ⟨physicalState, event, rfl, ?_⟩
      simp only [hstate, hnoisy, hrec]
      rfl

/-- **Measuring.**  A measurement is refused, and nothing changes; or the collapse engine commits,
and then the error model refuses the loss, or takes it, and the measurement is recorded. -/
theorem measureWithDisturbance_cases (token : CollapseToken) (seed : ℤ)
    (engine : ErrorEnforcementEngine R ω κ) :
    (∃ exc, engine.measureWithDisturbance token seed = (engine, .error exc) ∧
      engine.collapseEngine.collapseResult engine.physicalState token seed = none) ∨
    ∃ collapse, engine.collapseEngine.collapseResult engine.physicalState token seed
        = some collapse.result ∧
      engine.collapseEngine.Records engine.physicalState token seed collapse ∧
      ((collapse.result.informationLossDeclared < 0 ∧
        ∃ exc, engine.measureWithDisturbance token seed = (engine.settle collapse, .error exc)) ∨
        ∃ errorModel event, engine.measureWithDisturbance token seed
          = ({ engine.settle collapse with
                errorModel := errorModel
                timeline := engine.timeline.append event }, .ok (collapse, event))) := by
  rw [measureWithDisturbance]
  rcases engine.collapseEngine.collapse_cases engine.physicalState token seed with
    ⟨exc, hr, hnone⟩ | ⟨collapse, hr, hsome, hrecords⟩
  · rw [hr]
    exact Or.inl ⟨exc, rfl, hnone⟩
  · simp only [hr]
    refine Or.inr ⟨collapse, hsome, hrecords, ?_⟩
    rw [ErrorModel.registerMeasurementDisturbance]
    by_cases hloss : collapse.result.informationLossDeclared < 0
    · rw [if_pos hloss]
      exact Or.inl ⟨hloss, _, rfl⟩
    · obtain ⟨event, hrec, -⟩ := engine.timeline.record_of_ne "MEASUREMENT_COLLAPSE" (by decide)
        (.collapse collapse) false
      rw [if_neg hloss]
      simp only [hrec]
      exact Or.inr ⟨_, event, rfl⟩

/-- A correction leaves the physical state as it is, or makes it the ideal state. -/
lemma applySyndromeCorrection_cases (O : SetOrder) (syndrome : SyndromeToken R)
    (engine : ErrorEnforcementEngine R ω κ) :
    ∃ physicalState timeline, (engine.applySyndromeCorrection O syndrome).1
        = { engine with physicalState := physicalState, timeline := timeline } ∧
      (physicalState = engine.physicalState ∨ physicalState = engine.idealState) := by
  rw [applySyndromeCorrection]
  rcases attemptCorrection_cases O engine.physicalState engine.idealState syndrome with hr | hr
  · rw [hr]
    exact ⟨engine.physicalState, _, rfl, Or.inl rfl⟩
  · rw [hr]
    exact ⟨engine.idealState, _, rfl, Or.inr rfl⟩

end ErrorEnforcementEngine

end QuantumFoundation
