import Mathlib.Data.List.Forall2
import QuantumFoundation.Quantum.ErrorLayer

/-!
# The no-go layer

The guard of `nogo_enforcement.py` around a state engine, a collapse engine, a timeline and an error
model.  Both of its operations let an inner engine commit before they are through with what can
still fail, and nothing takes the commit back: a call that raises leaves the stores as they were
exactly if it is refused before the inner engine commits.
-/

namespace QuantumFoundation

variable {R ω κ : Type*} [PyFloat R]

/-- A reference to a physical state. -/
structure StateReference where
  referenceId : String
deriving DecidableEq

/-- The engine. -/
structure NoGoEnforcementEngine (R ω κ : Type*) [PyFloat R] where
  stateEngine : SovereignStateEngine R ω
  collapseEngine : CollapseEngine R
  timeline : CausalTimeline (Payload R ω κ)
  errorModel : ErrorModel R
  activeReferences : Dict String StateReference
  rootRef : StateReference
  expectedNextEventId : ℕ

namespace NoGoEnforcementEngine

/-- The constructor, with the fresh id of the root reference. -/
def new (stateEngine : SovereignStateEngine R ω) (collapseEngine : CollapseEngine R)
    (timeline : CausalTimeline (Payload R ω κ)) (errorModel : ErrorModel R) (rootId : String) :
    NoGoEnforcementEngine R ω κ :=
  ⟨stateEngine, collapseEngine, timeline, errorModel, Dict.empty.set rootId ⟨rootId⟩, ⟨rootId⟩,
    timeline.length + 1⟩

/-- `evolve_strictly`. -/
def evolveStrictly (ref : StateReference) (observation : Observation ω) (noiseFidelity : R)
    (engine : NoGoEnforcementEngine R ω κ) :
    Attempt (NoGoEnforcementEngine R ω κ) (StateReference × CausalEvent (Payload R ω κ)) :=
  if !engine.activeReferences.contains ref.referenceId then
    (engine, .error ⟨.noDeletingViolation,
      "Attempted to evolve an untracked or deleted physical state reference."⟩)
  else if engine.timeline.length + 1 ≠ engine.expectedNextEventId then
    (engine, .error ⟨.noCloningViolation, "Timeline branching detected! The physical state history "
      ++ "has been modified outside of the strict linear progression. Cloning an unknown state "
      ++ "into a parallel universe is forbidden."⟩)
  else
    match engine.stateEngine.observe observation with
    | (stateEngine, .error exc) => ({ engine with stateEngine := stateEngine }, .error exc)
    | (stateEngine, .ok _) =>
      let engine := { engine with stateEngine := stateEngine }
      if noiseFidelity < 1 then
        -- the amplitudes of a state vector are a tuple, which has no `items`
        (engine, .error ⟨.attributeError, "'tuple' object has no attribute 'items'"⟩)
      else
        match engine.timeline.record "STRICT_EVOLUTION"
            (.evolution observation noiseFidelity) false with
        | (timeline, .error exc) => ({ engine with timeline := timeline }, .error exc)
        | (timeline, .ok event) =>
          ({ engine with
              timeline := timeline
              expectedNextEventId := timeline.length + 1 }, .ok (ref, event))

/-- `measure_strictly`. -/
def measureStrictly (ref : StateReference) (token : CollapseToken) (seed : ℤ)
    (engine : NoGoEnforcementEngine R ω κ) :
    Attempt (NoGoEnforcementEngine R ω κ)
      (StateReference × IrreversibleCollapseEvent R × CausalEvent (Payload R ω κ)) :=
  if !engine.activeReferences.contains ref.referenceId then
    (engine, .error ⟨.noDeletingViolation,
      "Attempted to measure an untracked physical state."⟩)
  else
    let currentState := engine.stateEngine.currentState
    match engine.collapseEngine.collapse currentState token seed with
    | (collapseEngine, .error exc) => ({ engine with collapseEngine := collapseEngine }, .error exc)
    | (collapseEngine, .ok collapseEvent) =>
      let engine := { engine with collapseEngine := collapseEngine }
      let confidence := collapseEvent.result.confidence
      let infoLoss := collapseEvent.result.informationLossDeclared
      if confidence > 0 ∧ infoLoss == 0 then
        (engine, .error ⟨.confidenceCollapseViolation, "Confidence acquired without registering "
          ++ "measurement disturbance. This implies a hidden variable bypass."⟩)
      else
        match engine.errorModel.registerMeasurementDisturbance infoLoss with
        | (errorModel, .error exc) => ({ engine with errorModel := errorModel }, .error exc)
        | (errorModel, .ok ()) =>
          let engine := { engine with errorModel := errorModel }
          match engine.timeline.record "STRICT_COLLAPSE" (.collapse collapseEvent) false with
          | (timeline, .error exc) => ({ engine with timeline := timeline }, .error exc)
          | (timeline, .ok causalEvent) =>
            ({ engine with
                timeline := timeline
                expectedNextEventId := timeline.length + 1 },
              .ok (ref, collapseEvent, causalEvent))

/-- `check_independent_copy`. -/
def checkIndependentCopy (refA refB : StateReference) : Except Raised Unit :=
  if refA.referenceId = refB.referenceId then
    .error ⟨.noCloningViolation, "You cannot pass the same physical state reference to two "
      ++ "independent parallel evolutions. Linear types are strictly enforced."⟩
  else .ok ()

/-! ### What an operation does -/

variable {ref : StateReference} {observation : Observation ω} {noiseFidelity : R}
  {token : CollapseToken} {seed : ℤ} {engine : NoGoEnforcementEngine R ω κ}

/-- The state an evolution leads to, if nothing refuses it before the state engine commits. -/
def evolution (ref : StateReference) (observation : Observation ω)
    (engine : NoGoEnforcementEngine R ω κ) : Option (StateVector R) :=
  if engine.activeReferences.contains ref.referenceId ∧
      engine.timeline.length + 1 = engine.expectedNextEventId then
    engine.stateEngine.evolution observation
  else none

/-- The result of a measurement, if nothing refuses it before the collapse engine commits. -/
def collapseResult (ref : StateReference) (token : CollapseToken) (seed : ℤ)
    (engine : NoGoEnforcementEngine R ω κ) : Option (MeasurementResult R) :=
  if engine.activeReferences.contains ref.referenceId then
    engine.collapseEngine.collapseResult engine.stateEngine.state token seed
  else none

/-- The guard lets the result through: it grants no confidence, or it declares a loss. -/
def Disturbs (result : MeasurementResult R) : Prop :=
  ¬(result.confidence > 0 ∧ result.informationLossDeclared == 0) ∧
    ¬result.informationLossDeclared < 0

/-- The engine with one more evolution. -/
def recordEvolution (delta : StateDelta R ω) (event : CausalEvent (Payload R ω κ))
    (engine : NoGoEnforcementEngine R ω κ) : NoGoEnforcementEngine R ω κ :=
  { engine with
    stateEngine := engine.stateEngine.commit delta
    timeline := engine.timeline.append event
    expectedNextEventId := (engine.timeline.append event).length + 1 }

/-- The engine with one more collapse. -/
def recordCollapse (collapse : IrreversibleCollapseEvent R) (event : CausalEvent (Payload R ω κ))
    (engine : NoGoEnforcementEngine R ω κ) : NoGoEnforcementEngine R ω κ :=
  { engine with
    collapseEngine := engine.collapseEngine.commit collapse
    timeline := engine.timeline.append event
    errorModel := ⟨engine.errorModel.totalInfoLoss + collapse.result.informationLossDeclared⟩
    expectedNextEventId := (engine.timeline.append event).length + 1 }

/-- **Evolving.**  An evolution is refused before the state engine commits, and nothing changes; or
it commits and then raises, if noise is asked for; or it commits and is recorded. -/
theorem evolveStrictly_cases (ref : StateReference) (observation : Observation ω)
    (noiseFidelity : R) (engine : NoGoEnforcementEngine R ω κ) :
    (∃ exc, engine.evolveStrictly ref observation noiseFidelity = (engine, .error exc) ∧
      engine.evolution ref observation = none) ∨
    ∃ delta, engine.evolution ref observation = some delta.nextState ∧
      engine.stateEngine.Records observation delta ∧
      ((noiseFidelity < 1 ∧ ∃ exc, engine.evolveStrictly ref observation noiseFidelity
          = ({ engine with stateEngine := engine.stateEngine.commit delta }, .error exc)) ∨
        ¬noiseFidelity < 1 ∧ ∃ event, engine.evolveStrictly ref observation noiseFidelity
            = (engine.recordEvolution delta event, .ok (ref, event)) ∧
          engine.timeline.IsNext event ∧ event.eventType = "STRICT_EVOLUTION" ∧
          event.payload = .evolution observation noiseFidelity ∧
          event.isCompensation = false) := by
  rw [evolveStrictly, evolution]
  by_cases href : engine.activeReferences.contains ref.referenceId = true
  · by_cases hlinear : engine.timeline.length + 1 = engine.expectedNextEventId
    · rw [if_neg (by simp [href]), if_neg (not_not.mpr hlinear), if_pos ⟨href, hlinear⟩]
      rcases engine.stateEngine.observe_cases observation with
        ⟨exc, hr, hnone⟩ | ⟨delta, hr, hsome, hrecords⟩
      · rw [hr]
        exact Or.inl ⟨exc, rfl, hnone⟩
      · simp only [hr]
        refine Or.inr ⟨delta, hsome, hrecords, ?_⟩
        by_cases hnoise : noiseFidelity < 1
        · rw [if_pos hnoise]
          exact Or.inl ⟨hnoise, _, rfl⟩
        · obtain ⟨event, hrec, hnext, htype, hpayload, hcomp⟩ := engine.timeline.record_of_ne
            "STRICT_EVOLUTION" (by decide) (.evolution observation noiseFidelity) false
          rw [if_neg hnoise, hrec]
          exact Or.inr ⟨hnoise, event, rfl, hnext, htype, hpayload, hcomp⟩
    · rw [if_neg (by simp [href]), if_pos hlinear, if_neg fun h => hlinear h.2]
      exact Or.inl ⟨_, rfl, rfl⟩
  · rw [if_pos (by rw [Bool.eq_false_iff.mpr href]; rfl), if_neg fun h => href h.1]
    exact Or.inl ⟨_, rfl, rfl⟩

/-- **Measuring.**  A measurement is refused before the collapse engine commits, and nothing
changes; or it commits and then raises, if the guard or the error model refuses the result; or it
commits and is recorded. -/
theorem measureStrictly_cases (ref : StateReference) (token : CollapseToken) (seed : ℤ)
    (engine : NoGoEnforcementEngine R ω κ) :
    (∃ exc, engine.measureStrictly ref token seed = (engine, .error exc) ∧
      engine.collapseResult ref token seed = none) ∨
    ∃ collapse, engine.collapseResult ref token seed = some collapse.result ∧
      engine.collapseEngine.Records engine.stateEngine.state token seed collapse ∧
      ((¬Disturbs collapse.result ∧ ∃ exc, engine.measureStrictly ref token seed
          = ({ engine with collapseEngine := engine.collapseEngine.commit collapse },
            .error exc)) ∨
        Disturbs collapse.result ∧ ∃ event, engine.measureStrictly ref token seed
            = (engine.recordCollapse collapse event, .ok (ref, collapse, event)) ∧
          engine.timeline.IsNext event ∧ event.eventType = "STRICT_COLLAPSE" ∧
          event.payload = .collapse collapse ∧ event.isCompensation = false) := by
  rw [measureStrictly, collapseResult]
  by_cases href : engine.activeReferences.contains ref.referenceId = true
  · rw [if_neg (by simp [href]), if_pos href]
    rcases engine.collapseEngine.collapse_cases engine.stateEngine.state token seed with
      ⟨exc, hr, hnone⟩ | ⟨collapse, hr, hsome, hrecords⟩
    · simp only [SovereignStateEngine.currentState, hr]
      exact Or.inl ⟨exc, rfl, hnone⟩
    · simp only [SovereignStateEngine.currentState, hr]
      refine Or.inr ⟨collapse, hsome, hrecords, ?_⟩
      by_cases hguard : collapse.result.confidence > 0 ∧
          (collapse.result.informationLossDeclared == 0) = true
      · rw [if_pos hguard]
        exact Or.inl ⟨fun h => h.1 hguard, _, rfl⟩
      · rw [if_neg hguard, ErrorModel.registerMeasurementDisturbance]
        by_cases hloss : collapse.result.informationLossDeclared < 0
        · rw [if_pos hloss]
          exact Or.inl ⟨fun h => h.2 hloss, _, rfl⟩
        · obtain ⟨event, hrec, hnext, htype, hpayload, hcomp⟩ := engine.timeline.record_of_ne
            "STRICT_COLLAPSE" (by decide) (.collapse collapse) false
          rw [if_neg hloss]
          simp only [hrec]
          exact Or.inr ⟨⟨hguard, hloss⟩, event, rfl, hnext, htype, hpayload, hcomp⟩
  · rw [if_pos (by rw [Bool.eq_false_iff.mpr href]; rfl), if_neg href]
    exact Or.inl ⟨_, rfl, rfl⟩

end NoGoEnforcementEngine

end QuantumFoundation
