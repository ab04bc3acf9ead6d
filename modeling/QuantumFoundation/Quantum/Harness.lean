import QuantumFoundation.Quantum.Hilbert
import QuantumFoundation.Quantum.NoGo

/-!
# The full stack harness

The harness of `full_stack_integration_harness.py`: one state engine, one collapse engine, one
timeline and one error model, which the foundation system, the error layer and the no-go layer
share.  The model keeps the shared objects once, in the no-go layer, and reads the other layers off
them.
-/

namespace QuantumFoundation

variable {R ω κ : Type*} [PyFloat R]

/-- The harness. -/
structure FullStackHarness (R ω κ : Type*) [PyFloat R] where
  c1State : StateVector R
  systemName : String
  nogoLayer : NoGoEnforcementEngine R ω κ
  idealState : StateVector R
  physicalState : StateVector R
  stateReference : StateReference

namespace FullStackHarness

/-- The foundation system of the harness. -/
def system (harness : FullStackHarness R ω κ) : QuantumFoundationSystem R ω κ :=
  ⟨harness.systemName, harness.nogoLayer.stateEngine, harness.nogoLayer.collapseEngine,
    harness.nogoLayer.timeline⟩

/-- The error layer of the harness. -/
def errorLayer (harness : FullStackHarness R ω κ) : ErrorEnforcementEngine R ω κ :=
  ⟨harness.nogoLayer.stateEngine, harness.nogoLayer.collapseEngine, harness.nogoLayer.timeline,
    harness.nogoLayer.errorModel, harness.idealState, harness.physicalState⟩

/-- The harness with another foundation system. -/
def withSystem (harness : FullStackHarness R ω κ) (system : QuantumFoundationSystem R ω κ) :
    FullStackHarness R ω κ :=
  { harness with
    systemName := system.name
    nogoLayer := { harness.nogoLayer with
      stateEngine := system.stateEngine
      collapseEngine := system.collapseEngine
      timeline := system.timeline } }

/-- The constructor, with the fresh id of the root reference.  The collapse engine is new, so
registering the policy does not raise. -/
def new (O : SetOrder) (initialAmplitudes : Dict String (PyComplex R)) (rootId : String) :
    Except Raised (FullStackHarness R ω κ) :=
  match QuantumState.fromDict O initialAmplitudes with
  | .error exc => .error exc
  | .ok qState =>
    match StateVector.new (initialAmplitudes.ofKeys qState.vector.get) with
    | .error exc => .error exc
    | .ok c1State =>
      let system :=
        (QuantumFoundationSystem.new c1State "FullStackDeterministicHarness"
          ).registerMeasurementPolicy ProjectiveMeasurementPolicy.policy
      let errorLayer := ErrorEnforcementEngine.new c1State system.1.stateEngine
        system.1.collapseEngine system.1.timeline
      let nogoLayer := NoGoEnforcementEngine.new system.1.stateEngine system.1.collapseEngine
        system.1.timeline errorLayer.errorModel rootId
      .ok ⟨c1State, system.1.name, nogoLayer, errorLayer.idealState, errorLayer.physicalState,
        nogoLayer.rootRef⟩

/-- **A new harness.**  Its state is the one of the amplitudes, and its engines are new. -/
theorem new_ok {O : SetOrder} {initialAmplitudes : Dict String (PyComplex R)} {rootId : String}
    {harness : FullStackHarness R ω κ} (hnew : new O initialAmplitudes rootId = .ok harness) :
    (∃ qState, QuantumState.fromDict O initialAmplitudes = .ok qState ∧
      StateVector.new (initialAmplitudes.ofKeys qState.vector.get) = .ok harness.c1State) ∧
    let system := (QuantumFoundationSystem.new harness.c1State "FullStackDeterministicHarness"
      ).registerMeasurementPolicy ProjectiveMeasurementPolicy.policy
    harness.nogoLayer = NoGoEnforcementEngine.new system.1.stateEngine system.1.collapseEngine
        system.1.timeline (ErrorEnforcementEngine.new harness.c1State system.1.stateEngine
          system.1.collapseEngine system.1.timeline).errorModel rootId ∧
      harness.stateReference = ⟨rootId⟩ := by
  cases hq : QuantumState.fromDict O initialAmplitudes with
  | error exc => simp [new, hq] at hnew
  | ok qState =>
    cases hstate : StateVector.new (initialAmplitudes.ofKeys qState.vector.get) with
    | error exc => simp [new, hq, hstate] at hnew
    | ok c1State =>
      simp only [new, hq, hstate] at hnew
      rw [← Except.ok.inj hnew]
      exact ⟨⟨qState, rfl, hstate⟩, rfl, rfl⟩

/-- The rule that `define_unitary_operation` registers. -/
def verifiedRule (O : SetOrder) (matrix : Dict (String × String) (PyComplex R)) :
    TransitionRule R ω := fun state _ =>
  match QuantumState.fromDict O state.asDict with
  | .error exc => .error exc
  | .ok q =>
    match UnitaryOperator.new O matrix with
    | .error exc => .error exc
    | .ok u =>
      match u.evolve q with
      | .error exc => .error exc
      | .ok newQ => StateVector.new (state.asDict.ofKeys newQ.vector.get)

/-- `define_unitary_operation`. -/
def defineUnitaryOperation (O : SetOrder) (ruleName : String)
    (matrix : Dict (String × String) (PyComplex R)) (description : String)
    (harness : FullStackHarness R ω κ) : Attempt (FullStackHarness R ω κ) Unit :=
  match UnitaryOperator.new O matrix with
  | .error exc => (harness, .error exc)
  | .ok _ =>
    let r := harness.system.registerTransitionRule ruleName (verifiedRule O matrix) description
    (harness.withSystem r.1, r.2)

/-- `evolve_deterministic`. -/
def evolveDeterministic (ruleName : String) (harness : FullStackHarness R ω κ) :
    Attempt (FullStackHarness R ω κ) StateReference :=
  match Observation.new ruleName [] with
  | .error exc => (harness, .error exc)
  | .ok obs =>
    match harness.nogoLayer.evolveStrictly harness.stateReference obs 1 with
    | (nogoLayer, .error exc) => ({ harness with nogoLayer := nogoLayer }, .error exc)
    | (nogoLayer, .ok (ref, _)) =>
      ({ harness with
          nogoLayer := nogoLayer
          stateReference := ref
          idealState := nogoLayer.stateEngine.currentState }, .ok ref)

/-- `measure_deterministic`. -/
def measureDeterministic (tokenId : String) (seed : ℤ) (harness : FullStackHarness R ω κ) :
    Attempt (FullStackHarness R ω κ) (IrreversibleCollapseEvent R) :=
  match harness.system.issueCollapseToken "ProjectiveMeasurement" tokenId with
  | .error exc => (harness, .error exc)
  | .ok token =>
    match harness.nogoLayer.measureStrictly harness.stateReference token seed with
    | (nogoLayer, .error exc) => ({ harness with nogoLayer := nogoLayer }, .error exc)
    | (nogoLayer, .ok (ref, collapseEvent, _)) =>
      ({ harness with
          nogoLayer := nogoLayer
          stateReference := ref
          idealState := collapseEvent.result.postState
          physicalState := collapseEvent.result.postState }, .ok collapseEvent)

/-- `seal_timeline`. -/
def sealTimeline (reason : String) (harness : FullStackHarness R ω κ) :
    Attempt (FullStackHarness R ω κ) Unit :=
  let r := harness.system.sealTimeline reason
  (harness.withSystem r.1, r.2)

end FullStackHarness

/-- Two basis states, each with probability one half. -/
def superposed : Dict String (PyComplex ℚ) := .ofList [("0", ⟨0.5, 0.5⟩), ("1", ⟨0.5, 0.5⟩)]

lemma exists_superposed : ∃ harness : FullStackHarness ℚ Unit Unit,
    FullStackHarness.new .lastInsertion superposed "root" = .ok harness :=
  exists_of_isSome (by decide +kernel)

/-! ### Runs -/

/-- The calls of the methods of the harness. -/
inductive HarnessCall (R : Type*)
  | defineUnitaryOperation (ruleName : String) (matrix : Dict (String × String) (PyComplex R))
    (description : String)
  | evolveDeterministic (ruleName : String)
  | measureDeterministic (tokenId : String) (seed : ℤ)
  | sealTimeline (reason : String)

namespace FullStackHarness

/-- What a call leaves behind, whether it returns or raises. -/
def perform (O : SetOrder) (harness : FullStackHarness R ω κ) :
    HarnessCall R → FullStackHarness R ω κ
  | .defineUnitaryOperation ruleName matrix description =>
    (harness.defineUnitaryOperation O ruleName matrix description).1
  | .evolveDeterministic ruleName => (harness.evolveDeterministic ruleName).1
  | .measureDeterministic tokenId seed => (harness.measureDeterministic tokenId seed).1
  | .sealTimeline reason => (harness.sealTimeline reason).1

end FullStackHarness

end QuantumFoundation
