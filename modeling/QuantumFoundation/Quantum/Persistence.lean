import QuantumFoundation.Quantum.Audit
import QuantumFoundation.Quantum.BasisStates

/-!
# The persistence of a collapse

Neither the error layer nor the harness gives the collapsed state back to the state engine, from
which the next evolution starts, and the harness measures the state of the state engine as well.
So a collapse persists in the error layer exactly if the state engine already was in the basis
state that the seed selects; and in the harness, where the guard refuses such a measurement, it
never does.
-/

namespace QuantumFoundation

section Definitions

variable {R ω κ : Type*} [PyFloat R]

/-- The label that the seed selects from the state. -/
def ProjectiveMeasurementPolicy.selectedLabel (state : StateVector R) (seed : ℤ) : Option String :=
  (seededSample (state.amplitudes.map Amplitude.probability) seed).toOption.bind fun idx =>
    state.amplitudes[idx]?.map (·.basisLabel)

lemma ProjectiveMeasurementPolicy.Projects.selectedLabel_eq {state : StateVector R} {seed : ℤ}
    {result : MeasurementResult R} (h : Projects state seed result) :
    selectedLabel state seed = some result.outcome := by
  obtain ⟨idx, a, hsample, ha, houtcome, -⟩ := h.selected
  rw [selectedLabel, hsample, houtcome]
  show (state.amplitudes[idx]?).map (·.basisLabel) = some a.basisLabel
  rw [ha]
  rfl

/-! ### The error layer -/

/-- The calls of the methods of the error layer, and the registration of rules and of policies with
the inner engines, which may go on during a run. -/
inductive ErrorCall (R ω : Type*) [PyFloat R]
  | evolveWithNoise (observation : Observation ω) (noiseFidelity : R)
  | measureWithDisturbance (token : CollapseToken) (seed : ℤ)
  | applySyndromeCorrection (syndrome : SyndromeToken R)
  | registerRule (observationType : String) (rule : TransitionRule R ω) (description : String)
  | registerPolicy (policy : MeasurementPolicy R)

namespace ErrorEnforcementEngine

/-- What a call leaves behind, whether it returns or raises. -/
def perform (O : SetOrder) (engine : ErrorEnforcementEngine R ω κ) :
    ErrorCall R ω → ErrorEnforcementEngine R ω κ
  | .evolveWithNoise observation noiseFidelity =>
    (engine.evolveWithNoise observation noiseFidelity).1
  | .measureWithDisturbance token seed => (engine.measureWithDisturbance token seed).1
  | .applySyndromeCorrection syndrome => (engine.applySyndromeCorrection O syndrome).1
  | .registerRule observationType rule description =>
    { engine with
      stateEngine := (engine.stateEngine.registerRule observationType rule description).1 }
  | .registerPolicy policy =>
    { engine with collapseEngine := (engine.collapseEngine.registerPolicy policy).1 }

/-- The policy that the token authorizes repeats the label of a basis state. -/
def Repeats (engine : ErrorEnforcementEngine R ω κ) (token : CollapseToken) : Prop :=
  ∀ policy, engine.collapseEngine.policies.get? token.authorizedPolicy = some policy →
    policy.Repeats

/-- The call does not evolve the state to another one, and does not measure with a policy that
fails to repeat. -/
def Quiet (engine : ErrorEnforcementEngine R ω κ) : ErrorCall R ω → Prop
  | .evolveWithNoise observation noiseFidelity =>
    (engine.evolveWithNoise observation noiseFidelity).1.stateEngine.state
      = engine.stateEngine.state
  | .measureWithDisturbance token _ => engine.Repeats token
  | _ => True

/-- The outcome of a measurement is in force: every measurement that returns repeats it, an
evolution that leaves the state as it is gives it probability one, and neither the next evolution
nor the next measurement starts from a superposition. -/
structure Keeps (outcome : String) (engine : ErrorEnforcementEngine R ω κ) : Prop where
  measured : ∀ token seed, engine.Repeats token → ∀ engine' collapse event,
    engine.measureWithDisturbance token seed = (engine', .ok (collapse, event)) →
      collapse.result.outcome = outcome
  identity : ∀ observation noiseFidelity engine' physicalState event,
    engine.evolveWithNoise observation noiseFidelity = (engine', .ok (physicalState, event)) →
      engine'.stateEngine.state = engine.stateEngine.state →
        (outcome, 1) ∈ engine'.stateEngine.state.distribution ∧
          (outcome, 1) ∈ physicalState.distribution
  evolvesFrom : engine.stateEngine.state.IsBasisState outcome
  measuresFrom : engine.physicalState.IsBasisState outcome

/-- If the call is a projective measurement that returns, then its outcome stays in force as long
as the calls are quiet. -/
def Persists (O : SetOrder) (engine : ErrorEnforcementEngine R ω κ) : ErrorCall R ω → Prop
  | .measureWithDisturbance token seed => engine.collapseEngine.Projective token →
    ∀ engine' collapse event,
      engine.measureWithDisturbance token seed = (engine', .ok (collapse, event)) →
        Run.Henceforth (perform O) Quiet (Keeps collapse.result.outcome) engine'
  | _ => True

/-- If the call is a projective measurement that the collapse engine does not refuse, then the
state engine is already in the basis state of the label that the seed selects. -/
def PersistsWhen (engine : ErrorEnforcementEngine R ω κ) : ErrorCall R ω → Prop
  | .measureWithDisturbance token seed => engine.collapseEngine.Projective token →
    (engine.collapseEngine.collapseResult engine.physicalState token seed).isSome →
      ∃ label, ProjectiveMeasurementPolicy.selectedLabel engine.physicalState seed = some label ∧
        engine.stateEngine.state.IsBasisState label
  | _ => True

/-- The invariant of the quiet calls: the three states are basis states of the label. -/
structure Collapsed (label : String) (engine : ErrorEnforcementEngine R ω κ) : Prop where
  state : engine.stateEngine.state.IsBasisState label
  ideal : engine.idealState.IsBasisState label
  physical : engine.physicalState.IsBasisState label

end ErrorEnforcementEngine

/-! ### The harness -/

namespace FullStackHarness

/-- The call does not evolve the state to another one. -/
def Quiet (O : SetOrder) (harness : FullStackHarness R ω κ) (c : HarnessCall R) : Prop :=
  (harness.perform O c).nogoLayer.stateEngine.state = harness.nogoLayer.stateEngine.state

/-- The outcome of a measurement is in force.  Evolutions and measurements both start from the
state of the state engine. -/
structure Keeps (outcome : String) (harness : FullStackHarness R ω κ) : Prop where
  measured : ∀ tokenId seed harness' collapse,
    harness.measureDeterministic tokenId seed = (harness', .ok collapse) →
      collapse.result.outcome = outcome
  identity : ∀ ruleName harness' ref,
    harness.evolveDeterministic ruleName = (harness', .ok ref) →
      harness'.nogoLayer.stateEngine.state = harness.nogoLayer.stateEngine.state →
        (outcome, 1) ∈ harness'.nogoLayer.stateEngine.state.distribution
  startsFrom : harness.nogoLayer.stateEngine.state.IsBasisState outcome

end FullStackHarness

end Definitions

/-! ### Exact arithmetic -/

section Exact

variable {R ω κ : Type*} [Field R] [LinearOrder R] [MathLibrary R]

namespace ErrorEnforcementEngine

variable {engine : ErrorEnforcementEngine R ω κ} {label : String}

/-- The policy of a projective measurement repeats. -/
lemma repeats_of_projective [IsStrictOrderedRing R] {token : CollapseToken}
    (h : engine.collapseEngine.Projective token) : engine.Repeats token := by
  intro policy hpolicy
  rw [CollapseEngine.Projective, hpolicy] at h
  rw [Option.some.inj h]
  exact ProjectiveMeasurementPolicy.policy_repeats

/-- **Step lemma.**  Quiet calls keep a collapse. -/
theorem Collapsed.perform [LawfulMathLibrary R] (h : engine.Collapsed label) (O : SetOrder)
    {c : ErrorCall R ω} (hc : engine.Quiet c) : (engine.perform O c).Collapsed label := by
  cases c with
  | evolveWithNoise observation noiseFidelity =>
    simp only [ErrorEnforcementEngine.perform, Quiet] at hc ⊢
    rcases engine.evolveWithNoise_cases observation noiseFidelity with
      ⟨exc, hr⟩ | ⟨delta, -, ⟨exc, hr⟩ | ⟨physicalState, event, hnoisy, hr⟩⟩
    · rw [hr]
      exact h
    · -- the physical state could not be built, and is still the old one
      rw [hr] at hc ⊢
      have hnext : delta.nextState = engine.stateEngine.state := hc
      have hstate : delta.nextState.IsBasisState label := hnext ▸ h.state
      exact ⟨hstate, hstate, h.physical⟩
    · rw [hr] at hc ⊢
      have hnext : delta.nextState = engine.stateEngine.state := hc
      have hstate : delta.nextState.IsBasisState label := hnext ▸ h.state
      exact ⟨hstate, hstate, hstate.congr (distribution_noisy hnoisy)⟩
  | measureWithDisturbance token seed =>
    simp only [ErrorEnforcementEngine.perform, Quiet] at hc ⊢
    rcases engine.measureWithDisturbance_cases token seed with
      ⟨exc, hr, -⟩ | ⟨collapse, -, hrecords, hend⟩
    · rw [hr]
      exact h
    · obtain ⟨policy, hpolicy, hmeasure⟩ := hrecords.result_eq
      have hpost := (hc policy hpolicy _ _ _ _ h.physical hmeasure).2
      rcases hend with ⟨-, exc, hr⟩ | ⟨errorModel, event, hr⟩ <;>
        rw [hr] <;> exact ⟨h.state, hpost, hpost⟩
  | applySyndromeCorrection syndrome =>
    simp only [ErrorEnforcementEngine.perform]
    obtain ⟨physicalState, timeline, hr, heq | heq⟩ :=
      engine.applySyndromeCorrection_cases O syndrome
    · rw [hr]
      exact ⟨h.state, h.ideal, heq ▸ h.physical⟩
    · rw [hr]
      exact ⟨h.state, h.ideal, heq ▸ h.ideal⟩
  | registerRule observationType rule description =>
    simp only [ErrorEnforcementEngine.perform]
    rcases engine.stateEngine.registerRule_cases observationType rule description with
      ⟨exc, hr⟩ | ⟨-, hr⟩ <;> rw [hr] <;> exact ⟨h.state, h.ideal, h.physical⟩
  | registerPolicy policy => exact ⟨h.state, h.ideal, h.physical⟩

/-- A collapse is in force. -/
lemma Collapsed.keeps [LawfulMathLibrary R] (h : engine.Collapsed label) :
    engine.Keeps label := by
  refine ⟨?measured, ?identity, h.state, h.physical⟩
  case measured =>
    intro token seed htoken engine' collapse event hreturned
    rcases engine.measureWithDisturbance_cases token seed with
      ⟨exc, hr, -⟩ | ⟨collapse', -, hrecords, ⟨-, exc, hr⟩ | ⟨errorModel, event', hr⟩⟩
    · exact absurd (hr.symm.trans hreturned) (by simp)
    · exact absurd (hr.symm.trans hreturned) (by simp)
    · obtain ⟨policy, hpolicy, hmeasure⟩ := hrecords.result_eq
      have hsame : collapse' = collapse := by
        have hpair := Except.ok.inj (congrArg Prod.snd (hr.symm.trans hreturned))
        exact congrArg Prod.fst hpair
      rw [← hsame]
      exact (htoken policy hpolicy _ _ _ _ h.physical hmeasure).1
  case identity =>
    intro observation noiseFidelity engine' physicalState event hreturned hstate
    rcases engine.evolveWithNoise_cases observation noiseFidelity with
      ⟨exc, hr⟩ | ⟨delta, -, ⟨exc, hr⟩ | ⟨physicalState', event', hnoisy, hr⟩⟩
    · exact absurd (hr.symm.trans hreturned) (by simp)
    · exact absurd (hr.symm.trans hreturned) (by simp)
    · have hpair := Except.ok.inj (congrArg Prod.snd (hr.symm.trans hreturned))
      have hphysical : physicalState' = physicalState := congrArg Prod.fst hpair
      have hnext : delta.nextState = engine.stateEngine.state :=
        (congrArg (fun r => r.1.stateEngine.state) (hr.symm.trans hreturned)).trans hstate
      rw [hstate, ← hphysical, distribution_noisy hnoisy, hnext]
      exact ⟨h.state.mem, h.state.mem⟩

/-- **One call.** -/
theorem persists_iff [IsStrictOrderedRing R] [LawfulMathLibrary R] (O : SetOrder)
    (engine : ErrorEnforcementEngine R ω κ) (c : ErrorCall R ω) :
    engine.Persists O c ↔ engine.PersistsWhen c := by
  cases c with
  | measureWithDisturbance token seed =>
    refine forall_congr' fun htoken => ?_
    rcases engine.measureWithDisturbance_cases token seed with
      ⟨exc, hr, hnone⟩ | ⟨collapse, hsome, hrecords, hend⟩
    · -- refused, so there is nothing to persist
      rw [hr, hnone]
      refine iff_of_true ?_ (by simp)
      intro engine' collapse event habsurd
      exact absurd habsurd (by simp)
    · have hprojects :=
        ProjectiveMeasurementPolicy.projects_of_measure (hrecords.measured htoken)
      rcases hend with ⟨hloss, -⟩ | ⟨errorModel, event, hr⟩
      · -- a projective measurement declares no negative loss
        rw [hprojects.informationLossDeclared_eq] at hloss
        exact absurd hloss (not_lt.mpr (pyMax_zero_nonneg _))
      · rw [hr, hsome, hprojects.selectedLabel_eq]
        constructor
        · intro h _
          exact ⟨_, rfl, (h _ _ _ rfl).now.evolvesFrom⟩
        · intro h engine' collapse' event' hreturned
          obtain ⟨label, hlabel, hstate⟩ := h rfl
          obtain rfl : engine' = _ := (congrArg Prod.fst hreturned).symm
          obtain rfl : collapse' = collapse :=
            (congrArg Prod.fst (Except.ok.inj (congrArg Prod.snd hreturned))).symm
          rw [← Option.some.inj hlabel] at hstate
          have hpost := hprojects.isBasisState
          refine Run.henceforth_of_invariant (I := Collapsed collapse'.result.outcome)
            (fun _ _ hx hquiet => hx.perform O hquiet) (fun _ hx => hx.keeps) ?_
          exact ⟨hstate, hpost, hpost⟩
  | evolveWithNoise observation noiseFidelity => exact Iff.rfl
  | applySyndromeCorrection syndrome => exact Iff.rfl
  | registerRule observationType rule description => exact Iff.rfl
  | registerPolicy policy => exact Iff.rfl

end ErrorEnforcementEngine

namespace FullStackHarness

/-- A measurement that returns is a projective measurement of the state of the state engine, which
it leaves as it is, and the guard has let its result through. -/
lemma projects_of_measureDeterministic {initialState : StateVector R}
    {harness harness' : FullStackHarness R ω κ} (h : harness.nogoLayer.Sound initialState)
    {tokenId : String} {seed : ℤ} {collapse : IrreversibleCollapseEvent R}
    (hreturned : harness.measureDeterministic tokenId seed = (harness', .ok collapse)) :
    ProjectiveMeasurementPolicy.Projects harness.nogoLayer.stateEngine.state seed collapse.result ∧
      NoGoEnforcementEngine.Disturbs collapse.result ∧
      harness'.nogoLayer.stateEngine = harness.nogoLayer.stateEngine := by
  rw [measureDeterministic] at hreturned
  cases htoken : harness.system.issueCollapseToken "ProjectiveMeasurement" tokenId with
  | error exc =>
    rw [htoken] at hreturned
    exact absurd hreturned (by simp)
  | ok token =>
    have hprojective := h.collapses.projective htoken
    simp only [htoken] at hreturned
    rcases harness.nogoLayer.measureStrictly_cases harness.stateReference token seed with
      ⟨exc, hr, -⟩ | ⟨collapse', -, hrecords, ⟨-, exc, hr⟩ | ⟨hdisturbs, event, hr, -⟩⟩
    · rw [hr] at hreturned
      exact absurd hreturned (by simp)
    · rw [hr] at hreturned
      exact absurd hreturned (by simp)
    · rw [hr] at hreturned
      obtain rfl : collapse' = collapse := Except.ok.inj (congrArg Prod.snd hreturned)
      refine ⟨?_, hdisturbs, ?_⟩
      · exact ProjectiveMeasurementPolicy.projects_of_measure (hrecords.measured hprojective)
      · exact (congrArg (fun r => r.1.nogoLayer.stateEngine) hreturned).symm

/-- A measurement that returns leaves the state engine in a superposition: had it been in a basis
state, the guard would have refused. -/
lemma not_keeps [IsStrictOrderedRing R] [LawfulMathLibrary R] {initialState : StateVector R}
    {harness harness' : FullStackHarness R ω κ} (h : harness.nogoLayer.Sound initialState)
    {tokenId : String} {seed : ℤ} {collapse : IrreversibleCollapseEvent R}
    (hreturned : harness.measureDeterministic tokenId seed = (harness', .ok collapse)) :
    ¬harness'.Keeps collapse.result.outcome := by
  obtain ⟨hprojects, hdisturbs, hengine⟩ := projects_of_measureDeterministic h hreturned
  intro hkeeps
  exact hprojects.not_disturbs (hengine ▸ hkeeps.startsFrom) hdisturbs

end FullStackHarness

/-- **Persistence.**  In exact arithmetic, over every run of the error layer, the outcome of every
projective measurement that returns stays in force, until the state evolves to another one, exactly
if each such measurement is made while the state engine already is in the basis state that the seed
selects.  That the outcome is in force is said of all policies that repeat, of which the projective
one is one.  In whatever state of the harness a measurement returns, its outcome does not stay in
force. -/
theorem collapse_persists_iff [IsStrictOrderedRing R] [LawfulMathLibrary R] (O : SetOrder) :
    (∀ (engine : ErrorEnforcementEngine R ω κ) (token : CollapseToken),
      engine.collapseEngine.Projective token → engine.Repeats token) ∧
    (∀ (engine : ErrorEnforcementEngine R ω κ) (calls : List (ErrorCall R ω)),
      Run.Along (ErrorEnforcementEngine.perform O) (ErrorEnforcementEngine.Persists O) engine
          calls ↔
        Run.Along (ErrorEnforcementEngine.perform O) ErrorEnforcementEngine.PersistsWhen engine
          calls) ∧
    ∀ (initialAmplitudes : Dict String (PyComplex R)) (rootId : String)
      (harness : FullStackHarness R ω κ),
      FullStackHarness.new O initialAmplitudes rootId = .ok harness →
      ∀ (calls : List (HarnessCall R)) (tokenId : String) (seed : ℤ)
        (harness' : FullStackHarness R ω κ) (collapse : IrreversibleCollapseEvent R),
        (Run.exec (FullStackHarness.perform O) harness calls).measureDeterministic tokenId seed
          = (harness', .ok collapse) →
        ¬Run.Henceforth (FullStackHarness.perform O) (FullStackHarness.Quiet O)
          (FullStackHarness.Keeps collapse.result.outcome) harness' := by
  refine ⟨fun _ _ h => ErrorEnforcementEngine.repeats_of_projective h, ?_, ?_⟩
  · intro engine calls
    exact Run.along_congr (P := fun _ => True) (I := fun _ => True)
      (fun x c _ _ => x.persists_iff O c) (fun _ _ _ _ _ => trivial) (fun _ _ => trivial) trivial
  · intro initialAmplitudes rootId harness hnew calls tokenId seed harness' collapse hreturned
      hpersists
    exact FullStackHarness.not_keeps (FullStackHarness.sound_exec hnew calls) hreturned
      hpersists.now

end Exact

/-! ### A basis state and a superposition -/

/-- An error layer in a state, with a rule that leaves the state as it is, and the projective
policy. -/
def holdingLayer (state : StateVector ℚ) : ErrorEnforcementEngine ℚ Unit Unit :=
  .new state ((SovereignStateEngine.new state).registerRule "hold" (fun s _ => .ok s) "").1
    (CollapseEngine.new.registerPolicy ProjectiveMeasurementPolicy.policy).1 CausalTimeline.new

/-- A token for a projective measurement. -/
def projectiveToken (tokenId : String) (h : tokenId ≠ "") : CollapseToken :=
  ⟨tokenId, "ProjectiveMeasurement", h, by decide⟩

/-- Measured twice, the superposition of the harness gives one label and then the other. -/
lemma measured_twice : ∃ (harness harness' harness'' : FullStackHarness ℚ Unit Unit)
    (collapse collapse' : IrreversibleCollapseEvent ℚ),
    FullStackHarness.new .lastInsertion superposed "root" = .ok harness ∧
      harness.measureDeterministic "m1" 0 = (harness', .ok collapse) ∧
      harness'.measureDeterministic "m2" 8 = (harness'', .ok collapse') ∧
      collapse.result.outcome = "0" ∧ collapse'.result.outcome = "1" := by
  obtain ⟨harness, hnew⟩ := exists_superposed
  have houtcomes : (FullStackHarness.new .lastInsertion superposed "root"
      : Except Raised (FullStackHarness ℚ Unit Unit)).toOption.map (fun harness =>
        let measured := harness.measureDeterministic "m1" 0
        let again := measured.1.measureDeterministic "m2" 8
        (measured.2.toOption.map (·.result.outcome), again.2.toOption.map (·.result.outcome)))
      = some (some "0", some "1") := by decide +kernel
  rw [hnew] at houtcomes
  obtain ⟨hmeasured, hagain⟩ := Prod.mk.inj (Option.some.inj houtcomes)
  obtain ⟨harness', collapse, hreturned, houtcome⟩ := exists_of_map_eq_some hmeasured
  rw [hreturned] at hagain
  obtain ⟨harness'', collapse', hreturned', houtcome'⟩ := exists_of_map_eq_some hagain
  exact ⟨harness, harness', harness'', collapse, collapse', hnew, hreturned, hreturned', houtcome,
    houtcome'⟩

/-- In a basis state the condition holds, and the outcome of a measurement, with whatever seed,
stays in force; in a superposition of the harness it does not. -/
theorem collapse_of_basis_state_persists :
    (∀ seed, (holdingLayer ketZero).Persists .lastInsertion
      (.measureWithDisturbance (projectiveToken "m1" (by decide)) seed)) ∧
    ∃ (harness harness' : FullStackHarness ℚ Unit Unit) (collapse : IrreversibleCollapseEvent ℚ),
      FullStackHarness.new .lastInsertion superposed "root" = .ok harness ∧
      harness.measureDeterministic "m1" 0 = (harness', .ok collapse) ∧
      ¬Run.Henceforth (FullStackHarness.perform .lastInsertion)
        (FullStackHarness.Quiet .lastInsertion) (FullStackHarness.Keeps collapse.result.outcome)
          harness' := by
  constructor
  · intro seed
    have hstate : ketZero.IsBasisState "0" := ⟨by decide +kernel, by decide +kernel⟩
    have hwhen : Run.Along (ErrorEnforcementEngine.perform .lastInsertion)
        ErrorEnforcementEngine.PersistsWhen (holdingLayer ketZero)
        [.measureWithDisturbance (projectiveToken "m1" (by decide)) seed] := by
      refine ⟨?_, trivial⟩
      intro htoken hsome
      obtain ⟨result, hresult⟩ := Option.isSome_iff_exists.mp hsome
      rcases (holdingLayer ketZero).measureWithDisturbance_cases
          (projectiveToken "m1" (by decide)) seed with ⟨exc, -, hnone⟩ | ⟨collapse, -, hrecords, -⟩
      · exact absurd (hresult.symm.trans hnone) (by simp)
      · have hprojects :=
          ProjectiveMeasurementPolicy.projects_of_measure (hrecords.measured htoken)
        have houtcome := (hprojects.eq_of_isBasisState hstate).1
        exact ⟨"0", hprojects.selectedLabel_eq.trans (congrArg some houtcome), hstate⟩
    exact (((collapse_persists_iff .lastInsertion).2.1 (holdingLayer ketZero) _).mpr hwhen).1
  · obtain ⟨harness, harness', -, collapse, -, hnew, hreturned, -⟩ := measured_twice
    exact ⟨harness, harness', collapse, hnew, hreturned,
      (collapse_persists_iff .lastInsertion).2.2 superposed "root" harness hnew [] "m1" 0 harness'
        collapse hreturned⟩

/-- In the error layer an evolution that leaves the state as it is brings the superposition back,
and in the harness the next measurement finds it again, and gives another outcome. -/
theorem superposition_restored :
    (let layer := holdingLayer ketPlus
    let measured := layer.measureWithDisturbance (projectiveToken "m1" (by decide)) 0
    let held := measured.1.evolveWithNoise ⟨"hold", [], by decide⟩ 1
    measured.2.toOption.map (·.1.result.outcome) = some "0" ∧
      held.2.toOption.map (·.1.distribution) = some [("0", 0.5), ("1", 0.5)] ∧
      ¬layer.Persists .lastInsertion
        (.measureWithDisturbance (projectiveToken "m1" (by decide)) 0)) ∧
    ∃ (harness harness' harness'' : FullStackHarness ℚ Unit Unit)
      (collapse collapse' : IrreversibleCollapseEvent ℚ),
      FullStackHarness.new .lastInsertion superposed "root" = .ok harness ∧
      harness.measureDeterministic "m1" 0 = (harness', .ok collapse) ∧
      harness'.measureDeterministic "m2" 8 = (harness'', .ok collapse') ∧
      collapse.result.outcome = "0" ∧ collapse'.result.outcome = "1" ∧
      ¬Run.Henceforth (FullStackHarness.perform .lastInsertion)
        (FullStackHarness.Quiet .lastInsertion) (FullStackHarness.Keeps collapse.result.outcome)
          harness' := by
  constructor
  · intro layer measured held
    have hmeasured : measured.2.toOption.map (·.1.result.outcome) = some "0" := by decide +kernel
    refine ⟨hmeasured, by decide +kernel, ?_⟩
    intro hpersists
    obtain ⟨layer', ⟨collapse, event⟩, hreturned, houtcome⟩ := exists_of_map_eq_some hmeasured
    have hprojective : layer.collapseEngine.Projective (projectiveToken "m1" (by decide)) := rfl
    have hkeeps := (hpersists hprojective layer' collapse event hreturned).now
    have hlayer : measured.1 = layer' := congrArg Prod.fst hreturned
    have hdistribution : measured.1.stateEngine.state.distribution = [("0", 0.5), ("1", 0.5)] := by
      decide +kernel
    have hmem := hkeeps.evolvesFrom.mem
    rw [← hlayer, hdistribution, houtcome] at hmem
    exact absurd hmem (by decide +kernel)
  · obtain ⟨harness, harness', harness'', collapse, collapse', hnew, hreturned, hreturned',
      houtcome, houtcome'⟩ := measured_twice
    refine ⟨harness, harness', harness'', collapse, collapse', hnew, hreturned, hreturned',
      houtcome, houtcome', ?_⟩
    intro hpersists
    -- nothing has been called in between
    have hrepeats := hpersists.now.measured "m2" 8 harness'' collapse' hreturned'
    rw [houtcome, houtcome'] at hrepeats
    exact absurd hrepeats (by decide)

end QuantumFoundation
