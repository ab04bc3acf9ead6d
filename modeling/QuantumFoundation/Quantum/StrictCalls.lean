import QuantumFoundation.Quantum.NoGo

/-!
# Strict calls that raise

A strict evolution that asks for noise raises after the state engine has logged the delta, and a
strict measurement that the guard refuses raises after the collapse engine has logged the collapse
and consumed the token.  Such calls aside, a call that raises changes no store, and the logs of
the inner engines correspond to the events of the timeline.
-/

namespace QuantumFoundation

variable {R ω κ : Type*} [PyFloat R]

/-- The calls of the methods of the engine, and the registration of rules and of policies with the
inner engines, which may go on during a run. -/
inductive StrictCall (R ω : Type*) [PyFloat R]
  | evolveStrictly (ref : StateReference) (observation : Observation ω) (noiseFidelity : R)
  | measureStrictly (ref : StateReference) (token : CollapseToken) (seed : ℤ)
  | checkIndependentCopy (refA refB : StateReference)
  | registerRule (observationType : String) (rule : TransitionRule R ω) (description : String)
  | registerPolicy (policy : MeasurementPolicy R)

namespace NoGoEnforcementEngine

/-- A call: what it leaves behind, and whether it returns or raises. -/
def call (engine : NoGoEnforcementEngine R ω κ) :
    StrictCall R ω → Attempt (NoGoEnforcementEngine R ω κ) Unit
  | .evolveStrictly ref observation noiseFidelity =>
    let r := engine.evolveStrictly ref observation noiseFidelity
    (r.1, r.2.map fun _ => ())
  | .measureStrictly ref token seed =>
    let r := engine.measureStrictly ref token seed
    (r.1, r.2.map fun _ => ())
  | .checkIndependentCopy refA refB => (engine, checkIndependentCopy refA refB)
  | .registerRule observationType rule description =>
    let r := engine.stateEngine.registerRule observationType rule description
    ({ engine with stateEngine := r.1 }, r.2)
  | .registerPolicy policy =>
    let r := engine.collapseEngine.registerPolicy policy
    ({ engine with collapseEngine := r.1 }, r.2)

/-- What a call leaves behind. -/
def perform (engine : NoGoEnforcementEngine R ω κ) (c : StrictCall R ω) :
    NoGoEnforcementEngine R ω κ := (engine.call c).1

/-- The stores hold the same. -/
structure SameStores (engine engine' : NoGoEnforcementEngine R ω κ) : Prop where
  state : engine'.stateEngine.state = engine.stateEngine.state
  deltaLog : engine'.stateEngine.deltaLog = engine.stateEngine.deltaLog
  collapseLog : engine'.collapseEngine.collapseLog = engine.collapseEngine.collapseLog
  consumedTokens : engine'.collapseEngine.consumedTokens = engine.collapseEngine.consumedTokens
  errorModel : engine'.errorModel = engine.errorModel
  timeline : engine'.timeline = engine.timeline

/-- If the call raises, it leaves the stores as they were. -/
def Atomic (engine : NoGoEnforcementEngine R ω κ) (c : StrictCall R ω) : Prop :=
  ∀ exc, (engine.call c).2 = .error exc → SameStores engine (engine.perform c)

/-- An evolution is refused before the state engine commits, or asks for no noise; a measurement is
refused before the collapse engine commits, or its result disturbs the state. -/
def AtomicWhen (engine : NoGoEnforcementEngine R ω κ) : StrictCall R ω → Prop
  | .evolveStrictly ref observation noiseFidelity =>
    engine.evolution ref observation = none ∨ ¬noiseFidelity < 1
  | .measureStrictly ref token seed =>
    ∀ result, engine.collapseResult ref token seed = some result → Disturbs result
  | _ => True

lemma SameStores.refl (engine : NoGoEnforcementEngine R ω κ) : SameStores engine engine :=
  ⟨rfl, rfl, rfl, rfl, rfl, rfl⟩

/-- An evolution that commits and raises leaves a delta behind. -/
lemma not_sameStores_commit {engine : NoGoEnforcementEngine R ω κ} (delta : StateDelta R ω) :
    ¬SameStores engine { engine with stateEngine := engine.stateEngine.commit delta } := by
  intro h
  have hlog : engine.stateEngine.deltaLog ++ [delta] = engine.stateEngine.deltaLog := h.deltaLog
  exact absurd (List.append_right_eq_self.mp hlog) (List.cons_ne_nil _ _)

/-- A measurement that commits and raises leaves a collapse behind. -/
lemma not_sameStores_collapse {engine : NoGoEnforcementEngine R ω κ}
    (collapse : IrreversibleCollapseEvent R) :
    ¬SameStores engine { engine with collapseEngine := engine.collapseEngine.commit collapse } := by
  intro h
  have hlog : engine.collapseEngine.collapseLog ++ [collapse]
      = engine.collapseEngine.collapseLog := h.collapseLog
  exact absurd (List.append_right_eq_self.mp hlog) (List.cons_ne_nil _ _)

/-- **One call.** -/
theorem atomic_iff_atomicWhen (engine : NoGoEnforcementEngine R ω κ) (c : StrictCall R ω) :
    engine.Atomic c ↔ engine.AtomicWhen c := by
  cases c with
  | evolveStrictly ref observation noiseFidelity =>
    simp only [Atomic, AtomicWhen, perform, call]
    rcases engine.evolveStrictly_cases ref observation noiseFidelity with
      ⟨exc, hr, hnone⟩ | ⟨delta, hsome, -, ⟨hnoise, exc, hr⟩ | ⟨hnoise, event, hr, -⟩⟩
    · rw [hr]
      exact iff_of_true (fun _ _ => SameStores.refl engine) (Or.inl hnone)
    · -- the delta is logged before the noise is applied
      rw [hr]
      refine iff_of_false (fun h => ?_) ?_
      · exact not_sameStores_commit delta (h exc rfl)
      · rintro (hnone | hle)
        · exact absurd (hsome.symm.trans hnone) (by simp)
        · exact hle hnoise
    · rw [hr]
      refine iff_of_true ?_ (Or.inr hnoise)
      intro exc habsurd
      exact absurd habsurd (by simp [Except.map])
  | measureStrictly ref token seed =>
    simp only [Atomic, AtomicWhen, perform, call]
    rcases engine.measureStrictly_cases ref token seed with
      ⟨exc, hr, hnone⟩ | ⟨collapse, hsome, -, ⟨hdisturbs, exc, hr⟩ | ⟨hdisturbs, event, hr, -⟩⟩
    · rw [hr, hnone]
      exact iff_of_true (fun _ _ => SameStores.refl engine) (by simp)
    · -- the collapse is logged before the guard looks at its result
      rw [hr]
      refine iff_of_false (fun h => ?_) fun h => hdisturbs (h _ hsome)
      exact not_sameStores_collapse collapse (h exc rfl)
    · rw [hr]
      refine iff_of_true ?_ ?_
      · intro exc habsurd
        exact absurd habsurd (by simp [Except.map])
      · intro result hresult
        rw [hsome] at hresult
        rwa [← Option.some.inj hresult]
  | checkIndependentCopy refA refB => exact iff_of_true (fun _ _ => SameStores.refl engine) trivial
  | registerRule observationType rule description =>
    refine iff_of_true ?_ trivial
    simp only [Atomic, perform, call]
    rcases engine.stateEngine.registerRule_cases observationType rule description with
      ⟨exc, hr⟩ | ⟨-, hr⟩ <;> rw [hr] <;> exact fun _ _ => ⟨rfl, rfl, rfl, rfl, rfl, rfl⟩
  | registerPolicy policy =>
    refine iff_of_true ?_ trivial
    simp only [Atomic, perform, call]
    rcases engine.collapseEngine.registerPolicy_cases policy with
      ⟨exc, hr⟩ | ⟨-, hr⟩ <;> rw [hr] <;> exact fun _ _ => ⟨rfl, rfl, rfl, rfl, rfl, rfl⟩

/-! ### The logs and the events -/

/-- The payload of a strict evolution that led to the delta. -/
def EvolutionOf (delta : StateDelta R ω) (payload : Payload R ω κ) : Prop :=
  ∃ noiseFidelity, payload = .evolution delta.observation noiseFidelity

/-- The deltas correspond to the strict evolutions of the timeline, one by one and in order, and
the collapses to the strict collapses. -/
structure Corresponds (engine : NoGoEnforcementEngine R ω κ) : Prop where
  deltas : List.Forall₂ EvolutionOf engine.stateEngine.deltaLog
    (payloadsOf "STRICT_EVOLUTION" engine.timeline.events)
  collapses : payloadsOf "STRICT_COLLAPSE" engine.timeline.events
    = engine.collapseEngine.collapseLog.map .collapse

/-- **Step lemma.**  A call that is atomic, by the condition, keeps the correspondence. -/
theorem Corresponds.perform {engine : NoGoEnforcementEngine R ω κ} (h : engine.Corresponds)
    {c : StrictCall R ω} (hc : engine.AtomicWhen c) : (engine.perform c).Corresponds := by
  cases c with
  | evolveStrictly ref observation noiseFidelity =>
    simp only [NoGoEnforcementEngine.perform, call]
    rcases engine.evolveStrictly_cases ref observation noiseFidelity with
      ⟨exc, hr, -⟩ | ⟨delta, hsome, hrecords, ⟨hnoise, exc, hr⟩ |
        ⟨-, event, hr, -, htype, hpayload, -⟩⟩
    · rw [hr]
      exact h
    · rcases hc with hnone | hle
      · exact absurd (hsome.symm.trans hnone) (by simp)
      · exact absurd hnoise hle
    · rw [hr]
      have hne : event.eventType ≠ "STRICT_COLLAPSE" := by
        rw [htype]
        decide
      refine ⟨?_, (EventLog.ofKind_append_of_ne hne).trans h.collapses⟩
      have hevolution : EvolutionOf delta event.payload :=
        ⟨noiseFidelity, by rw [hpayload, hrecords.observation_eq]⟩
      have hevents : payloadsOf "STRICT_EVOLUTION" (engine.timeline.events ++ [event])
          = payloadsOf "STRICT_EVOLUTION" engine.timeline.events ++ [event.payload] :=
        EventLog.ofKind_append_of_eq htype
      show List.Forall₂ EvolutionOf (engine.stateEngine.deltaLog ++ [delta])
        (payloadsOf "STRICT_EVOLUTION" (engine.timeline.events ++ [event]))
      rw [hevents]
      exact List.rel_append h.deltas (List.Forall₂.cons hevolution List.Forall₂.nil)
  | measureStrictly ref token seed =>
    simp only [NoGoEnforcementEngine.perform, call]
    rcases engine.measureStrictly_cases ref token seed with
      ⟨exc, hr, -⟩ | ⟨collapse, hsome, -, ⟨hdisturbs, exc, hr⟩ |
        ⟨-, event, hr, -, htype, hpayload, -⟩⟩
    · rw [hr]
      exact h
    · exact absurd (hc _ hsome) hdisturbs
    · rw [hr]
      have hne : event.eventType ≠ "STRICT_EVOLUTION" := by
        rw [htype]
        decide
      have hevents : payloadsOf "STRICT_COLLAPSE" (engine.timeline.events ++ [event])
          = payloadsOf "STRICT_COLLAPSE" engine.timeline.events ++ [event.payload] :=
        EventLog.ofKind_append_of_eq htype
      have hsame : payloadsOf "STRICT_EVOLUTION" (engine.timeline.events ++ [event])
          = payloadsOf "STRICT_EVOLUTION" engine.timeline.events :=
        EventLog.ofKind_append_of_ne hne
      refine ⟨?_, ?_⟩
      · show List.Forall₂ EvolutionOf engine.stateEngine.deltaLog
          (payloadsOf "STRICT_EVOLUTION" (engine.timeline.events ++ [event]))
        rw [hsame]
        exact h.deltas
      · show payloadsOf "STRICT_COLLAPSE" (engine.timeline.events ++ [event])
          = (engine.collapseEngine.collapseLog ++ [collapse]).map Payload.collapse
        rw [hevents, h.collapses, hpayload, List.map_append, List.map_singleton]
  | checkIndependentCopy refA refB => exact h
  | registerRule observationType rule description =>
    simp only [NoGoEnforcementEngine.perform, call]
    rcases engine.stateEngine.registerRule_cases observationType rule description with
      ⟨exc, hr⟩ | ⟨-, hr⟩ <;> rw [hr] <;> exact ⟨h.deltas, h.collapses⟩
  | registerPolicy policy =>
    simp only [NoGoEnforcementEngine.perform, call]
    rcases engine.collapseEngine.registerPolicy_cases policy with
      ⟨exc, hr⟩ | ⟨-, hr⟩ <;> rw [hr] <;> exact ⟨h.deltas, h.collapses⟩

/-- **Strict calls.**  A call that raises leaves the stores as they were exactly if it meets the
condition; and every call of a run is so, and leaves logs that correspond to the events, exactly
if the logs correspond at the start and every call of the run meets the condition. -/
theorem strict_calls_atomic_iff :
    (∀ (engine : NoGoEnforcementEngine R ω κ) (c : StrictCall R ω),
      engine.Atomic c ↔ engine.AtomicWhen c) ∧
    ∀ (engine : NoGoEnforcementEngine R ω κ) (calls : List (StrictCall R ω)),
      (engine.Corresponds ∧
          Run.Along perform (fun x c => x.Atomic c ∧ (x.perform c).Corresponds) engine calls) ↔
        engine.Corresponds ∧ Run.Along perform AtomicWhen engine calls := by
  refine ⟨atomic_iff_atomicWhen, fun engine calls => and_congr_right fun hstart => ?_⟩
  refine Run.along_congr (P := fun _ => True) (I := Corresponds) ?_
    (fun _ _ _ _ hnext => hnext.2) (fun _ _ => trivial) hstart
  intro x c _ hx
  rw [atomic_iff_atomicWhen]
  exact ⟨fun h => h.1, fun h => ⟨h, hx.perform h⟩⟩

/-! ### A call that is not atomic -/

/-- An engine in the first basis state, with a rule that leaves the state as it is. -/
def holding : NoGoEnforcementEngine ℚ Unit Unit :=
  new ((SovereignStateEngine.new ketZero).registerRule "hold" (fun state _ => .ok state) "").1
    CollapseEngine.new CausalTimeline.new ErrorModel.new "root"

/-- An evolution with noise raises, and leaves a delta without an event. -/
theorem noisy_evolution_leaves_delta :
    let c : StrictCall ℚ Unit := .evolveStrictly ⟨"root"⟩ ⟨"hold", [], by decide⟩ 0.5
    (holding.call c).2 = .error ⟨.attributeError, "'tuple' object has no attribute 'items'"⟩ ∧
      (holding.perform c).stateEngine.deltaLog.length = 1 ∧
      (holding.perform c).timeline.length = 0 ∧
      holding.stateEngine.deltaLog.length = 0 ∧
      ¬holding.Atomic c ∧ holding.Corresponds ∧ ¬(holding.perform c).Corresponds := by
  intro c
  have hraised : (holding.call c).2
      = .error ⟨.attributeError, "'tuple' object has no attribute 'items'"⟩ := by decide +kernel
  have hdeltas : (holding.perform c).stateEngine.deltaLog.length = 1 := by decide +kernel
  have hevents : (holding.perform c).timeline.length = 0 := by decide +kernel
  refine ⟨hraised, hdeltas, hevents, rfl, ?_, ⟨List.Forall₂.nil, rfl⟩, ?_⟩
  · intro h
    have hsame := congrArg List.length (h _ hraised).deltaLog
    rw [hdeltas] at hsame
    exact absurd hsame (by decide)
  · intro h
    have hlength := h.deltas.length_eq
    rw [hdeltas, List.length_eq_zero_iff.mp hevents] at hlength
    exact absurd hlength (by decide)

end NoGoEnforcementEngine

end QuantumFoundation
