import QuantumFoundation.Quantum.Harness
import QuantumFoundation.Quantum.StateHistory

/-!
# What the calls of a harness do to its state

A harness that only its own methods have changed is always ready: an evolution returns exactly if
its rule makes a state of the current one, and nothing but an evolution that returns changes the
current state.
-/

namespace QuantumFoundation

variable {R ω κ : Type*} [PyFloat R]

/-- The rules that are registered with the engine, by the types of their observations. -/
def SovereignStateEngine.Follows (ruleOf : String → Option (TransitionRule R ω))
    (engine : SovereignStateEngine R ω) : Prop :=
  ∀ k, (engine.rules.get? k).map (·.rule) = ruleOf k

/-- What an evolution by a rule makes of a state, if the rule is not refused. -/
def evolvedBy (ruleOf : String → Option (TransitionRule R ω)) (ruleName : String)
    (s : StateVector R) : Option (StateVector R) :=
  if h : ruleName = "" then none
  else (ruleOf ruleName).bind fun rule =>
    (rule s ⟨ruleName, [], h⟩).toOption.filter fun t => t.dimension = s.dimension

namespace FullStackHarness

/-- The invariant of a harness that only its own methods have changed. -/
structure Ready (initialState : StateVector R) (harness : FullStackHarness R ω κ) : Prop where
  states : harness.nogoLayer.stateEngine.History initialState
  tracked : harness.nogoLayer.activeReferences.contains harness.stateReference.referenceId = true
  linear : harness.nogoLayer.timeline.length + 1 = harness.nogoLayer.expectedNextEventId
  started : harness.nogoLayer.timeline.events ≠ []

/-- The state that an evolution by the rule leads to, if its rule makes one. -/
def evolved (ruleName : String) (harness : FullStackHarness R ω κ) : Option (StateVector R) :=
  if h : ruleName = "" then none
  else harness.nogoLayer.stateEngine.ruleResult ⟨ruleName, [], h⟩

variable {initialState : StateVector R} {harness : FullStackHarness R ω κ}

/-- **Evolving.**  An evolution is refused, and nothing changes; or it leads to the state that
the rule makes, and is the last event of the timeline. -/
theorem evolveDeterministic_cases (hone : ¬(1 : R) < 1) (h : harness.Ready initialState)
    (ruleName : String) :
    (∃ exc, harness.evolveDeterministic ruleName = (harness, .error exc) ∧
      harness.evolved ruleName = none) ∨
    ∃ harness' ref event observation, harness.evolveDeterministic ruleName = (harness', .ok ref) ∧
      harness.evolved ruleName = some harness'.nogoLayer.stateEngine.state ∧
      harness'.nogoLayer.stateEngine.rules = harness.nogoLayer.stateEngine.rules ∧
      harness'.Ready initialState ∧
      harness'.nogoLayer.timeline.events.getLast? = some event ∧
      event.payload = .evolution observation 1 ∧ observation.observationType = ruleName := by
  rw [evolveDeterministic, Observation.new, evolved]
  by_cases hname : ruleName = ""
  · rw [dif_pos hname, dif_pos hname]
    exact Or.inl ⟨_, rfl, rfl⟩
  · rw [dif_neg hname, dif_neg hname]
    rcases harness.nogoLayer.evolveStrictly_cases harness.stateReference ⟨ruleName, [], hname⟩ 1
      with ⟨exc, hr, hnone⟩ | ⟨delta, -, hrecords, ⟨hnoise, -⟩ | ⟨-, event, hr, -, -, hpayload, -⟩⟩
    · refine Or.inl ⟨exc, by simp only [hr], ?_⟩
      -- neither the reference nor the timeline nor the log can be what refuses
      rwa [NoGoEnforcementEngine.evolution, if_pos ⟨h.tracked, h.linear⟩,
        SovereignStateEngine.evolution, if_pos h.states.accepts] at hnone
    · exact absurd hnoise hone
    · simp only [hr]
      refine Or.inr ⟨_, _, event, ⟨ruleName, [], hname⟩, rfl, hrecords.nextState_eq, rfl,
        ⟨h.states.commit hrecords, h.tracked, rfl, ?_⟩, List.getLast?_concat, hpayload, rfl⟩
      exact List.append_ne_nil_of_right_ne_nil _ (List.cons_ne_nil _ _)

/-- **Measuring.**  A measurement leaves the current state and the rules as they are. -/
theorem measureDeterministic_keeps (h : harness.Ready initialState) (tokenId : String)
    (seed : ℤ) :
    (harness.measureDeterministic tokenId seed).1.nogoLayer.stateEngine
        = harness.nogoLayer.stateEngine ∧
      (harness.measureDeterministic tokenId seed).1.Ready initialState := by
  rw [measureDeterministic]
  cases harness.system.issueCollapseToken "ProjectiveMeasurement" tokenId with
  | error exc => exact ⟨rfl, h⟩
  | ok token =>
    rcases harness.nogoLayer.measureStrictly_cases harness.stateReference token seed with
      ⟨exc, hr, -⟩ | ⟨collapse, -, -, ⟨-, exc, hr⟩ | ⟨-, event, hr, -⟩⟩
    · simp only [hr]
      exact ⟨trivial, h.states, h.tracked, h.linear, h.started⟩
    · simp only [hr]
      exact ⟨trivial, h.states, h.tracked, h.linear, h.started⟩
    · simp only [hr]
      exact ⟨rfl, h.states, h.tracked, rfl,
        List.append_ne_nil_of_right_ne_nil _ (List.cons_ne_nil _ _)⟩

/-- **Sealing.**  A seal leaves the current state and the rules as they are. -/
theorem sealTimeline_keeps (h : harness.Ready initialState) (reason : String) :
    (harness.sealTimeline reason).1.nogoLayer.stateEngine = harness.nogoLayer.stateEngine ∧
      (harness.sealTimeline reason).1.Ready initialState := by
  rw [sealTimeline, QuantumFoundationSystem.sealTimeline]
  cases harness.system.timeline.events.getLast? with
  | none => exact ⟨rfl, h.states, h.tracked, h.linear, h.started⟩
  | some last =>
    have hevents : (harness.nogoLayer.timeline.sealUpTo last.causalId reason).1.events
        = harness.nogoLayer.timeline.events := by
      rcases harness.nogoLayer.timeline.sealUpTo_cases last.causalId reason with
        ⟨exc, hr⟩ | ⟨ponr, -, -, -, hr⟩ <;> rw [hr]
    refine ⟨rfl, h.states, h.tracked, ?_, ?_⟩
    · show (harness.nogoLayer.timeline.sealUpTo last.causalId reason).1.events.length + 1 = _
      rw [hevents]
      exact h.linear
    · show (harness.nogoLayer.timeline.sealUpTo last.causalId reason).1.events ≠ []
      rw [hevents]
      exact h.started

/-! ### Harnesses with the same rules -/

/-- The invariant of a harness with the rules. -/
structure Governed (initialState : StateVector R)
    (ruleOf : String → Option (TransitionRule R ω)) (harness : FullStackHarness R ω κ) : Prop
    extends Ready initialState harness where
  follows : harness.nogoLayer.stateEngine.Follows ruleOf

/-- The current state. -/
def state (harness : FullStackHarness R ω κ) : StateVector R := harness.nogoLayer.stateEngine.state

namespace Governed

variable {ruleOf : String → Option (TransitionRule R ω)}

lemma evolved_eq (h : harness.Governed initialState ruleOf) (ruleName : String) :
    harness.evolved ruleName = evolvedBy ruleOf ruleName harness.state := by
  rw [evolved, evolvedBy]
  split
  · rfl
  · rw [SovereignStateEngine.ruleResult, ← h.follows ruleName]
    cases harness.nogoLayer.stateEngine.rules.get? ruleName <;> rfl

/-- **Step lemma.**  An evolution leads to what its rule makes of the state, and is then the last
event of the timeline; if the rule is refused, nothing changes. -/
theorem evolveDeterministic (hone : ¬(1 : R) < 1) (h : harness.Governed initialState ruleOf)
    (ruleName : String) :
    (harness.evolveDeterministic ruleName).1.Governed initialState ruleOf ∧
      (harness.evolveDeterministic ruleName).1.state
        = (evolvedBy ruleOf ruleName harness.state).getD harness.state ∧
      (harness.evolveDeterministic ruleName).2.isOk
        = (evolvedBy ruleOf ruleName harness.state).isSome ∧
      ((harness.evolveDeterministic ruleName).2.isOk = true →
        ∃ event observation, (harness.evolveDeterministic ruleName
            ).1.nogoLayer.timeline.events.getLast? = some event ∧
          event.payload = .evolution observation 1 ∧ observation.observationType = ruleName) := by
  rw [← h.evolved_eq]
  rcases evolveDeterministic_cases hone h.toReady ruleName with
    ⟨exc, hr, hnone⟩ | ⟨harness', ref, event, observation, hr, hsome, hrules, hready, hlast⟩
  · rw [hr, hnone]
    exact ⟨h, rfl, rfl, fun hok => absurd hok Bool.false_ne_true⟩
  · rw [hr, hsome]
    refine ⟨⟨hready, fun k => ?_⟩, rfl, rfl, fun _ => ⟨event, observation, hlast⟩⟩
    rw [hrules]
    exact h.follows k

/-- **Step lemma.**  A measurement leaves the current state as it is. -/
theorem measureDeterministic (h : harness.Governed initialState ruleOf) (tokenId : String)
    (seed : ℤ) : (harness.measureDeterministic tokenId seed).1.Governed initialState ruleOf ∧
      (harness.measureDeterministic tokenId seed).1.state = harness.state := by
  obtain ⟨hengine, hready⟩ := measureDeterministic_keeps h.toReady tokenId seed
  refine ⟨⟨hready, ?_⟩, congrArg SovereignStateEngine.state hengine⟩
  rw [hengine]
  exact h.follows

/-- **Step lemma.**  A seal leaves the current state as it is. -/
theorem sealTimeline (h : harness.Governed initialState ruleOf) (reason : String) :
    (harness.sealTimeline reason).1.Governed initialState ruleOf ∧
      (harness.sealTimeline reason).1.state = harness.state := by
  obtain ⟨hengine, hready⟩ := sealTimeline_keeps h.toReady reason
  refine ⟨⟨hready, ?_⟩, congrArg SovereignStateEngine.state hengine⟩
  rw [hengine]
  exact h.follows

end Governed

/-! ### A harness that is given rules -/

/-- A new harness is ready, and has no rules. -/
lemma ready_of_new {O : SetOrder} {initialAmplitudes : Dict String (PyComplex R)}
    {rootId : String} (hnew : new O initialAmplitudes rootId = .ok harness) :
    harness.Ready harness.c1State ∧ harness.nogoLayer.stateEngine = .new harness.c1State := by
  obtain ⟨-, hlayer, hreference⟩ := new_ok hnew
  obtain ⟨event, htimeline, -⟩ := QuantumFoundationSystem.timeline_new (ω := ω) (κ := κ)
    harness.c1State "FullStackDeterministicHarness"
  have hengine : harness.nogoLayer.stateEngine = .new harness.c1State := by
    rw [hlayer]
    rfl
  refine ⟨⟨hengine ▸ SovereignStateEngine.History.init harness.c1State, ?_, ?_, ?_⟩, hengine⟩
  · rw [hlayer, hreference]
    show (Dict.empty.set rootId (⟨rootId⟩ : StateReference)).contains rootId = true
    rw [Dict.contains_eq_true, Dict.mem_keys_set]
    exact Or.inl rfl
  · rw [hlayer]
    rfl
  · rw [hlayer]
    have hevents := congrArg CausalTimeline.events htimeline
    exact fun hnil => absurd (hevents.symm.trans hnil) (List.cons_ne_nil _ _)

/-- **Giving a rule.**  A rule is refused, and nothing changes; or it is a new one, and the only
change. -/
theorem defineUnitaryOperation_cases (O : SetOrder) (ruleName : String)
    (matrix : Dict (String × String) (PyComplex R)) (description : String)
    (h : harness.Ready initialState) :
    (∃ exc, harness.defineUnitaryOperation O ruleName matrix description
        = (harness, .error exc)) ∨
      ∃ harness', harness.defineUnitaryOperation O ruleName matrix description
          = (harness', .ok ()) ∧
        harness'.Ready initialState ∧
        harness'.nogoLayer.stateEngine.state = harness.nogoLayer.stateEngine.state ∧
        harness.nogoLayer.stateEngine.rules.get? ruleName = none ∧
        harness'.nogoLayer.stateEngine.rules = harness.nogoLayer.stateEngine.rules.set ruleName
          ⟨ruleName, verifiedRule O matrix, description⟩ := by
  rw [defineUnitaryOperation]
  cases UnitaryOperator.new O matrix with
  | error exc => exact Or.inl ⟨exc, rfl⟩
  | ok u =>
    have hstates := h.states.registerRule ruleName (verifiedRule O matrix) description
    rcases harness.nogoLayer.stateEngine.registerRule_cases ruleName (verifiedRule O matrix)
      description with ⟨exc, hr⟩ | ⟨hnone, hr⟩
    · have hengine : harness.system.stateEngine.registerRule ruleName (verifiedRule O matrix)
          description = _ := hr
      simp only [QuantumFoundationSystem.registerTransitionRule, hengine]
      exact Or.inl ⟨exc, rfl⟩
    · rw [hr] at hstates
      have hengine : harness.system.stateEngine.registerRule ruleName (verifiedRule O matrix)
          description = _ := hr
      simp only [QuantumFoundationSystem.registerTransitionRule, hengine]
      exact Or.inr ⟨_, rfl, ⟨hstates, h.tracked, h.linear, h.started⟩, rfl, hnone, rfl⟩

/-- A rule that is not refused is a new one, and the only change. -/
lemma defineUnitaryOperation_ok {O : SetOrder} {ruleName description : String}
    {matrix : Dict (String × String) (PyComplex R)} {harness' : FullStackHarness R ω κ}
    (h : harness.Ready initialState)
    (hok : harness.defineUnitaryOperation O ruleName matrix description = (harness', .ok ())) :
    harness'.Ready initialState ∧
      harness'.nogoLayer.stateEngine.state = harness.nogoLayer.stateEngine.state ∧
      harness.nogoLayer.stateEngine.rules.get? ruleName = none ∧
      harness'.nogoLayer.stateEngine.rules = harness.nogoLayer.stateEngine.rules.set ruleName
        ⟨ruleName, verifiedRule O matrix, description⟩ := by
  rcases defineUnitaryOperation_cases O ruleName matrix description h with
    ⟨exc, hr⟩ | ⟨harness'', hr, hchanges⟩
  · exact absurd (hr.symm.trans hok) (by simp)
  · obtain rfl : harness'' = harness' := congrArg Prod.fst (hr.symm.trans hok)
    exact hchanges

end FullStackHarness

end QuantumFoundation
