import QuantumFoundation.Lib.HashChain
import QuantumFoundation.Lib.NumberedLog
import QuantumFoundation.Quantum.StateEngine

/-!
# The history of a state engine

Over every run of an engine the deltas are numbered from zero, each begins in the state in which
the one before it ended, the dimension stays, and every delta is what its rule makes of its prior
state.  A replay registers the same rules and presents the same observations, and so ends in the
same state.
-/

namespace QuantumFoundation

variable {R ω : Type*} [PyFloat R]

namespace SovereignStateEngine

/-- The rule for the observation makes the next state of the prior one. -/
def RuleOf (rules : Dict String (RegisteredRule R ω)) (d : StateDelta R ω) : Prop :=
  ∃ reg, rules.get? d.observation.observationType = some reg ∧
    reg.rule d.priorState d.observation = .ok d.nextState

/-- The invariant of an engine that was started in a state. -/
structure History (initialState : StateVector R) (engine : SovereignStateEngine R ω) : Prop where
  isSealed_eq : engine.log.isSealed = false
  sequence_eq : engine.sequence = engine.log.entries.length
  numbered : NumberedFrom StateDelta.sequenceNumber 0 engine.log.entries
  linked : Linked StateDelta.priorState StateDelta.nextState initialState engine.log.entries
  state_eq : engine.state = tip StateDelta.nextState initialState engine.log.entries
  dimension_eq : engine.state.dimension = initialState.dimension
  dimensions : ∀ d ∈ engine.log.entries, d.priorState.dimension = initialState.dimension ∧
    d.nextState.dimension = initialState.dimension
  rules_named : ∀ k reg, engine.rules.get? k = some reg → reg.observationType = k
  rules_made : ∀ d ∈ engine.log.entries, RuleOf engine.rules d

variable {initialState : StateVector R} {engine : SovereignStateEngine R ω}

/-- What the result of a rule is. -/
lemma ruleResult_eq_some {observation : Observation ω} {s : StateVector R} :
    engine.ruleResult observation = some s ↔
      ∃ reg, engine.rules.get? observation.observationType = some reg ∧
        reg.rule engine.state observation = .ok s ∧ s.dimension = engine.state.dimension := by
  rw [ruleResult]
  constructor
  · intro h
    obtain ⟨reg, hreg, hfilter⟩ := Option.bind_eq_some_iff.mp h
    obtain ⟨hs, hdim⟩ := Option.filter_eq_some_iff.mp hfilter
    refine ⟨reg, hreg, ?_, of_decide_eq_true hdim⟩
    cases hr : reg.rule engine.state observation with
    | error exc => exact absurd (hr ▸ hs) (by simp [Except.toOption])
    | ok s' =>
      rw [hr] at hs
      rw [Option.some.inj hs]
  · rintro ⟨reg, hreg, hs, hdim⟩
    simp [hreg, hs, Except.toOption, hdim]

namespace History

lemma init (initialState : StateVector R) :
    History initialState (new initialState : SovereignStateEngine R ω) :=
  ⟨rfl, rfl, trivial, trivial, rfl, rfl, fun _ h => absurd h List.not_mem_nil,
    fun _ _ h => absurd h (by simp [new]), fun _ h => absurd h List.not_mem_nil⟩

/-- The log takes the next delta. -/
lemma accepts (h : History initialState engine) :
    engine.log.accepts engine.sequence = true := by
  rw [ImmutableDeltaLog.accepts, h.isSealed_eq]
  cases hlast : engine.log.entries.getLast? with
  | none => rfl
  | some last =>
    have hbounds := h.numbered.bounds (List.mem_of_getLast? hlast)
    simp only [Bool.not_false, Bool.true_and, Option.all_some, decide_eq_true_eq]
    rw [h.sequence_eq]
    omega

/-- **Step lemma.**  A delta that records an observation extends the history. -/
theorem commit (h : History initialState engine) {observation : Observation ω}
    {delta : StateDelta R ω} (hrecords : engine.Records observation delta) :
    History initialState (engine.commit delta) := by
  obtain ⟨reg, hreg, hrule, hdim⟩ := ruleResult_eq_some.mp hrecords.nextState_eq
  have hnext : delta.nextState.dimension = initialState.dimension := hdim.trans h.dimension_eq
  refine ⟨h.isSealed_eq, ?_, ?_, ?_, ?_, hnext, ?_, h.rules_named, ?_⟩
  · show engine.sequence + 1 = (engine.log.entries ++ [delta]).length
    rw [h.sequence_eq, List.length_append, List.length_singleton]
  · refine NumberedFrom.append_singleton.mpr ⟨h.numbered, ?_⟩
    rw [hrecords.sequenceNumber_eq, h.sequence_eq, zero_add]
  · refine linked_append_singleton.mpr ⟨h.linked, ?_⟩
    rw [hrecords.priorState_eq, h.state_eq]
  · have htip : tip StateDelta.nextState initialState (engine.log.entries ++ [delta])
        = delta.nextState := tip_append_singleton
    exact htip.symm
  · intro d hd
    rcases List.mem_append.mp hd with hd | hd
    · exact h.dimensions d hd
    · rw [List.mem_singleton.mp hd, hrecords.priorState_eq]
      exact ⟨h.dimension_eq, hnext⟩
  · intro d hd
    rcases List.mem_append.mp hd with hd | hd
    · exact h.rules_made d hd
    · rw [List.mem_singleton.mp hd]
      refine ⟨reg, ?_, ?_⟩
      · rw [hrecords.observation_eq]
        exact hreg
      · rw [hrecords.priorState_eq, hrecords.observation_eq]
        exact hrule

/-- **Step lemma.**  Registering a rule, for observations that have none, keeps the history. -/
theorem registerRule (h : History initialState engine) (observationType : String)
    (rule : TransitionRule R ω) (description : String) :
    History initialState (engine.registerRule observationType rule description).1 := by
  rcases engine.registerRule_cases observationType rule description with
    ⟨exc, hr⟩ | ⟨hnone, hr⟩
  · rw [hr]
    exact h
  · rw [hr]
    refine ⟨h.isSealed_eq, h.sequence_eq, h.numbered, h.linked, h.state_eq, h.dimension_eq,
      h.dimensions, ?_, ?_⟩
    · intro k reg hk
      rw [Dict.get?_set] at hk
      split at hk
      · next heq => rw [← Option.some.inj hk, heq]
      · exact h.rules_named k reg hk
    · intro d hd
      obtain ⟨reg, hreg, hrule⟩ := h.rules_made d hd
      refine ⟨reg, ?_, hrule⟩
      rw [Dict.get?_set, if_neg ?_, hreg]
      rintro rfl
      exact absurd (hreg.symm.trans hnone) (by simp)

end History

/-! ### Replay -/

/-- Rules that carry the types they are registered for are registered as they are. -/
lemma registerLoop_ok {l : List (String × RegisteredRule R ω)}
    (hnamed : ∀ p ∈ l, p.2.observationType = p.1) (hnodup : (l.map Prod.fst).Nodup)
    (engine : SovereignStateEngine R ω) (hfresh : ∀ p ∈ l, p.1 ∉ engine.rules.keys) :
    registerLoop l engine
      = .ok { engine with rules := l.foldl (fun d p => d.set p.1 p.2) engine.rules } := by
  induction l generalizing engine with
  | nil => rfl
  | cons p l ih =>
    obtain ⟨k, reg⟩ := p
    have hk : k ∉ engine.rules.keys := hfresh _ List.mem_cons_self
    have hname : reg.observationType = k := hnamed _ List.mem_cons_self
    have hreg : (⟨k, reg.rule, reg.description⟩ : RegisteredRule R ω) = reg := by
      rw [← hname]
    rcases engine.registerRule_cases k reg.rule reg.description with ⟨exc, hr⟩ | ⟨-, hr⟩
    · rw [SovereignStateEngine.registerRule, if_neg (by simpa using hk)] at hr
      exact absurd (congrArg Prod.snd hr) (by simp)
    · rw [registerLoop, hr, hreg]
      simp only
      rw [ih (fun q hq => hnamed q (List.mem_cons_of_mem _ hq)) (List.nodup_cons.mp hnodup).2]
      · rfl
      · intro q hq hmem
        rcases Dict.mem_keys_set.mp hmem with heq | hmem
        · refine (List.nodup_cons.mp hnodup).1 ?_
          exact List.mem_map.mpr ⟨q, hq, heq⟩
        · exact hfresh q (List.mem_cons_of_mem _ hq) hmem

/-- Presenting the observations of linked deltas again leads through the same states. -/
lemma observeLoop_ok {g : StateVector R} (h : History g engine) {L : List (StateDelta R ω)}
    (hlinked : Linked StateDelta.priorState StateDelta.nextState engine.state L)
    (hdims : ∀ d ∈ L, d.nextState.dimension = g.dimension)
    (hrules : ∀ d ∈ L, RuleOf engine.rules d) :
    ∃ engine', observeLoop L engine = .ok engine' ∧
      engine'.state = tip StateDelta.nextState engine.state L := by
  induction L generalizing engine with
  | nil => exact ⟨engine, rfl, rfl⟩
  | cons d L ih =>
    obtain ⟨hprior, hlinked⟩ := hlinked
    obtain ⟨reg, hreg, hrule⟩ := hrules d List.mem_cons_self
    have hdim := (hdims d List.mem_cons_self).trans h.dimension_eq.symm
    have hevolution : engine.evolution d.observation = some d.nextState := by
      rw [evolution, if_pos h.accepts]
      exact ruleResult_eq_some.mpr ⟨reg, hreg, hprior ▸ hrule, hdim⟩
    rcases engine.observe_cases d.observation with ⟨exc, -, hnone⟩ | ⟨delta, hr, hsome, hrecords⟩
    · exact absurd (hevolution.symm.trans hnone) (by simp)
    · have hnext : delta.nextState = d.nextState := Option.some.inj (hsome.symm.trans hevolution)
      have hstate : (engine.commit delta).state = d.nextState := hnext
      obtain ⟨engine', hloop, htip⟩ := ih (h.commit hrecords) (by rwa [hstate])
        (fun x hx => hdims x (List.mem_cons_of_mem d hx))
        (fun x hx => hrules x (List.mem_cons_of_mem d hx))
      refine ⟨engine', ?_, ?_⟩
      · rw [observeLoop, hr]
        exact hloop
      · rw [htip, hstate, tip_cons]

/-- **Replay.**  The log of an engine, and every beginning of it, replays to the state it ends
in. -/
theorem History.replayFromLog_isPrefix (h : History initialState engine)
    {L : List (StateDelta R ω)} (hL : L <+: engine.log.entries) :
    engine.replayFromLog initialState L = .ok (tip StateDelta.nextState initialState L) := by
  have hregister : registerLoop engine.rules.entries (new initialState)
      = .ok { new initialState with rules := engine.rules } := by
    rw [registerLoop_ok (fun p hp => h.rules_named _ _ (Dict.get?_eq_some.mpr hp))
      engine.rules.nodup _ (fun p _ => by simp [new])]
    exact congrArg (fun rules => Except.ok { new initialState with rules := rules })
      engine.rules.ofList_entries
  have hstart : History initialState
      ({ new initialState with rules := engine.rules } : SovereignStateEngine R ω) := by
    refine ⟨rfl, rfl, trivial, trivial, rfl, rfl, ?_, h.rules_named, ?_⟩
    · exact fun d hd => absurd hd List.not_mem_nil
    · exact fun d hd => absurd hd List.not_mem_nil
  obtain ⟨engine', hloop, htip⟩ := observeLoop_ok hstart (h.linked.of_isPrefix hL)
    (fun d hd => (h.dimensions d (hL.subset hd)).2) fun d hd => h.rules_made d (hL.subset hd)
  rw [replayFromLog, hregister]
  simp only [hloop, Except.map, currentState]
  rw [htip]
  rfl

/-- The check of the replay compares the current state with itself. -/
lemma History.verifyReplayIntegrity_ok (h : History initialState engine)
    (hself : (engine.state == engine.state) = true) : engine.verifyReplayIntegrity = .ok true := by
  rw [SovereignStateEngine.verifyReplayIntegrity]
  cases hlog : engine.log.entries with
  | nil => rfl
  | cons first rest =>
    have hfirst : first.priorState = initialState := by
      have hlinked := h.linked
      rw [hlog] at hlinked
      exact hlinked.1
    have hreplay := h.replayFromLog_isPrefix List.prefix_rfl
    rw [← h.state_eq, hlog] at hreplay
    simp only [hfirst, hreplay]
    exact if_neg (by simp [bne, hself])

lemma History.verifyReplayIntegrity [ReflBEq (StateVector R)]
    (h : History initialState engine) : engine.verifyReplayIntegrity = .ok true :=
  h.verifyReplayIntegrity_ok BEq.rfl

end SovereignStateEngine

end QuantumFoundation
