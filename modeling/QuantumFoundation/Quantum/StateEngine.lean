import QuantumFoundation.Lib.Dict
import QuantumFoundation.Quantum.Numbers

/-!
# The state evolution engine

State vectors, the rules that evolve them, and the engine of `state_evolution_engine.py`: an
observation is given to the rule that is registered for its type, and what the rule makes of the
current state is logged as a delta.  A rule is a pure function that may raise; nothing else is
known of it.
-/

namespace QuantumFoundation

variable {R ω : Type*}

/-! ### Observations and amplitudes -/

/-- An observation.  The last field is the check of the constructor. -/
structure Observation (ω : Type*) where
  observationType : String
  payload : List ω
  observationType_ne : observationType ≠ ""

/-- The constructor with the check of `__post_init__`. -/
def Observation.new (observationType : String) (payload : List ω) :
    Except Raised (Observation ω) :=
  if h : observationType = "" then
    .error ⟨.valueError, "observation_type must be a non-empty string"⟩
  else .ok ⟨observationType, payload, h⟩

/-- The amplitude of a basis state. -/
structure Amplitude (R : Type*) where
  basisLabel : String
  value : PyComplex R

/-- `probability`: the Born rule. -/
def Amplitude.probability [PyFloat R] (a : Amplitude R) : R := a.value.born

instance [PyFloat R] : BEq (Amplitude R) :=
  ⟨fun a b => a.basisLabel == b.basisLabel && a.value == b.value⟩

/-! ### State vectors -/

/-- `_compute_norm`. -/
def computeNorm [PyFloat R] (amplitudes : List (Amplitude R)) : R :=
  PyFloat.sqrt (pySum (amplitudes.map Amplitude.probability))

/-- A superposition of basis states.  The amplitudes come from a dictionary, so no label occurs
twice; the last field is the check of the norm.  That the labels are not empty is checked up to
the first value that is not of type `complex`, and so does not hold of every state. -/
structure StateVector (R : Type*) [PyFloat R] where
  amplitudes : List (Amplitude R)
  amplitudes_ne : amplitudes ≠ []
  labels_nodup : (amplitudes.map (·.basisLabel)).Nodup
  norm_near : ¬PyFloat.abs (computeNorm amplitudes - 1) > 1e-10

namespace StateVector

variable [PyFloat R]

/-- The constructor, of a dictionary of complex values, with its checks in their order. -/
def new (amplitudes : Dict String (PyComplex R)) : Except Raised (StateVector R) :=
  if h₁ : amplitudes.entries = [] then
    .error ⟨.valueError, "[FORBIDDEN STATE] StateVector must have at least one basis state"⟩
  else if amplitudes.contains "" then
    .error ⟨.valueError, "[FORBIDDEN STATE] Basis label must be non-empty"⟩
  else
    let amps := amplitudes.entries.map fun p => (⟨p.1, p.2⟩ : Amplitude R)
    if h₂ : PyFloat.abs (computeNorm amps - 1) > 1e-10 then
      .error ⟨.valueError, "[FORBIDDEN STATE] StateVector norm = "
        ++ PyFloat.fixed 8 (computeNorm amps)
        ++ ", must be 1.0. A quantum state must lie on the unit sphere."⟩
    else
      .ok ⟨amps, by simpa [amps] using h₁, by
        rw [List.map_map]
        exact amplitudes.nodup, h₂⟩

/-- `dimension`. -/
def dimension (s : StateVector R) : ℕ := s.amplitudes.length

/-- `as_dict`. -/
def asDict (s : StateVector R) : Dict String (PyComplex R) where
  entries := s.amplitudes.map fun a => (a.basisLabel, a.value)
  nodup := by
    rw [List.map_map]
    exact s.labels_nodup

/-- `__eq__`: the amplitudes are equal, one by one. -/
instance : BEq (StateVector R) := ⟨fun s t => s.amplitudes == t.amplitudes⟩

/-- `__repr__`. -/
def repr (s : StateVector R) : String :=
  "StateVector[" ++ " + ".intercalate (s.amplitudes.map fun a =>
    "(" ++ PyFloat.fixedComplex4 a.value.re a.value.im ++ ")|" ++ a.basisLabel ++ "⟩") ++ "]"

@[ext] lemma ext {s t : StateVector R} (h : s.amplitudes = t.amplitudes) : s = t := by
  cases s
  cases t
  cases h
  rfl

/-- The dictionary fixes the amplitudes. -/
lemma amplitudes_eq (s : StateVector R) :
    s.amplitudes = s.asDict.entries.map fun p => ⟨p.1, p.2⟩ := by
  rw [asDict, List.map_map]
  exact (List.map_id _).symm

/-- The constructor keeps the dictionary as it is. -/
lemma asDict_of_new {amplitudes : Dict String (PyComplex R)} {s : StateVector R}
    (h : new amplitudes = .ok s) : s.asDict = amplitudes := by
  dsimp only [new] at h
  obtain ⟨_, h⟩ := dite_guard_eq_ok h
  obtain ⟨-, h⟩ := guard_eq_ok h
  obtain ⟨_, h⟩ := dite_guard_eq_ok h
  rw [← Except.ok.inj h]
  apply Dict.ext
  simp [asDict, Function.comp_def]

/-- The dictionaries of which the constructor makes a state. -/
lemma exists_new_iff {amplitudes : Dict String (PyComplex R)} :
    (∃ s, new amplitudes = .ok s) ↔
      amplitudes.entries ≠ [] ∧ "" ∉ amplitudes.keys ∧ ¬PyFloat.abs
        (computeNorm (amplitudes.entries.map fun p => (⟨p.1, p.2⟩ : Amplitude R)) - 1) > 1e-10 := by
  rw [← Dict.contains_eq_true]
  dsimp only [new]
  split
  · next hnil => exact iff_of_false (by simp) fun h => h.1 hnil
  · next hne =>
    split
    · next hempty => exact iff_of_false (by simp) fun h => h.2.1 hempty
    · next hempty =>
      split
      · next hfar => exact iff_of_false (by simp) fun h => h.2.2 hfar
      · next hnear => exact iff_of_true ⟨_, rfl⟩ ⟨hne, hempty, hnear⟩

end StateVector

/-! ### Rules and deltas -/

/-- A rule: a pure function of the state and the observation, which may raise. -/
abbrev TransitionRule (R ω : Type*) [PyFloat R] :=
  StateVector R → Observation ω → Except Raised (StateVector R)

/-- A rule with the type of the observations it is for. -/
structure RegisteredRule (R ω : Type*) [PyFloat R] where
  observationType : String
  rule : TransitionRule R ω
  description : String

/-- The record of a transition.  The last field is the check of the constructor. -/
structure StateDelta (R ω : Type*) [PyFloat R] where
  sequenceNumber : ℤ
  observation : Observation ω
  priorState : StateVector R
  nextState : StateVector R
  appliedRule : String
  sequenceNumber_nonneg : ¬sequenceNumber < 0

/-- The constructor with the check of `__post_init__`. -/
def StateDelta.new [PyFloat R] (sequenceNumber : ℤ) (observation : Observation ω)
    (priorState nextState : StateVector R) (appliedRule : String) :
    Except Raised (StateDelta R ω) :=
  if h : sequenceNumber < 0 then
    .error ⟨.valueError, "sequence_number must be non-negative"⟩
  else .ok ⟨sequenceNumber, observation, priorState, nextState, appliedRule, h⟩

/-- The append-only log of the deltas. -/
structure ImmutableDeltaLog (R ω : Type*) [PyFloat R] where
  entries : List (StateDelta R ω)
  isSealed : Bool

namespace ImmutableDeltaLog

variable [PyFloat R]

/-- An empty log. -/
def new : ImmutableDeltaLog R ω := ⟨[], false⟩

/-- `append`. -/
def append (delta : StateDelta R ω) (log : ImmutableDeltaLog R ω) :
    Except Raised (ImmutableDeltaLog R ω) :=
  if log.isSealed then
    .error ⟨.runtimeError,
      "[IMMUTABILITY VIOLATION] Delta log has been sealed. No further appends allowed."⟩
  else
    match log.entries.getLast? with
    | none => .ok { log with entries := log.entries ++ [delta] }
    | some last =>
      if delta.sequenceNumber ≤ last.sequenceNumber then
        .error ⟨.valueError, "[IMPOSSIBLE TRANSITION] sequence_number must be strictly increasing. "
          ++ "Got " ++ toString delta.sequenceNumber ++ ", last was "
          ++ toString last.sequenceNumber ++ "."⟩
      else .ok { log with entries := log.entries ++ [delta] }

/-- The log takes a delta with this number. -/
def accepts (log : ImmutableDeltaLog R ω) (sequenceNumber : ℤ) : Bool :=
  !log.isSealed && log.entries.getLast?.all fun last => last.sequenceNumber < sequenceNumber

/-- **Appending.** -/
theorem append_cases (delta : StateDelta R ω) (log : ImmutableDeltaLog R ω) :
    (∃ exc, log.append delta = .error exc ∧ log.accepts delta.sequenceNumber = false) ∨
      log.append delta = .ok { log with entries := log.entries ++ [delta] } ∧
        log.accepts delta.sequenceNumber = true := by
  rw [append, accepts]
  cases hsealed : log.isSealed with
  | true => exact Or.inl ⟨_, rfl, rfl⟩
  | false =>
    cases hlast : log.entries.getLast? with
    | none => exact Or.inr ⟨rfl, rfl⟩
    | some last =>
      by_cases hle : delta.sequenceNumber ≤ last.sequenceNumber
      · simp [hle]
      · simp [hle, not_le.mp hle]

end ImmutableDeltaLog

/-! ### The engine -/

/-- The engine. -/
structure SovereignStateEngine (R ω : Type*) [PyFloat R] where
  state : StateVector R
  rules : Dict String (RegisteredRule R ω)
  log : ImmutableDeltaLog R ω
  sequence : ℕ

namespace SovereignStateEngine

variable [PyFloat R]

/-- An engine without rules. -/
def new (initialState : StateVector R) : SovereignStateEngine R ω :=
  ⟨initialState, .empty, .new, 0⟩

/-- `register_rule`. -/
def registerRule (observationType : String) (rule : TransitionRule R ω) (description : String)
    (engine : SovereignStateEngine R ω) : Attempt (SovereignStateEngine R ω) Unit :=
  if engine.rules.contains observationType then
    (engine, .error ⟨.valueError, "Rule for '" ++ observationType ++ "' is already registered. "
      ++ "Re-registration is forbidden to prevent silent override attacks."⟩)
  else
    ({ engine with
        rules := engine.rules.set observationType ⟨observationType, rule, description⟩ }, .ok ())

/-- `observe`. -/
def observe (observation : Observation ω) (engine : SovereignStateEngine R ω) :
    Attempt (SovereignStateEngine R ω) (StateDelta R ω) :=
  let obsType := observation.observationType
  match engine.rules.get? obsType with
  | none =>
    (engine, .error ⟨.valueError, "[IMPOSSIBLE TRANSITION] No rule registered for "
      ++ "observation_type='" ++ obsType ++ "'. Only explicit transitions are permitted."⟩)
  | some rule =>
    let prior := engine.state
    match rule.rule prior observation with
    | .error exc => (engine, .error exc)
    | .ok nextState =>
      if nextState.dimension ≠ prior.dimension then
        (engine, .error ⟨.valueError, "[IMPOSSIBLE TRANSITION] Dimension mismatch: prior="
          ++ toString prior.dimension ++ ", next=" ++ toString nextState.dimension
          ++ ". State space dimension is fixed at engine initialization."⟩)
      else
        match StateDelta.new engine.sequence observation prior nextState obsType with
        | .error exc => (engine, .error exc)
        | .ok delta =>
          match engine.log.append delta with
          | .error exc => (engine, .error exc)
          | .ok log =>
            ({ engine with log := log, state := nextState, sequence := engine.sequence + 1 },
              .ok delta)

/-- `current_state`. -/
def currentState (engine : SovereignStateEngine R ω) : StateVector R := engine.state

/-- `delta_log`. -/
def deltaLog (engine : SovereignStateEngine R ω) : List (StateDelta R ω) := engine.log.entries

/-- The loop of the replay that registers the rules. -/
def registerLoop : List (String × RegisteredRule R ω) → SovereignStateEngine R ω →
    Except Raised (SovereignStateEngine R ω)
  | [], engine => .ok engine
  | (obsType, reg) :: rest, engine =>
    match engine.registerRule obsType reg.rule reg.description with
    | (_, .error exc) => .error exc
    | (engine, .ok ()) => registerLoop rest engine

/-- The loop of the replay that presents the observations. -/
def observeLoop : List (StateDelta R ω) → SovereignStateEngine R ω →
    Except Raised (SovereignStateEngine R ω)
  | [], engine => .ok engine
  | delta :: rest, engine =>
    match engine.observe delta.observation with
    | (_, .error exc) => .error exc
    | (engine, .ok _) => observeLoop rest engine

/-- `replay_from_log`. -/
def replayFromLog (initialState : StateVector R) (deltaLog : List (StateDelta R ω))
    (engine : SovereignStateEngine R ω) : Except Raised (StateVector R) :=
  match registerLoop engine.rules.entries (new initialState) with
  | .error exc => .error exc
  | .ok replayEngine => (observeLoop deltaLog replayEngine).map currentState

/-- `verify_replay_integrity`. -/
def verifyReplayIntegrity (engine : SovereignStateEngine R ω) : Except Raised Bool :=
  match engine.log.entries with
  | [] => .ok true
  | first :: _ =>
    match engine.replayFromLog first.priorState engine.log.entries with
    | .error exc => .error exc
    | .ok replayed =>
      if replayed != engine.state then
        .error ⟨.assertionError, "[INTEGRITY FAILURE] Replay produced a different state than "
          ++ "current. Delta log may have been tampered with."⟩
      else .ok true

/-! ### What an observation does -/

/-- The engine with one more delta. -/
def commit (delta : StateDelta R ω) (engine : SovereignStateEngine R ω) :
    SovereignStateEngine R ω :=
  { engine with
    log := { engine.log with entries := engine.log.entries ++ [delta] }
    state := delta.nextState
    sequence := engine.sequence + 1 }

/-- What the rule for the observation makes of the current state: nothing if there is no such
rule, if it raises, or if it changes the dimension. -/
def ruleResult (observation : Observation ω) (engine : SovereignStateEngine R ω) :
    Option (StateVector R) :=
  (engine.rules.get? observation.observationType).bind fun reg =>
    (reg.rule engine.state observation).toOption.filter fun nextState =>
      nextState.dimension = engine.state.dimension

/-- The state the observation leads to, if the engine accepts it. -/
def evolution (observation : Observation ω) (engine : SovereignStateEngine R ω) :
    Option (StateVector R) :=
  if engine.log.accepts engine.sequence then engine.ruleResult observation else none

/-- The delta records what the observation does to the engine. -/
structure Records (engine : SovereignStateEngine R ω) (observation : Observation ω)
    (delta : StateDelta R ω) : Prop where
  sequenceNumber_eq : delta.sequenceNumber = engine.sequence
  observation_eq : delta.observation = observation
  priorState_eq : delta.priorState = engine.state
  appliedRule_eq : delta.appliedRule = observation.observationType
  nextState_eq : engine.ruleResult observation = some delta.nextState

/-- **Observing.**  An observation is refused, and nothing changes; or it leads to a state, which
is logged with the next number. -/
theorem observe_cases (observation : Observation ω) (engine : SovereignStateEngine R ω) :
    (∃ exc, engine.observe observation = (engine, .error exc) ∧
      engine.evolution observation = none) ∨
    ∃ delta, engine.observe observation = (engine.commit delta, .ok delta) ∧
      engine.evolution observation = some delta.nextState ∧ engine.Records observation delta := by
  have hnone : engine.ruleResult observation = none → engine.evolution observation = none := by
    intro h
    rw [evolution, h, ite_self]
  cases hrule : engine.rules.get? observation.observationType with
  | none =>
    have hresult : engine.ruleResult observation = none := by simp [ruleResult, hrule]
    refine Or.inl ⟨?unregistered, ?refused, hnone hresult⟩
    case refused =>
      simp only [observe, hrule]
      rfl
  | some reg =>
    cases hnext : reg.rule engine.state observation with
    | error exc =>
      have hresult : engine.ruleResult observation = none := by
        simp [ruleResult, hrule, hnext, Except.toOption]
      exact Or.inl ⟨exc, by simp only [observe, hrule, hnext], hnone hresult⟩
    | ok nextState =>
      by_cases hdim : nextState.dimension = engine.state.dimension
      · have hresult : engine.ruleResult observation = some nextState := by
          simp [ruleResult, hrule, hnext, Except.toOption, hdim]
        have hseq : ¬((engine.sequence : ℤ) < 0) := by omega
        let delta : StateDelta R ω := ⟨engine.sequence, observation, engine.state, nextState,
          observation.observationType, hseq⟩
        rcases ImmutableDeltaLog.append_cases delta engine.log with
          ⟨exc, happend, haccepts⟩ | ⟨happend, haccepts⟩
        · refine Or.inl ⟨exc, ?_, if_neg (by rw [haccepts]; decide)⟩
          simp only [observe, hrule, hnext, hdim, ne_eq, not_true_eq_false, if_false,
            StateDelta.new, dif_neg hseq]
          rw [happend]
        · refine Or.inr ⟨delta, ?_, (if_pos haccepts).trans hresult, rfl, rfl, rfl, rfl, hresult⟩
          simp only [observe, hrule, hnext, hdim, ne_eq, not_true_eq_false, if_false,
            StateDelta.new, dif_neg hseq]
          rw [happend]
          rfl
      · have hresult : engine.ruleResult observation = none := by
          simp [ruleResult, hrule, hnext, Except.toOption, hdim]
        refine Or.inl ⟨?mismatch, ?refused, hnone hresult⟩
        case refused =>
          simp only [observe, hrule, hnext, ne_eq, hdim, not_false_eq_true, if_true]
          rfl

/-- Registering a rule changes nothing but the rules, and keeps those that are registered. -/
lemma registerRule_cases (observationType : String) (rule : TransitionRule R ω)
    (description : String) (engine : SovereignStateEngine R ω) :
    (∃ exc, engine.registerRule observationType rule description = (engine, .error exc)) ∨
    engine.rules.get? observationType = none ∧
      engine.registerRule observationType rule description = ({ engine with
        rules := engine.rules.set observationType ⟨observationType, rule, description⟩ },
          .ok ()) := by
  rw [registerRule]
  by_cases hmem : engine.rules.contains observationType = true
  · rw [if_pos hmem]
    exact Or.inl ⟨_, rfl⟩
  · rw [if_neg hmem]
    exact Or.inr ⟨Dict.get?_eq_none_of_contains hmem, rfl⟩

end SovereignStateEngine

/-! ### States over the fractions -/

/-- The first of two basis states. -/
def ketZero : StateVector ℚ where
  amplitudes := [⟨"0", ⟨1, 0⟩⟩, ⟨"1", ⟨0, 0⟩⟩]
  amplitudes_ne := by decide
  labels_nodup := by decide
  norm_near := by decide +kernel

/-- The sum of the two, each with probability one half. -/
def ketPlus : StateVector ℚ where
  amplitudes := [⟨"0", ⟨0.5, 0.5⟩⟩, ⟨"1", ⟨0.5, 0.5⟩⟩]
  amplitudes_ne := by decide
  labels_nodup := by decide
  norm_near := by decide +kernel

end QuantumFoundation
