import Mathlib.Data.Finset.Insert
import QuantumFoundation.Quantum.StateEngine

/-!
# Measurement and collapse

The policies of `measurement_policy.py` and the engine of `collapse_engine.py`.  A policy takes a
state and a seed to a result; the engine asks the policy that a token authorizes, logs the
collapse, and marks the token as consumed.  It does not hold a state of its own.
-/

namespace QuantumFoundation

variable {R : Type*} [PyFloat R]

/-! ### Results -/

/-- `von_neumann_entropy`. -/
def vonNeumannEntropy (state : StateVector R) : R :=
  state.amplitudes.foldl (fun entropy amp =>
    let p := amp.probability
    if p > 1e-15 then entropy - p * PyFloat.log2 p else entropy) 0

/-- `information_loss_after_collapse`. -/
def informationLossAfterCollapse (preState postState : StateVector R) : R :=
  vonNeumannEntropy preState - vonNeumannEntropy postState

/-- The result of a measurement.  The last two fields are the checks of the constructor. -/
structure MeasurementResult (R : Type*) [PyFloat R] where
  outcome : String
  confidence : R
  informationLossDeclared : R
  postState : StateVector R
  seedUsed : ℤ
  policyName : String
  confidence_mem : 0 ≤ confidence ∧ confidence ≤ 1 + 1e-10
  informationLossDeclared_ge : ¬informationLossDeclared < -1e-10

/-- The constructor with the checks of `__post_init__`, in their order. -/
def MeasurementResult.new (outcome : String) (confidence informationLossDeclared : R)
    (postState : StateVector R) (seedUsed : ℤ) (policyName : String) :
    Except Raised (MeasurementResult R) :=
  if h₁ : 0 ≤ confidence ∧ confidence ≤ 1 + 1e-10 then
    if h₂ : informationLossDeclared < -1e-10 then
      .error ⟨.valueError, "information_loss_declared must be ≥ 0, got "
        ++ PyFloat.fixed 8 informationLossDeclared⟩
    else
      .ok ⟨outcome, confidence, informationLossDeclared, postState, seedUsed, policyName, h₁, h₂⟩
  else
    .error ⟨.valueError, "confidence must be in [0, 1], got " ++ PyFloat.fixed 8 confidence⟩

/-! ### Policies -/

/-- A policy: its name, and a pure function of the state and the seed, which may raise. -/
structure MeasurementPolicy (R : Type*) [PyFloat R] where
  name : String
  measure : StateVector R → ℤ → Except Raised (MeasurementResult R)

/-- The loop of `_seeded_sample`. -/
def sampleLoop (r : R) : ℕ → R → List R → Option ℕ
  | _, _, [] => none
  | i, cumulative, p :: rest =>
    let cumulative := cumulative + p
    if r < cumulative then some i else sampleLoop r (i + 1) cumulative rest

/-- `_seeded_sample`.  A seed that does not fit into 64 bits cannot be packed. -/
def seededSample (probabilities : List R) (seed : ℤ) : Except Raised ℕ :=
  if -2 ^ 63 ≤ seed ∧ seed < 2 ^ 63 then
    let r := PyFloat.truediv (PyFloat.digest64 seed probabilities).val (16 ^ 16)
    .ok ((sampleLoop r 0 0 probabilities).getD (probabilities.length - 1))
  else
    .error ⟨.structError, "'q' format requires -9223372036854775808 <= number <= "
      ++ "9223372036854775807"⟩

/-- The amplitudes of a state that is collapsed to one label. -/
def collapsedAmplitudes (labels : List String) (selectedLabel : String) :
    Dict String (PyComplex R) :=
  .ofList (labels.map fun label =>
    (label, if label = selectedLabel then PyComplex.ofReal 1 else PyComplex.ofReal 0))

namespace ProjectiveMeasurementPolicy

/-- `name`. -/
def name : String := "ProjectiveMeasurement"

/-- `measure`. -/
def measure (state : StateVector R) (seed : ℤ) : Except Raised (MeasurementResult R) :=
  let amps := state.amplitudes
  match seededSample (amps.map Amplitude.probability) seed with
  | .error exc => .error exc
  | .ok idx =>
    match amps[idx]? with
    | none => .error ⟨.other "IndexError", "list index out of range"⟩
    | some selected =>
      match StateVector.new
          (collapsedAmplitudes (amps.map (·.basisLabel)) selected.basisLabel) with
      | .error exc => .error exc
      | .ok postState =>
        let infoLoss := informationLossAfterCollapse state postState
        MeasurementResult.new selected.basisLabel selected.probability (pyMax 0 infoLoss) postState
          seed name

/-- The policy. -/
def policy : MeasurementPolicy R := ⟨name, measure⟩

end ProjectiveMeasurementPolicy

/-! ### Tokens and events -/

/-- The permission to collapse once.  The last two fields are the checks of the constructor. -/
structure CollapseToken where
  tokenId : String
  authorizedPolicy : String
  tokenId_ne : tokenId ≠ ""
  authorizedPolicy_ne : authorizedPolicy ≠ ""

/-- The constructor with the checks of `__post_init__`, in their order. -/
def CollapseToken.new (tokenId authorizedPolicy : String) : Except Raised CollapseToken :=
  if h₁ : tokenId = "" then
    .error ⟨.valueError, "CollapseToken.token_id must be non-empty"⟩
  else if h₂ : authorizedPolicy = "" then
    .error ⟨.valueError, "CollapseToken.authorized_policy must be non-empty"⟩
  else .ok ⟨tokenId, authorizedPolicy, h₁, h₂⟩

/-- The record of a collapse.  The last field is the check of the constructor. -/
structure IrreversibleCollapseEvent (R : Type*) [PyFloat R] where
  eventId : ℤ
  preCollapseState : StateVector R
  result : MeasurementResult R
  tokenId : String
  eventId_nonneg : ¬eventId < 0

/-- The constructor with the check of `__post_init__`. -/
def IrreversibleCollapseEvent.new (eventId : ℤ) (preCollapseState : StateVector R)
    (result : MeasurementResult R) (tokenId : String) :
    Except Raised (IrreversibleCollapseEvent R) :=
  if h : eventId < 0 then .error ⟨.valueError, "event_id must be non-negative"⟩
  else .ok ⟨eventId, preCollapseState, result, tokenId, h⟩

/-- The append-only log of the collapses. -/
structure CollapseEventLog (R : Type*) [PyFloat R] where
  events : List (IrreversibleCollapseEvent R)

namespace CollapseEventLog

/-- `append`. -/
def append (event : IrreversibleCollapseEvent R) (log : CollapseEventLog R) :
    Except Raised (CollapseEventLog R) :=
  match log.events.getLast? with
  | none => .ok ⟨log.events ++ [event]⟩
  | some last =>
    if event.eventId ≤ last.eventId then
      .error ⟨.valueError, "[COLLAPSE LOG] event_id must be strictly increasing. Got "
        ++ toString event.eventId ++ ", last was " ++ toString last.eventId ++ "."⟩
    else .ok ⟨log.events ++ [event]⟩

/-- The log takes an event with this id. -/
def accepts (log : CollapseEventLog R) (eventId : ℤ) : Bool :=
  log.events.getLast?.all fun last => last.eventId < eventId

/-- **Appending.** -/
theorem append_cases (event : IrreversibleCollapseEvent R) (log : CollapseEventLog R) :
    (∃ exc, log.append event = .error exc ∧ log.accepts event.eventId = false) ∨
      log.append event = .ok ⟨log.events ++ [event]⟩ ∧ log.accepts event.eventId = true := by
  rw [append, accepts]
  cases hlast : log.events.getLast? with
  | none => exact Or.inr ⟨rfl, rfl⟩
  | some last =>
    by_cases hle : event.eventId ≤ last.eventId
    · simp [hle]
    · simp [hle, not_le.mp hle]

end CollapseEventLog

/-! ### The engine -/

/-- The engine. -/
structure CollapseEngine (R : Type*) [PyFloat R] where
  policies : Dict String (MeasurementPolicy R)
  log : CollapseEventLog R
  consumedTokens : Finset String
  eventCounter : ℕ

namespace CollapseEngine

/-- An engine without policies. -/
def new : CollapseEngine R := ⟨.empty, ⟨[]⟩, ∅, 0⟩

/-- `register_policy`. -/
def registerPolicy (policy : MeasurementPolicy R) (engine : CollapseEngine R) :
    Attempt (CollapseEngine R) Unit :=
  if engine.policies.contains policy.name then
    (engine, .error ⟨.valueError, "Policy '" ++ policy.name ++ "' is already registered. "
      ++ "Re-registration is forbidden."⟩)
  else ({ engine with policies := engine.policies.set policy.name policy }, .ok ())

/-- `issue_token`. -/
def issueToken (policyName tokenId : String) (engine : CollapseEngine R) :
    Except Raised CollapseToken :=
  if !engine.policies.contains policyName then
    .error ⟨.valueError, "Cannot issue token: policy '" ++ policyName ++ "' is not registered."⟩
  else if tokenId ∈ engine.consumedTokens then
    .error ⟨.valueError, "Token '" ++ tokenId ++ "' has already been consumed. "
      ++ "Tokens are single-use."⟩
  else CollapseToken.new tokenId policyName

/-- `collapse`. -/
def collapse (state : StateVector R) (token : CollapseToken) (seed : ℤ)
    (engine : CollapseEngine R) : Attempt (CollapseEngine R) (IrreversibleCollapseEvent R) :=
  if token.tokenId ∈ engine.consumedTokens then
    (engine, .error ⟨.valueError, "[TOKEN CONSUMED] Token '" ++ token.tokenId
      ++ "' has already been used. A collapsed state cannot be un-collapsed and re-collapsed with "
      ++ "the same token."⟩)
  else
    match engine.policies.get? token.authorizedPolicy with
    | none =>
      (engine, .error ⟨.valueError, "[POLICY MISMATCH] Token authorizes policy '"
        ++ token.authorizedPolicy ++ "', which is not registered."⟩)
    | some policy =>
      match policy.measure state seed with
      | .error exc => (engine, .error exc)
      | .ok result =>
        match IrreversibleCollapseEvent.new engine.eventCounter state result token.tokenId with
        | .error exc => (engine, .error exc)
        | .ok event =>
          match engine.log.append event with
          | .error exc => (engine, .error exc)
          | .ok log =>
            ({ engine with
                log := log
                consumedTokens := insert token.tokenId engine.consumedTokens
                eventCounter := engine.eventCounter + 1 }, .ok event)

/-- `replay_collapse`. -/
def replayCollapse (event : IrreversibleCollapseEvent R) (engine : CollapseEngine R) :
    Except Raised (MeasurementResult R) :=
  match engine.policies.get? event.result.policyName with
  | none =>
    .error ⟨.valueError, "Cannot replay: policy '" ++ event.result.policyName
      ++ "' is not registered."⟩
  | some policy => policy.measure event.preCollapseState event.result.seedUsed

/-- The loop of `verify_collapse_integrity`. -/
def integrityLoop (engine : CollapseEngine R) :
    List (IrreversibleCollapseEvent R) → Except Raised Bool
  | [] => .ok true
  | event :: rest =>
    match engine.replayCollapse event with
    | .error exc => .error exc
    | .ok replayed =>
      if replayed.outcome ≠ event.result.outcome then
        .error ⟨.assertionError, "[COLLAPSE INTEGRITY FAILURE] Event " ++ toString event.eventId
          ++ ": original outcome='" ++ event.result.outcome ++ "', replayed outcome='"
          ++ replayed.outcome ++ "'."⟩
      else engine.integrityLoop rest

/-- `verify_collapse_integrity`. -/
def verifyCollapseIntegrity (engine : CollapseEngine R) : Except Raised Bool :=
  engine.integrityLoop engine.log.events

/-- `collapse_log`. -/
def collapseLog (engine : CollapseEngine R) : List (IrreversibleCollapseEvent R) :=
  engine.log.events

/-- `total_information_lost`. -/
def totalInformationLost (engine : CollapseEngine R) : R :=
  pySum (engine.log.events.map fun e => e.result.informationLossDeclared)

/-! ### What a collapse does -/

/-- The engine with one more event. -/
def commit (event : IrreversibleCollapseEvent R) (engine : CollapseEngine R) : CollapseEngine R :=
  { engine with
    log := ⟨engine.log.events ++ [event]⟩
    consumedTokens := insert event.tokenId engine.consumedTokens
    eventCounter := engine.eventCounter + 1 }

/-- The result of collapsing a state, if the engine does so: the token is not consumed, and the
policy it authorizes is registered and does not raise. -/
def collapseResult (state : StateVector R) (token : CollapseToken) (seed : ℤ)
    (engine : CollapseEngine R) : Option (MeasurementResult R) :=
  if token.tokenId ∉ engine.consumedTokens ∧ engine.log.accepts engine.eventCounter then
    (engine.policies.get? token.authorizedPolicy).bind fun policy =>
      (policy.measure state seed).toOption
  else none

/-- The event records the collapse of the state. -/
structure Records (engine : CollapseEngine R) (state : StateVector R) (token : CollapseToken)
    (seed : ℤ) (event : IrreversibleCollapseEvent R) : Prop where
  eventId_eq : event.eventId = engine.eventCounter
  preCollapseState_eq : event.preCollapseState = state
  tokenId_eq : event.tokenId = token.tokenId
  tokenId_fresh : token.tokenId ∉ engine.consumedTokens
  result_eq : ∃ policy, engine.policies.get? token.authorizedPolicy = some policy ∧
    policy.measure state seed = .ok event.result

/-- **Collapsing.**  A collapse is refused, and nothing changes; or it has a result, which is
logged with the next id, and consumes the token. -/
theorem collapse_cases (state : StateVector R) (token : CollapseToken) (seed : ℤ)
    (engine : CollapseEngine R) :
    (∃ exc, engine.collapse state token seed = (engine, .error exc) ∧
      engine.collapseResult state token seed = none) ∨
    ∃ event, engine.collapse state token seed = (engine.commit event, .ok event) ∧
      engine.collapseResult state token seed = some event.result ∧
      engine.Records state token seed event := by
  by_cases hfresh : token.tokenId ∈ engine.consumedTokens
  · refine Or.inl ⟨?consumed, ?refused, if_neg fun h => h.1 hfresh⟩
    case refused =>
      rw [collapse, if_pos hfresh]
  · rw [collapse, if_neg hfresh]
    cases hpolicy : engine.policies.get? token.authorizedPolicy with
    | none => exact Or.inl ⟨_, rfl, by simp [collapseResult, hpolicy]⟩
    | some policy =>
      cases hmeasure : policy.measure state seed with
      | error exc =>
        refine Or.inl ⟨exc, by simp only [hmeasure], ?_⟩
        simp [collapseResult, hpolicy, hmeasure, Except.toOption]
      | ok result =>
        have hid : ¬((engine.eventCounter : ℤ) < 0) := by omega
        let event : IrreversibleCollapseEvent R :=
          ⟨engine.eventCounter, state, result, token.tokenId, hid⟩
        simp only [hmeasure, IrreversibleCollapseEvent.new, dif_neg hid]
        rcases CollapseEventLog.append_cases event engine.log with
          ⟨exc, happend, haccepts⟩ | ⟨happend, haccepts⟩
        · rw [happend]
          refine Or.inl ⟨exc, rfl, if_neg fun h => ?_⟩
          exact absurd (haccepts.symm.trans h.2) (by decide)
        · rw [happend]
          refine Or.inr ⟨event, rfl, ?_, rfl, rfl, rfl, hfresh, policy, hpolicy, hmeasure⟩
          rw [collapseResult, if_pos ⟨hfresh, haccepts⟩, hpolicy, Option.bind_some, hmeasure]
          rfl

/-- Registering a policy changes nothing but the policies, and keeps those that are registered. -/
lemma registerPolicy_cases (policy : MeasurementPolicy R) (engine : CollapseEngine R) :
    (∃ exc, engine.registerPolicy policy = (engine, .error exc)) ∨
    engine.policies.get? policy.name = none ∧ engine.registerPolicy policy
      = ({ engine with policies := engine.policies.set policy.name policy }, .ok ()) := by
  rw [registerPolicy]
  by_cases hmem : engine.policies.contains policy.name = true
  · rw [if_pos hmem]
    exact Or.inl ⟨_, rfl⟩
  · rw [if_neg hmem]
    exact Or.inr ⟨Dict.get?_eq_none_of_contains hmem, rfl⟩

end CollapseEngine

end QuantumFoundation
