import QuantumFoundation.Lib.Run
import QuantumFoundation.Quantum.WeakMeasurement

/-!
# The tokens of a collapse engine

A collapse consumes its token exactly if it is logged, so that the consumed tokens are those of
the log, each there once, wherever they come from.  The log replays, since a policy is registered
under the name that it puts into its results.
-/

namespace QuantumFoundation

variable {R : Type*} [PyFloat R]

namespace CollapseEngine

/-- The invariant of an engine whose policies sign their results. -/
structure TokenHistory (engine : CollapseEngine R) : Prop where
  counter_eq : engine.eventCounter = engine.log.events.length
  numbered : NumberedFrom IrreversibleCollapseEvent.eventId 0 engine.log.events
  tokens_nodup : (engine.log.events.map (·.tokenId)).Nodup
  consumed_iff : ∀ t, t ∈ engine.consumedTokens ↔ t ∈ engine.log.events.map (·.tokenId)
  signs : ∀ k policy, engine.policies.get? k = some policy → policy.name = k ∧ policy.Signs
  measured : ∀ e ∈ engine.log.events, ∃ policy,
    engine.policies.get? e.result.policyName = some policy ∧
      policy.measure e.preCollapseState e.result.seedUsed = .ok e.result

variable {engine : CollapseEngine R} {state : StateVector R} {token : CollapseToken} {seed : ℤ}

namespace TokenHistory

lemma init : TokenHistory (new : CollapseEngine R) :=
  ⟨rfl, trivial, List.nodup_nil, fun t => by simp [new], fun _ _ h => absurd h (by simp [new]),
    fun _ h => absurd h List.not_mem_nil⟩

/-- The log takes the next event. -/
lemma accepts (h : TokenHistory engine) : engine.log.accepts engine.eventCounter = true := by
  rw [CollapseEventLog.accepts]
  cases hlast : engine.log.events.getLast? with
  | none => rfl
  | some last =>
    have hbounds := h.numbered.bounds (List.mem_of_getLast? hlast)
    simp only [Option.all_some, decide_eq_true_eq]
    rw [h.counter_eq]
    omega

/-- **Step lemma.**  A collapse extends the history. -/
theorem commit (h : TokenHistory engine) {event : IrreversibleCollapseEvent R}
    (hrecords : engine.Records state token seed event) : TokenHistory (engine.commit event) := by
  obtain ⟨policy, hpolicy, hmeasure⟩ := hrecords.result_eq
  obtain ⟨hname, hsigns⟩ := h.signs _ _ hpolicy
  obtain ⟨hpolicyName, hseed⟩ := hsigns _ _ _ hmeasure
  have hfresh : event.tokenId ∉ engine.log.events.map (·.tokenId) := by
    rw [← h.consumed_iff, hrecords.tokenId_eq]
    exact hrecords.tokenId_fresh
  refine ⟨?_, NumberedFrom.append_singleton.mpr ⟨h.numbered, ?_⟩, ?_, fun t => ?_, h.signs, ?_⟩
  · show engine.eventCounter + 1 = (engine.log.events ++ [event]).length
    rw [h.counter_eq, List.length_append, List.length_singleton]
  · rw [hrecords.eventId_eq, h.counter_eq, zero_add]
  · show ((engine.log.events ++ [event]).map (·.tokenId)).Nodup
    rw [List.map_append]
    exact h.tokens_nodup.append (List.nodup_singleton _) (by simpa using hfresh)
  · show t ∈ insert event.tokenId engine.consumedTokens
      ↔ t ∈ (engine.log.events ++ [event]).map (·.tokenId)
    rw [Finset.mem_insert, h.consumed_iff, List.map_append, List.mem_append, List.map_singleton,
      List.mem_singleton, or_comm]
  · intro e he
    rcases List.mem_append.mp he with he | he
    · exact h.measured e he
    · rw [List.mem_singleton.mp he, hpolicyName, hname, hseed, hrecords.preCollapseState_eq]
      exact ⟨policy, hpolicy, hmeasure⟩

/-- **Step lemma.**  Registering a policy, under a name that is free, keeps the history. -/
theorem registerPolicy (h : TokenHistory engine) {policy : MeasurementPolicy R}
    (hsigns : policy.Signs) : TokenHistory (engine.registerPolicy policy).1 := by
  rcases engine.registerPolicy_cases policy with ⟨exc, hr⟩ | ⟨hnone, hr⟩
  · rwa [hr]
  · rw [hr]
    refine ⟨h.counter_eq, h.numbered, h.tokens_nodup, h.consumed_iff, ?_, ?_⟩
    · intro k policy' hk
      rw [Dict.get?_set] at hk
      split at hk
      · next heq =>
        rw [← Option.some.inj hk, heq]
        exact ⟨rfl, hsigns⟩
      · exact h.signs k policy' hk
    · intro e he
      obtain ⟨policy', hpolicy', hmeasure⟩ := h.measured e he
      refine ⟨policy', ?_, hmeasure⟩
      rw [Dict.get?_set, if_neg ?_, hpolicy']
      rintro hname
      rw [hname, hnone] at hpolicy'
      cases hpolicy'

/-- **Step lemma.**  Whatever token is presented, a collapse keeps the history. -/
theorem collapse (h : TokenHistory engine) (state : StateVector R) (token : CollapseToken)
    (seed : ℤ) : TokenHistory (engine.collapse state token seed).1 := by
  rcases engine.collapse_cases state token seed with ⟨exc, hr, -⟩ | ⟨event, hr, -, hrecords⟩
  · rwa [hr]
  · rw [hr]
    exact h.commit hrecords

/-- A collapse returns exactly if its token is not consumed and the policy that it authorizes is
registered and measures the state. -/
lemma collapse_isOk_iff (h : TokenHistory engine) :
    (engine.collapse state token seed).2.isOk = true ↔ token.tokenId ∉ engine.consumedTokens ∧
      ∃ policy, engine.policies.get? token.authorizedPolicy = some policy ∧
        (policy.measure state seed).isOk = true := by
  rcases engine.collapse_cases state token seed with ⟨exc, hr, hnone⟩ | ⟨event, hr, -, hrecords⟩
  · refine iff_of_false (by rw [hr]; simp [Except.isOk, Except.toBool]) ?_
    rintro ⟨hfresh, policy, hpolicy, hmeasure⟩
    rw [collapseResult, if_pos ⟨hfresh, h.accepts⟩, hpolicy, Option.bind_some] at hnone
    cases hm : policy.measure state seed with
    | error exc' => simp [hm, Except.isOk, Except.toBool] at hmeasure
    | ok result => simp [hm, Except.toOption] at hnone
  · obtain ⟨policy, hpolicy, hmeasure⟩ := hrecords.result_eq
    refine iff_of_true (by rw [hr]; rfl) ⟨hrecords.tokenId_fresh, policy, hpolicy, ?_⟩
    rw [hmeasure]
    rfl

/-- **Replay.**  Every collapse of the log replays to its own outcome. -/
theorem verifyCollapseIntegrity (h : TokenHistory engine) :
    engine.verifyCollapseIntegrity = .ok true :=
  integrityLoop_ok fun e he => by
    obtain ⟨policy, hpolicy, hmeasure⟩ := h.measured e he
    rw [replayCollapse, hpolicy]
    exact hmeasure

end TokenHistory

/-! ### Runs -/

/-- A call of a method, with the policies of the module. -/
inductive Call (R : Type*) [PyFloat R]
  | registerPolicy (policy : BuiltInPolicy R)
  | issueToken (policyName tokenId : String)
  | collapse (state : StateVector R) (token : CollapseToken) (seed : ℤ)

variable [PyQuotient R]

/-- What a call leaves behind, whether it returns or raises. -/
def perform (engine : CollapseEngine R) : Call R → CollapseEngine R
  | .registerPolicy policy => (engine.registerPolicy policy.policy).1
  | .issueToken _ _ => engine
  | .collapse state token seed => (engine.collapse state token seed).1

lemma TokenHistory.perform (h : TokenHistory engine) (c : Call R) :
    TokenHistory (engine.perform c) := by
  cases c with
  | registerPolicy policy => exact h.registerPolicy policy.policy_signs
  | issueToken policyName tokenId => exact h
  | collapse state token seed => exact h.collapse state token seed

/-- **Single use.**  After any calls, with any tokens, issued or not: the tokens of the log are
distinct and are the consumed ones, the events are numbered from 0, a collapse that raises
changes nothing, so that its token is as good as before, and the log replays. -/
theorem tokens_single_use (calls : List (Call R)) :
    let x := Run.exec CollapseEngine.perform new calls
    (x.collapseLog.map (·.tokenId)).Nodup ∧
      (∀ t, t ∈ x.consumedTokens ↔ t ∈ x.collapseLog.map (·.tokenId)) ∧
      NumberedFrom IrreversibleCollapseEvent.eventId 0 x.collapseLog ∧
      x.eventCounter = x.collapseLog.length ∧
      (∀ state token seed exc, (x.collapse state token seed).2 = .error exc →
        (x.collapse state token seed).1 = x) ∧
      (∀ state token seed, (x.collapse state token seed).2.isOk = true ↔
        token.tokenId ∉ x.consumedTokens ∧
          ∃ policy, x.policies.get? token.authorizedPolicy = some policy ∧
            (policy.measure state seed).isOk = true) ∧
      x.verifyCollapseIntegrity = .ok true := by
  intro x
  have h : TokenHistory x := Run.invariant_of_forall (fun _ c h => h.perform c) .init calls
  refine ⟨h.tokens_nodup, h.consumed_iff, h.numbered, h.counter_eq, ?_,
    fun _ _ _ => h.collapse_isOk_iff, h.verifyCollapseIntegrity⟩
  intro state token seed exc hexc
  rcases x.collapse_cases state token seed with ⟨exc', hr, -⟩ | ⟨event, hr, -⟩
  · rw [hr]
  · rw [hr] at hexc
    cases hexc

end CollapseEngine

end QuantumFoundation
