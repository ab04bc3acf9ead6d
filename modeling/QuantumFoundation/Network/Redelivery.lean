import QuantumFoundation.Network.ArrivalOrder

/-!
# Delivering an event again

A node that receives an event takes note of it first and applies it to its harness afterwards.  So
an event that cannot be applied counts as received all the same, and when it is delivered again the
node lets it pass by: receiving is all or nothing exactly if the node has seen the event, or its
harness can apply it.
-/

namespace QuantumFoundation

variable {R ω κ : Type*} [PyFloat R]

/-! ### When the operations return -/

/-- A timeline is sealed up to a recorded event behind the last seal, for a reason. -/
lemma CausalTimeline.sealUpTo_isOk_iff {π : Type*} (upToCausalId : ℤ) (reason : String)
    (t : CausalTimeline π) : (t.sealUpTo upToCausalId reason).2.isOk = true ↔
      t.sealedUpTo < upToCausalId ∧ t.eventIndex.contains upToCausalId = true ∧
        0 ≤ upToCausalId ∧ reason ≠ "" := by
  rw [sealUpTo]
  by_cases hsealed : upToCausalId ≤ t.sealedUpTo
  · rw [if_pos hsealed]
    exact iff_of_false Bool.false_ne_true fun h => not_lt.mpr hsealed h.1
  · rw [if_neg hsealed]
    by_cases hmem : t.eventIndex.contains upToCausalId = true
    · rw [if_neg (by simp [hmem]), PointOfNoReturn.new]
      by_cases hneg : upToCausalId < 0
      · rw [dif_pos hneg]
        exact iff_of_false Bool.false_ne_true fun h => not_lt.mpr h.2.2.1 hneg
      · rw [dif_neg hneg]
        by_cases hreason : reason = ""
        · rw [dif_pos hreason]
          exact iff_of_false Bool.false_ne_true fun h => h.2.2.2 hreason
        · rw [dif_neg hreason]
          exact iff_of_true rfl ⟨not_le.mp hsealed, hmem, not_lt.mp hneg, hreason⟩
    · rw [if_pos (by simp [hmem])]
      exact iff_of_false Bool.false_ne_true fun h => hmem h.2.1

namespace FullStackHarness

/-- The harness can evolve by the rule: nothing refuses the evolution, and it leads to a state. -/
def CanEvolve (ruleName : String) (harness : FullStackHarness R ω κ) : Prop :=
  ∃ h : ruleName ≠ "",
    (harness.nogoLayer.evolution harness.stateReference ⟨ruleName, [], h⟩).isSome = true

/-- The harness can measure with the token: one is issued, nothing refuses the collapse, and its
result declares a disturbance. -/
def CanMeasure (tokenId : String) (seed : ℤ) (harness : FullStackHarness R ω κ) : Prop :=
  ∃ token result, harness.system.issueCollapseToken "ProjectiveMeasurement" tokenId = .ok token ∧
    harness.nogoLayer.collapseResult harness.stateReference token seed = some result ∧
    NoGoEnforcementEngine.Disturbs result

/-- The harness can be sealed: its last event lies behind the last seal. -/
def CanSeal (reason : String) (harness : FullStackHarness R ω κ) : Prop :=
  ∃ last, harness.nogoLayer.timeline.events.getLast? = some last ∧
    harness.nogoLayer.timeline.sealedUpTo < last.causalId ∧
    harness.nogoLayer.timeline.eventIndex.contains last.causalId = true ∧
    0 ≤ last.causalId ∧ reason ≠ ""

lemma evolveDeterministic_isOk_iff (hone : ¬(1 : R) < 1) (ruleName : String)
    (harness : FullStackHarness R ω κ) :
    (harness.evolveDeterministic ruleName).2.isOk = true ↔ harness.CanEvolve ruleName := by
  rw [evolveDeterministic, Observation.new, CanEvolve]
  by_cases hname : ruleName = ""
  · rw [dif_pos hname]
    exact iff_of_false Bool.false_ne_true fun h => h.1 hname
  · rw [dif_neg hname]
    rcases harness.nogoLayer.evolveStrictly_cases harness.stateReference ⟨ruleName, [], hname⟩ 1
      with ⟨exc, hr, hnone⟩ | ⟨delta, hsome, -, ⟨hnoise, -⟩ | ⟨-, event, hr, -⟩⟩
    · simp only [hr, hnone]
      exact iff_of_false Bool.false_ne_true fun h => Bool.false_ne_true h.2
    · exact absurd hnoise hone
    · simp only [hr, hsome]
      exact iff_of_true rfl ⟨hname, rfl⟩

lemma measureDeterministic_isOk_iff (tokenId : String) (seed : ℤ)
    (harness : FullStackHarness R ω κ) :
    (harness.measureDeterministic tokenId seed).2.isOk = true ↔
      harness.CanMeasure tokenId seed := by
  rw [measureDeterministic, CanMeasure]
  cases htoken : harness.system.issueCollapseToken "ProjectiveMeasurement" tokenId with
  | error exc => simp [Except.isOk, Except.toBool]
  | ok token =>
    rcases harness.nogoLayer.measureStrictly_cases harness.stateReference token seed with
      ⟨exc, hr, hnone⟩ | ⟨collapse, hsome, -, ⟨hrefused, exc, hr⟩ | ⟨hdisturbs, event, hr, -⟩⟩
    · simp [hr, hnone, Except.isOk, Except.toBool]
    · simp [hr, hsome, hrefused, Except.isOk, Except.toBool]
    · simp [hr, hsome, hdisturbs, Except.isOk, Except.toBool]

lemma sealTimeline_isOk_iff (reason : String) (harness : FullStackHarness R ω κ) :
    (harness.sealTimeline reason).2.isOk = true ↔ harness.CanSeal reason := by
  rw [sealTimeline, QuantumFoundationSystem.sealTimeline, CanSeal, system]
  cases harness.nogoLayer.timeline.events.getLast? with
  | none => simp [Except.isOk, Except.toBool]
  | some last =>
    have hseal := harness.nogoLayer.timeline.sealUpTo_isOk_iff last.causalId reason
    simp only [isOk_map, hseal, Option.some.injEq, exists_eq_left']

end FullStackHarness

/-! ### Receiving -/

namespace Network

/-- A harness can apply the event. -/
def NetworkEvent.Applicable (P : PayloadEnv R ω κ) (netEvent : NetworkEvent R ω κ)
    (harness : FullStackHarness R ω κ) : Prop :=
  match netEvent.eventType with
  | .evolution => ∃ ruleName, (payloadOf netEvent.payload).bind P.ruleName = .ok ruleName ∧
      harness.CanEvolve ruleName
  | .collapse => ∃ tokenId seed,
      (payloadOf netEvent.payload).bind P.tokenAndSeed = .ok (tokenId, seed) ∧
      harness.CanMeasure tokenId seed
  | .sealing => harness.CanSeal
      ((netEvent.payload.map fun causalEvent => P.str causalEvent.payload).getD "remote_seal")
  | .other _ => True

namespace DistributedStateNode

variable {P : PayloadEnv R ω κ} {netEvent : NetworkEvent R ω κ}
  {node : DistributedStateNode R ω κ}

/-- Receiving an event is all or nothing: it is marked as seen if and only if it is applied, a call
that raises leaves everything as it was, and a second delivery changes nothing. -/
structure ReceivesOnce (P : PayloadEnv R ω κ) (netEvent : NetworkEvent R ω κ)
    (node : DistributedStateNode R ω κ) : Prop where
  marked_iff_applied : (netEvent.eventId ∉ node.seenEventIds ∧
      netEvent.eventId ∈ (node.receiveEvent P netEvent).1.seenEventIds) ↔
    (node.receiveEvent P netEvent).2 = .ok true
  unchanged : ∀ exc, (node.receiveEvent P netEvent).2 = .error exc →
    (node.receiveEvent P netEvent).1.state = node.state ∧
      (node.receiveEvent P netEvent).1.harness.nogoLayer.timeline
        = node.harness.nogoLayer.timeline ∧
      (node.receiveEvent P netEvent).1.logicalClock = node.logicalClock ∧
      (node.receiveEvent P netEvent).1.seenEventIds = node.seenEventIds ∧
      (node.receiveEvent P netEvent).1.receivedLog = node.receivedLog
  twice : ((node.receiveEvent P netEvent).1.receiveEvent P netEvent).1
    = (node.receiveEvent P netEvent).1

lemma reapply_isOk_iff (hone : ¬(1 : R) < 1) (P : PayloadEnv R ω κ)
    (netEvent : NetworkEvent R ω κ) (harness : FullStackHarness R ω κ) :
    (reapply P netEvent harness).2.isOk = true ↔ netEvent.Applicable P harness := by
  rw [reapply, NetworkEvent.Applicable]
  cases netEvent.eventType with
  | evolution =>
    cases (payloadOf netEvent.payload).bind P.ruleName with
    | error exc => simp [Except.isOk, Except.toBool]
    | ok ruleName =>
      simp only [isOk_map, harness.evolveDeterministic_isOk_iff hone, Except.ok.injEq,
        exists_eq_left']
  | collapse =>
    cases (payloadOf netEvent.payload).bind P.tokenAndSeed with
    | error exc => simp [Except.isOk, Except.toBool]
    | ok record =>
      simp [isOk_map, harness.measureDeterministic_isOk_iff, Prod.ext_iff]
  | sealing => exact harness.sealTimeline_isOk_iff _
  | other name => exact iff_of_true rfl trivial

/-- An event that has been delivered is delivered again: nothing changes. -/
lemma receiveEvent_twice (h : node.lifecycle = .active) :
    ((node.receiveEvent P netEvent).1.receiveEvent P netEvent).1
      = (node.receiveEvent P netEvent).1 := by
  have hactive : (node.receiveEvent P netEvent).1.lifecycle = .active :=
    (lifecycle_receiveEvent P netEvent node).trans h
  have hseen : netEvent.eventId ∈ (node.receiveEvent P netEvent).1.seenEventIds := by
    by_cases hseen : netEvent.eventId ∈ node.seenEventIds
    · rwa [receiveEvent_of_seen h hseen]
    · rw [receiveEvent_of_new h hseen]
      exact Finset.mem_insert_self _ _
  rw [receiveEvent_of_seen hactive hseen]

/-- **Receiving an event** is all or nothing exactly if the node has seen it, or its harness can
apply it. -/
theorem receivesOnce_iff (hone : ¬(1 : R) < 1) (P : PayloadEnv R ω κ)
    (netEvent : NetworkEvent R ω κ) (h : node.lifecycle = .active) :
    node.ReceivesOnce P netEvent ↔
      netEvent.eventId ∈ node.seenEventIds ∨ netEvent.Applicable P node.harness := by
  by_cases hseen : netEvent.eventId ∈ node.seenEventIds
  · -- a duplicate: nothing is marked, nothing is applied, nothing raises
    refine iff_of_true ⟨?_, fun exc hexc => ?_, receiveEvent_twice h⟩ (Or.inl hseen)
    · rw [receiveEvent_of_seen h hseen]
      exact iff_of_false (fun hmarked => hmarked.1 hseen) (by simp)
    · rw [receiveEvent_of_seen h hseen] at hexc
      exact absurd hexc (by simp)
  · rw [or_iff_right hseen, ← reapply_isOk_iff hone]
    have hreceive := receiveEvent_of_new (P := P) h hseen
    constructor
    · intro honce
      cases hr : (reapply P netEvent node.harness).2 with
      | ok _ => rfl
      | error exc =>
        -- the clock has ticked
        have hclock := (honce.unchanged exc (by rw [hreceive, hr]; rfl)).2.2.1
        rw [hreceive] at hclock
        have hmax : max node.logicalClock netEvent.logicalClock + 1 = node.logicalClock := hclock
        omega
    · intro hok
      cases hr : (reapply P netEvent node.harness).2 with
      | error exc => simp [hr, Except.isOk, Except.toBool] at hok
      | ok _ =>
        refine ⟨iff_of_true ⟨hseen, ?_⟩ (by rw [hreceive, hr]; rfl), fun exc hexc => ?_,
          receiveEvent_twice h⟩
        · rw [hreceive]
          exact Finset.mem_insert_self _ _
        · rw [hreceive, hr] at hexc
          exact absurd hexc (by simp [Except.map])

/-- A node whose only rule is the Pauli-X gate, and two events of a peer: of that gate, and of one
that the node has no rule for. -/
def redeliveryScene : Except Raised (DistributedStateNode ℚ Unit Unit
    × NetworkEvent ℚ Unit Unit × NetworkEvent ℚ Unit Unit) := do
  let node ← NodeNetwork.flipNode NodeNetwork.ketZeroAmplitudes "NodeA"
  let events ← gateEvents
  return (node, events)

/-- The event of the gate that the node knows. -/
theorem known_gate_received : ∃ node first second, redeliveryScene = .ok (node, first, second) ∧
    node.ReceivesOnce NodeNetwork.plainEnv first := by
  have hread : redeliveryScene.toOption.map (fun scene => decide (scene.1.lifecycle = .active ∧
      (reapply NodeNetwork.plainEnv scene.2.1 scene.1.harness).2.isOk = true)) = some true := by
    decide +kernel
  obtain ⟨⟨node, first, second⟩, hscene⟩ : ∃ scene, redeliveryScene = .ok scene :=
    exists_of_isSome (by decide +kernel)
  obtain ⟨hactive, hok⟩ := of_map_decide hread hscene
  exact ⟨node, first, second, hscene, (receivesOnce_iff (lt_irrefl 1) _ _ hactive).mpr
    (Or.inr ((reapply_isOk_iff (lt_irrefl 1) _ _ _).mp hok))⟩

/-- The event of the gate that it does not know: the call raises, and the event counts as seen. -/
theorem unknown_gate_marked : ∃ node first second,
    redeliveryScene = .ok (node, first, second) ∧ node.lifecycle = .active ∧
      ¬node.ReceivesOnce NodeNetwork.plainEnv second := by
  have hread : redeliveryScene.toOption.map (fun scene => decide (scene.1.lifecycle = .active ∧
      scene.2.2.eventId ∉ scene.1.seenEventIds ∧
      scene.2.2.eventId ∈ (scene.1.receiveEvent NodeNetwork.plainEnv scene.2.2).1.seenEventIds ∧
      (scene.1.receiveEvent NodeNetwork.plainEnv scene.2.2).2.isOk = false)) = some true := by
    decide +kernel
  obtain ⟨⟨node, first, second⟩, hscene⟩ : ∃ scene, redeliveryScene = .ok scene :=
    exists_of_isSome (by decide +kernel)
  obtain ⟨hactive, hnew, hmarked, hraises⟩ := of_map_decide hread hscene
  refine ⟨node, first, second, hscene, hactive, fun honce => ?_⟩
  rw [honce.marked_iff_applied.mp ⟨hnew, hmarked⟩] at hraises
  exact absurd hraises (by simp [Except.isOk, Except.toBool])

end DistributedStateNode

end Network

end QuantumFoundation
