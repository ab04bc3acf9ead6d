import QuantumFoundation.Distributed.Interruption
import QuantumFoundation.Distributed.PropagatingHub
import QuantumFoundation.Distributed.System

/-!
# What a replay hands to a node

The engine asks the hub for the events behind the node's position up to the reference's.
The hub takes an upper end of zero for a missing one, so the slice up to a reference that
has committed nothing is the whole rest of the log (`getEventSlice_eq_filter_iff`), and a
node that is compared with such a reference may be handed events the reference never saw.
-/

namespace QuantumFoundation

variable {S P : Type*} {A : Adapter S P}

/-! ### What a reception adds to the log -/

namespace DistributedStateNode

/-- Everything that waits in the node is in `es`. -/
def WaitingIn (es : List (ExecutionEvent P)) (m : DistributedStateNode S P) : Prop :=
  ∀ k e, m.eventBuffer.get? k = some e → e ∈ es

/-- A reception logs events that waited, and the received one; what waits afterwards waited
before, or was received. -/
lemma receiveEvent_logs {es : List (ExecutionEvent P)} {m : DistributedStateNode S P}
    (h : WaitingIn es m) {event : ExecutionEvent P} (hmem : event ∈ es) :
    WaitingIn es (deliver A m event) ∧
      ∃ l, (deliver A m event).localLog = m.localLog ++ l ∧ ∀ e ∈ l, e ∈ es := by
  by_cases hlt : event.causalId < m.nextExpectedCausalId
  · rw [deliver, receiveEvent_late hlt]
    exact ⟨h, [], by simp, by simp⟩
  · have hd := receiveEvent_drains (A := A) (not_lt.mp hlt)
    have hwaiting : WaitingIn es (m.buffered event) := by
      intro k e he
      rw [buffered, Dict.get?_set] at he
      split at he
      · rwa [← Option.some.inj he]
      · exact h k e he
    refine ⟨fun k e he => ?_, _, hd.localLog_eq, fun e he => ?_⟩
    · rw [deliver, hd.get?_eq] at he
      split at he
      · exact absurd he (by simp)
      · exact hwaiting k e he
    · obtain ⟨i, hi, rfl⟩ := List.mem_iff_getElem.mp (List.mem_of_mem_take he)
      exact hwaiting _ _ (ReorderBuffer.get?_of_due hi)

/-- Whatever a node is given, it logs only that and what waited in it. -/
lemma deliveries_log {es : List (ExecutionEvent P)} {m : DistributedStateNode S P}
    (h : WaitingIn es m) {ds : List (ExecutionEvent P)} (hds : ∀ d ∈ ds, d ∈ es) :
    ∃ l, (Run.exec (deliver A) m ds).localLog = m.localLog ++ l ∧ ∀ e ∈ l, e ∈ es := by
  induction ds generalizing m with
  | nil => exact ⟨[], by simp, by simp⟩
  | cons d ds ih =>
    obtain ⟨hwaiting, l, hlog, hl⟩ := receiveEvent_logs (A := A) h (hds d List.mem_cons_self)
    obtain ⟨l', hlog', hl'⟩ := ih hwaiting fun e he => hds e (List.mem_cons_of_mem d he)
    refine ⟨l ++ l', ?_, fun e he => (List.mem_append.mp he).elim (hl e) (hl' e)⟩
    rw [Run.exec_cons, hlog', hlog, List.append_assoc]

end DistributedStateNode

/-! ### The events handed over -/

namespace ReconciliationEngine

open DistributedStateNode (deliver)

/-- The events among `es` that the replay loop hands to `receive_event`. -/
def handedOver (A : Adapter S P) : List (ExecutionEvent P) → DistributedStateNode S P →
    List (ExecutionEvent P)
  | [], _ => []
  | event :: rest, m =>
    if event.causalId < m.nextExpectedCausalId then handedOver A rest m
    else
      match m.receiveEvent A event with
      | (_, some _) => [event]
      | (m', none) => event :: handedOver A rest m'

/-- All the replay loop does to the node is to hand it these events. -/
lemma replayLoop_eq_deliveries (es : List (ExecutionEvent P)) (m : DistributedStateNode S P)
    (rec : ReplayRecord) :
    (replayLoop A es m rec).1 = Run.exec (deliver A) m (handedOver A es m) := by
  induction es generalizing m rec with
  | nil => rfl
  | cons event rest ih =>
    rw [replayLoop, handedOver]
    split
    · exact ih m _
    · rcases hm : m.receiveEvent A event with ⟨m', _ | exc⟩
      · simp only [Run.exec_cons, deliver, hm]
        exact ih m' _
      · simp only [Run.exec_cons, Run.exec_nil, deliver, hm]

lemma mem_of_mem_handedOver {es : List (ExecutionEvent P)} {m : DistributedStateNode S P}
    {e : ExecutionEvent P} (h : e ∈ handedOver A es m) : e ∈ es := by
  induction es generalizing m with
  | nil => exact absurd h List.not_mem_nil
  | cons event rest ih =>
    rw [handedOver] at h
    split at h
    · exact List.mem_cons_of_mem event (ih h)
    · rcases hm : m.receiveEvent A event with ⟨m', _ | exc⟩
      · simp only [hm, List.mem_cons] at h
        exact List.mem_cons.mpr (h.imp_right ih)
      · simp only [hm, List.mem_singleton] at h
        rw [h]
        exact List.mem_cons_self

/-- If none of the events is behind the cursor, the first one is handed over. -/
lemma exists_mem_handedOver {es : List (ExecutionEvent P)} {m : DistributedStateNode S P}
    (hne : es ≠ []) (h : ∀ e ∈ es, m.nextExpectedCausalId ≤ e.causalId) :
    ∃ e, e ∈ handedOver A es m := by
  cases es with
  | nil => exact absurd rfl hne
  | cons event rest =>
    refine ⟨event, ?_⟩
    rw [handedOver, if_neg (not_lt.mpr (h event List.mem_cons_self))]
    rcases m.receiveEvent A event with ⟨m', _ | exc⟩ <;> exact List.mem_cons_self

end ReconciliationEngine

namespace ComputationProtocolHub

open ReconciliationEngine

/-- The engine does not take the node for being in step with the reference. -/
def NeedsReplay (A : Adapter S P) (n ref : ProtocolNode S P) : Prop :=
  n.committedCausalId < ref.committedCausalId ∨ n.isPartial = true ∨
    n.getStateHash A ≠ ref.getStateHash A

instance (A : Adapter S P) (n ref : ProtocolNode S P) : Decidable (NeedsReplay A n ref) :=
  inferInstanceAs (Decidable (_ ∨ _ ∨ _))

/-- The events that reconciliation against a reference hands to a node. -/
def handed (A : Adapter S P) (hub : ComputationProtocolHub S P) (n ref : ProtocolNode S P) :
    List (ExecutionEvent P) :=
  if NeedsReplay A n ref then
    handedOver A (sortEvents (missingEvents hub n ref.committedCausalId)) n.toDistributedStateNode
  else []

/-- All that reconciliation does to a node is to hand it these events. -/
lemma reconcileOne_eq_deliveries (hub : ComputationProtocolHub S P) (n ref : ProtocolNode S P) :
    (reconcileOne A hub n ref.committedCausalId (ref.getStateHash A)).1.toDistributedStateNode
      = Run.exec (DistributedStateNode.deliver A) n.toDistributedStateNode
          (handed A hub n ref) := by
  have htest : (!(decide (n.committedCausalId < ref.committedCausalId) || n.isPartial) &&
      decide (n.getStateHash A = ref.getStateHash A)) = true ↔ ¬NeedsReplay A n ref := by
    simp only [NeedsReplay, Bool.and_eq_true, Bool.not_eq_true', Bool.or_eq_false_iff,
      decide_eq_false_iff_not, decide_eq_true_eq, not_or, Bool.not_eq_true, not_not, and_assoc]
  rw [reconcileOne, handed]
  dsimp only
  by_cases h : NeedsReplay A n ref
  · rw [if_neg (fun hskip => htest.mp hskip h), if_pos h]
    exact replayLoop_eq_deliveries _ _ _
  · rw [if_pos (htest.mpr h), if_neg h]
    rfl

/-- The nodes that a call of the engine reconciles, each with its reference. -/
def reconciledBy (hub : ComputationProtocolHub S P) :
    HubOp P → List (ProtocolNode S P × ProtocolNode S P)
  | .reconcileAll =>
    (mostAdvanced hub.nodes).toList.flatMap fun ref =>
      (hub.nodes.filter fun n => n.nodeId ≠ ref.nodeId).map fun n => (n, ref)
  | .reconcileNode nodeId =>
    (hub.findNode nodeId).toList.flatMap fun i =>
      (mostAdvanced (hub.nodes.filter fun n => n.nodeId ≠ nodeId)).toList.map
        fun ref => (hub.nodes.get i, ref)
  | _ => []

/-- What is handed to the node are events of the log behind its position, and none behind
the reference's. -/
def HandsWithin (A : Adapter S P) (hub : ComputationProtocolHub S P) (n ref : ProtocolNode S P) :
    Prop :=
  ∀ e ∈ handed A hub n ref, (∃ se ∈ hub.eventLog, e = se.toExecutionEvent) ∧
    n.committedCausalId < e.causalId ∧ e.causalId ≤ ref.committedCausalId

instance [DecidableEq P] (A : Adapter S P) (hub : ComputationProtocolHub S P)
    (n ref : ProtocolNode S P) : Decidable (HandsWithin A hub n ref) :=
  inferInstanceAs (Decidable (∀ e ∈ handed A hub n ref, (∃ se ∈ hub.eventLog,
    e = se.toExecutionEvent) ∧ n.committedCausalId < e.causalId ∧
      e.causalId ≤ ref.committedCausalId))

variable {hub : ComputationProtocolHub S P} {n ref : ProtocolNode S P}

/-! ### The slice of the log -/

lemma getEventSlice_of_ne {t : ℤ} (ht : t ≠ 0) (f : ℤ) : hub.getEventSlice f (some t)
    = hub.eventLog.filter fun e => f ≤ e.causalId ∧ e.causalId ≤ t := by
  rw [getEventSlice, Option.getD_some, if_neg ht]

/-- Up to zero the hub gives out everything from the lower end on. -/
lemma getEventSlice_zero (h : LogInv hub) (f : ℤ) : hub.getEventSlice f (some 0)
    = hub.eventLog.filter fun e => f ≤ e.causalId := by
  rw [getEventSlice, Option.getD_some, if_pos rfl]
  refine List.filter_congr fun e he => ?_
  have hbounds := h.numbered.bounds he
  have hnext := h.next
  simp only [decide_eq_decide, and_iff_left_iff_imp]
  omega

/-- Nothing in the log is numbered zero. -/
lemma filter_up_to_zero (h : LogInv hub) (f : ℤ) :
    (hub.eventLog.filter fun e => f ≤ e.causalId ∧ e.causalId ≤ 0) = [] := by
  refine List.filter_eq_nil_iff.mpr fun e he => ?_
  have := (h.numbered.bounds he).1
  simp only [decide_eq_true_eq]
  omega

/-- The slice up to zero is empty if the log ends before the lower end. -/
lemma getEventSlice_zero_eq_nil_iff (h : LogInv hub) (f : ℤ) :
    hub.getEventSlice f (some 0) = [] ↔ ∀ e ∈ hub.eventLog, e.causalId < f := by
  rw [getEventSlice_zero h, List.filter_eq_nil_iff]
  simp

/-- **The slice is what it is asked for**, except up to zero, where it has to be empty. -/
theorem getEventSlice_eq_filter_iff (h : LogInv hub) (f t : ℤ) :
    (hub.getEventSlice f (some t)
        = hub.eventLog.filter fun e => f ≤ e.causalId ∧ e.causalId ≤ t) ↔
      (t = 0 → ∀ e ∈ hub.eventLog, e.causalId < f) := by
  by_cases ht : t = 0
  · subst ht
    rw [filter_up_to_zero h, getEventSlice_zero_eq_nil_iff h, imp_iff_right rfl]
  · exact iff_of_true (getEventSlice_of_ne ht f) fun h0 => absurd h0 ht

/-- **The slice of a propagating hub** with the same log is the same, except up to zero. -/
theorem getEventSlice_eq_sibling_iff (h : LogInv hub) {N : Type*} {sibling : PropagatingHub N P}
    (hlog : sibling.eventLog = hub.eventLog.map SequencedEvent.toExecutionEvent) (f t : ℤ) :
    (hub.getEventSlice f (some t)).map SequencedEvent.toExecutionEvent
        = sibling.getEventSlice f (some t) ↔
      (t = 0 → ∀ e ∈ hub.eventLog, e.causalId < f) := by
  have hsibling : sibling.getEventSlice f (some t)
      = (hub.eventLog.filter fun e => f ≤ e.causalId ∧ e.causalId ≤ t).map
          SequencedEvent.toExecutionEvent := by
    rw [PropagatingHub.getEventSlice, hlog, List.filter_map]
    rfl
  rw [hsibling]
  by_cases ht : t = 0
  · subst ht
    rw [filter_up_to_zero h, List.map_nil, List.map_eq_nil_iff, getEventSlice_zero_eq_nil_iff h,
      imp_iff_right rfl]
  · rw [getEventSlice_of_ne ht]
    exact iff_of_true rfl fun h0 => absurd h0 ht

/-! ### The exact condition -/

lemma mem_missingEvents_of_ne (hne : ref.committedCausalId ≠ 0) {e : ExecutionEvent P}
    (h : e ∈ missingEvents hub n ref.committedCausalId) :
    (∃ se ∈ hub.eventLog, e = se.toExecutionEvent) ∧
      n.committedCausalId < e.causalId ∧ e.causalId ≤ ref.committedCausalId := by
  obtain ⟨se, hse, rfl⟩ := List.mem_map.mp h
  rw [getEventSlice_of_ne hne, List.mem_filter, List.mem_filter] at hse
  obtain ⟨⟨hmem, hrange⟩, -⟩ := hse
  have hrange : n.committedCausalId + 1 ≤ se.causalId ∧ se.causalId ≤ ref.committedCausalId := by
    simpa using hrange
  exact ⟨⟨se, hmem, rfl⟩, by rw [SequencedEvent.toExecutionEvent_causalId]; omega, hrange.2⟩

/-- What is missing up to a reference that has committed nothing. -/
lemma mem_missingEvents_zero (h : LogInv hub) {e : ExecutionEvent P} :
    e ∈ missingEvents hub n 0 ↔ ∃ se ∈ hub.eventLog,
      n.committedCausalId < se.causalId ∧ se.stepType ≠ "SYNC" ∧ e = se.toExecutionEvent := by
  rw [missingEvents, getEventSlice_zero h]
  simp only [List.mem_map, List.mem_filter, decide_eq_true_eq, Int.add_one_le_iff, and_assoc,
    eq_comm (a := e)]

/-- **Exact condition for one node.** -/
theorem handsWithin_iff (h : LogInv hub) (n ref : ProtocolNode S P) :
    HandsWithin A hub n ref ↔ (ref.committedCausalId = 0 → NeedsReplay A n ref →
      ∀ se ∈ hub.eventLog, n.committedCausalId < se.causalId → se.stepType = "SYNC") := by
  constructor
  · intro hwithin hzero hneeds se hse hlt
    by_contra hsync
    -- the first missing event is handed over, and is behind the reference
    have hmem : ∀ e, e ∈ sortEvents (missingEvents hub n ref.committedCausalId) ↔
        ∃ se ∈ hub.eventLog, n.committedCausalId < se.causalId ∧ se.stepType ≠ "SYNC" ∧
          e = se.toExecutionEvent := fun e => by
      rw [mem_sortEvents, hzero, mem_missingEvents_zero h]
    have hne := List.ne_nil_of_mem ((hmem _).mpr ⟨se, hse, hlt, hsync, rfl⟩)
    obtain ⟨e, he⟩ := exists_mem_handedOver (A := A) (m := n.toDistributedStateNode) hne
      fun e he => by
        obtain ⟨se, -, hlt, -, rfl⟩ := (hmem e).mp he
        exact Int.sub_one_lt_iff.mp hlt
    obtain ⟨⟨se', hse', rfl⟩, -, hle⟩ := hwithin e (by rwa [handed, if_pos hneeds])
    have := (h.numbered.bounds hse').1
    rw [SequencedEvent.toExecutionEvent_causalId] at hle
    omega
  · intro hcond e he
    rw [handed] at he
    split at he
    · next hneeds =>
      have hmissing := mem_sortEvents.mp (mem_of_mem_handedOver he)
      by_cases hzero : ref.committedCausalId = 0
      · rw [hzero, mem_missingEvents_zero h] at hmissing
        obtain ⟨se, hse, hlt, hsync, -⟩ := hmissing
        exact absurd (hcond hzero hneeds se hse hlt) hsync
      · exact mem_missingEvents_of_ne hzero hmissing
    · exact absurd he List.not_mem_nil

/-- **What reconciliation can push a node to.**  Where it hands over no event behind the
reference's position, everything it makes the node log from behind that position waited in
the node before. -/
theorem logged_beyond_reference (h : HandsWithin A hub n ref) :
    ∃ l, (reconcileOne A hub n ref.committedCausalId (ref.getStateHash A)).1.localLog
        = n.localLog ++ l ∧
      ∀ e ∈ l, ref.committedCausalId < e.causalId → e ∈ n.eventBuffer.values := by
  have hwaiting : n.toDistributedStateNode.WaitingIn
      (handed A hub n ref ++ n.eventBuffer.values) := fun k e he =>
    List.mem_append_right _ (Dict.mem_values.mpr ⟨k, he⟩)
  have hhanded : ∀ d ∈ handed A hub n ref, d ∈ handed A hub n ref ++ n.eventBuffer.values :=
    fun d hd => List.mem_append_left _ hd
  obtain ⟨l, hlog, hl⟩ := DistributedStateNode.deliveries_log (A := A) hwaiting hhanded
  refine ⟨l, ?_, fun e he hlt => ?_⟩
  · rw [reconcileOne_eq_deliveries, hlog]
  · rcases List.mem_append.mp (hl e he) with hhanded | hbuffered
    · exact absurd (h e hhanded).2.2 (not_le.mpr hlt)
    · exact hbuffered

/-- **What a replay hands over.**  In every reachable state, whatever the adapters raise: the
hub's slice of the log consists of the events in the range it was asked for exactly if the
upper end is not zero or nothing is in the log from the lower end on, and then it is the slice
that a propagating hub with the same log gives out; and a call of the engine hands a node only
events of the log between the node's position and the reference's exactly if the reference has
committed something, or the node is taken for being in step, or all that is in the log behind its
position are `SYNC` steps. -/
theorem replay_range_iff {N : Type*} (A : Adapter S P) (O : SetOrder) (hr hd : Bool)
    (members : List (String × S)) (ops : List (HubOp P)) :
    let hub := Run.exec (perform A O) (withNodes hr hd members) ops
    (∀ f t, (hub.getEventSlice f (some t)
          = hub.eventLog.filter fun e => f ≤ e.causalId ∧ e.causalId ≤ t) ↔
        (t = 0 → ∀ e ∈ hub.eventLog, e.causalId < f)) ∧
      (∀ sibling : PropagatingHub N P,
        sibling.eventLog = hub.eventLog.map SequencedEvent.toExecutionEvent →
        ∀ f t, (hub.getEventSlice f (some t)).map SequencedEvent.toExecutionEvent
            = sibling.getEventSlice f (some t) ↔
          (t = 0 → ∀ e ∈ hub.eventLog, e.causalId < f)) ∧
      ∀ op, ∀ p ∈ hub.reconciledBy op, HandsWithin A hub p.1 p.2 ↔
        (p.2.committedCausalId = 0 → NeedsReplay A p.1 p.2 →
          ∀ se ∈ hub.eventLog, p.1.committedCausalId < se.causalId → se.stepType = "SYNC") := by
  intro hub
  have hlog : LogInv hub :=
    Run.invariant_of_forall (fun _ op h => h.perform op) (LogInv.withNodes hr hd members) ops
  exact ⟨fun f t => getEventSlice_eq_filter_iff hlog f t,
    fun _ hsame f t => getEventSlice_eq_sibling_iff hlog hsame f t,
    fun _ p _ => handsWithin_iff hlog p.1 p.2⟩

/-- Node `B` missed the first event and holds the second; node `A`, the reference, has seen
neither.  The first event is handed to `B`, although the reference is at position 0, and `B`
ends up at position 2. -/
theorem replay_beyond_idle_reference :
    let hub := mockRun [.submit (addProposal 1) ["A", "B"] [], .submit (addProposal 2) ["A"] []]
    (∃ p ∈ hub.reconciledBy .reconcileAll,
        p.2.committedCausalId = 0 ∧ ¬HandsWithin (mockAdapter id) hub p.1 p.2) ∧
      hub.getEventSlice 1 (some 0)
        ≠ (hub.eventLog.filter fun e => 1 ≤ e.causalId ∧ e.causalId ≤ 0) ∧
      (reconcileAll (mockAdapter id) hub).1.nodes.map (·.committedCausalId) = [0, 2] := by
  decide

end ComputationProtocolHub

end QuantumFoundation
