import QuantumFoundation.Distributed.System

/-!
# Exactly once, in order

In a run without `SYNC` steps the cursor of a node moves only when an event is committed.
Whatever way an event takes to a node — submission, release, redelivery, replay, batch —
and however often it comes, the node's log therefore stays a prefix of the event log.
-/

namespace QuantumFoundation

variable {S P : Type*}

/-- The operation does not submit a `SYNC` step. -/
def HubOp.SyncFree : HubOp P → Prop
  | submit proposal _ _ => proposal.stepType ≠ "SYNC"
  | releaseHeldEvents _ | redeliver _ _ | reconcileAll | reconcileNode _
  | mergeEventBatch _ _ => True

instance : DecidablePred (HubOp.SyncFree (P := P))
  | .submit proposal _ _ => inferInstanceAs (Decidable (proposal.stepType ≠ "SYNC"))
  | .releaseHeldEvents _ | .redeliver _ _ | .reconcileAll | .reconcileNode _
  | .mergeEventBatch _ _ => .isTrue trivial

/-- The log holds no `SYNC` event. -/
def SyncFreeLog (log : List (SequencedEvent P)) : Prop := ∀ e ∈ log, e.stepType ≠ "SYNC"

/-- The node follows the event log from state `s₀`, and buffers only what is ahead of its
cursor. -/
structure FollowsLog (A : Adapter S P) (s₀ : S) (log : List (SequencedEvent P))
    (m : DistributedStateNode S P) : Prop extends
    DistributedStateNode.Follows A SequencedEvent.causalId SequencedEvent.toExecutionEvent s₀ log m
    where
  settled : m.inbox.Settled

namespace FollowsLog

variable {A : Adapter S P} {s₀ : S} {L : List (SequencedEvent P)} {m : DistributedStateNode S P}

lemma init (nodeId : String) : FollowsLog A s₀ [] (.new nodeId s₀) where
  toFollows := .init A _ _ nodeId s₀ []
  settled := fun k hk => absurd hk (by simp [DistributedStateNode.inbox, DistributedStateNode.new])

lemma receiveEvent (hA : A.NonRaising) (hL : NumberedFrom SequencedEvent.causalId 1 L)
    (h : FollowsLog A s₀ L m) {e : SequencedEvent P} (he : e ∈ L) :
    FollowsLog A s₀ L (m.receiveEvent A e.toExecutionEvent).1 := by
  obtain ⟨-, l, hoff, -⟩ := m.receiveEvent_offers hA e.toExecutionEvent
  exact ⟨h.toFollows.receiveEvent hA hL (fun _ => rfl) he, hoff.settled h.settled⟩

/-- Nodes that follow the log up to the same id are in the same state. -/
lemma adapterState_eq {m' : DistributedStateNode S P} (h : FollowsLog A s₀ L m)
    (h' : FollowsLog A s₀ L m') (hc : m.nextExpectedCausalId = m'.nextExpectedCausalId) :
    m.adapterState = m'.adapterState := by
  rw [h.state, h'.state, h.log, h'.log, hc]

end FollowsLog

namespace ComputationProtocolHub

variable {A : Adapter S P} {O : SetOrder}

lemma syncFreeLog_exec {hub : ComputationProtocolHub S P} (h : SyncFreeLog hub.eventLog)
    {ops : List (HubOp P)} (hops : ∀ op ∈ ops, op.SyncFree) :
    SyncFreeLog (Run.exec (perform A O) hub ops).eventLog := by
  let I : ComputationProtocolHub S P → Prop := fun hub => SyncFreeLog hub.eventLog
  refine Run.invariant (I := I) (C := fun _ op => op.SyncFree) (fun hub op hlog hop => ?_) h
    (Run.along_of_forall _ fun _ op => hops op)
  show SyncFreeLog (perform A O hub op).eventLog
  rw [perform_eventLog]
  intro e he
  rcases List.mem_append.mp he with he | he
  · exact hlog e he
  · cases op with
    | submit proposal ex de =>
      rw [sequenced] at he
      split at he
      · exact absurd he (by simp)
      · rw [List.mem_singleton.mp he]
        exact hop
    | _ => exact absurd he List.not_mem_nil

/-- Without `SYNC` events in the log, following it is an invariant of every input. -/
lemma followsLog_invariant (hA : A.NonRaising) (s₀ : S) :
    NodeInvariant A (fun _ _ _ => True) fun L m => SyncFreeLog L → FollowsLog A s₀ L m where
  grow := by
    intro L es m hnum h hfree
    have hL := h fun e he => hfree e (List.mem_append_left _ he)
    exact ⟨hL.toFollows.grow hnum, hL.settled⟩
  input := by
    intro L m x hnum hx h _ hfree
    cases x with
    | receive event =>
      obtain ⟨e, he, rfl⟩ := hx
      exact (h hfree).receiveEvent hA hnum he
    | sync causalId =>
      obtain ⟨e, he, hsync, -⟩ := hx
      exact absurd hsync (hfree e he)

/-- In a run without `SYNC` steps, from nodes in state `s₀`, the log stays in order and every
node follows it. -/
lemma followsLog_exec (hA : A.NonRaising) (hr hd : Bool) (ids : List String) (s₀ : S)
    (ops : List (HubOp P)) (hops : ∀ op ∈ ops, op.SyncFree) :
    let hub := Run.exec (perform A O) (withNodes hr hd (ids.map fun i => (i, s₀))) ops
    LogInv hub ∧ SyncFreeLog hub.eventLog ∧
      ∀ n ∈ hub.nodes, FollowsLog A s₀ hub.eventLog n.toDistributedStateNode := by
  have hstart : Holds (fun L m => SyncFreeLog L → FollowsLog A s₀ L m)
      (withNodes (P := P) hr hd (ids.map fun i => (i, s₀))) := by
    refine Holds.withNodes fun m hm _ => ?_
    obtain ⟨i, -, rfl⟩ := List.mem_map.mp hm
    exact .init i
  have hfree : SyncFreeLog (withNodes (P := P) hr hd (ids.map fun i => (i, s₀))).eventLog := by
    rw [withNodes_eventLog]
    exact fun e he => absurd he List.not_mem_nil
  have hend := hstart.exec_of_forall (O := O) hA (followsLog_invariant hA s₀) ops
  have hfree' := syncFreeLog_exec (A := A) (O := O) hfree hops
  exact ⟨hend.toLogInv, hfree', fun n hn => hend.node n hn hfree'⟩

/-- **Exactly once, in order.**  In every run without `SYNC` steps over nodes that start in
state `s₀`, the log carries the ids `1, 2, …`; every node has logged and applied, in order,
the events of the log up to its committed id, each once; and nodes with equal committed
ids are in equal states. -/
theorem exactly_once_in_order (hA : A.NonRaising) (hr hd : Bool) (ids : List String) (s₀ : S)
    (ops : List (HubOp P)) (hops : ∀ op ∈ ops, op.SyncFree) :
    let hub := Run.exec (perform A O) (withNodes hr hd (ids.map fun i => (i, s₀))) ops
    NumberedFrom SequencedEvent.causalId 1 hub.eventLog ∧
      (∀ n ∈ hub.nodes, 0 ≤ n.committedCausalId ∧ n.committedCausalId ≤ hub.eventLog.length ∧
        n.localLog
          = (hub.eventLog.take n.committedCausalId.toNat).map SequencedEvent.toExecutionEvent ∧
        n.adapterState = A.fold s₀ n.localLog) ∧
      ∀ n ∈ hub.nodes, ∀ n' ∈ hub.nodes, n.committedCausalId = n'.committedCausalId →
        n.adapterState = n'.adapterState := by
  intro hub
  obtain ⟨hlog, -, hnodes⟩ := followsLog_exec (O := O) hA hr hd ids s₀ ops hops
  have hprefix : ∀ n ∈ hub.nodes, n.localLog
      = (hub.eventLog.take n.committedCausalId.toNat).map SequencedEvent.toExecutionEvent :=
    fun n hn => (hnodes n hn).localLog_eq_take hlog.numbered
  refine ⟨hlog.numbered, fun n hn => ?_, fun n hn n' hn' hc => ?_⟩
  · have hpos : 0 ≤ n.committedCausalId := Int.sub_nonneg.mpr (hnodes n hn).pos
    have hle : n.committedCausalId ≤ hub.eventLog.length := by
      have : n.nextExpectedCausalId ≤ 1 + hub.eventLog.length := (hnodes n hn).le
      rw [PropagatingStateNode.committedCausalId]
      omega
    exact ⟨hpos, hle, hprefix n hn, (hnodes n hn).state⟩
  · exact (hnodes n hn).adapterState_eq (hnodes n' hn') (sub_left_inj.mp hc)

/-- Two nodes that get three additions in different ways end with the same counter. -/
theorem exactly_once_in_order_mock :
    let ops : List (HubOp (Option ℤ)) :=
      [.submit (addProposal 1) ["B"] [], .submit (addProposal 2) [] ["B"],
        .submit (addProposal 3) ["A"] [], .releaseHeldEvents "B", .reconcileNode "B",
        .redeliver 1 0, .mergeEventBatch 0 [2, 0, 1, 2], .reconcileAll]
    let hub := mockRun ops
    ∀ n ∈ hub.nodes, ∀ n' ∈ hub.nodes, n.committedCausalId = n'.committedCausalId →
      n.adapterState = n'.adapterState :=
  (exactly_once_in_order (mockAdapter_nonRaising id) true true ["A", "B"] 0 _ (by decide)).2.2

end ComputationProtocolHub

end QuantumFoundation
