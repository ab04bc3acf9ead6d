import QuantumFoundation.Distributed.Convergence
import QuantumFoundation.Distributed.MergeReport
import QuantumFoundation.Distributed.PropagatingHub

/-!
# Snapshots

A node of `distributed_state_propagation.py` can export a snapshot of its state, stamped with the
last id it has applied, and keeps it under that id.  A snapshot is never written back: other nodes
compare their state with it, and catch up with it by merging a slice of the hub's log.

What a snapshot says depends on its stamp alone, whichever node has exported it, and whatever was
excluded, delayed, released or merged before: it is the state of a replay of the log up to the
stamp (`StateSnapshot.Of`).  So comparing with a snapshot is comparing positions.
-/

namespace QuantumFoundation

/-- `StateSnapshot`.  The time of the capture is left out. -/
structure StateSnapshot (D : Type*) where
  nodeId : String
  lastAppliedCausalId : ℤ
  stateHash : String
  /-- What `to_dict` of the adapter returns. -/
  domainStateDict : D
deriving DecidableEq

/-- A propagating node with its `_snapshot_history`. -/
structure SnapshotNode (S P D : Type*) extends PropagatingStateNode S P where
  /-- The last snapshot that was taken at an id. -/
  snapshotHistory : Dict ℤ (StateSnapshot D)

variable {S P D : Type*} (A : Adapter S P) (toDict : S → D)

namespace StateSnapshot

/-- `__eq__`: the hash and the stamp are compared, not the node. -/
def eq (snap other : StateSnapshot D) : Bool :=
  snap.stateHash = other.stateHash ∧ snap.lastAppliedCausalId = other.lastAppliedCausalId

end StateSnapshot

namespace SnapshotNode

/-- A fresh node. -/
def new (nodeId : String) (s : S) : SnapshotNode S P D where
  toPropagatingStateNode := .new nodeId s
  snapshotHistory := .empty

/-- `export_snapshot`. -/
def exportSnapshot (n : SnapshotNode S P D) : SnapshotNode S P D × StateSnapshot D :=
  let snap : StateSnapshot D :=
    { nodeId := n.nodeId
      lastAppliedCausalId := n.nextExpectedCausalId - 1
      stateHash := n.getStateHash A
      domainStateDict := toDict n.adapterState }
  ({ n with snapshotHistory := n.snapshotHistory.set snap.lastAppliedCausalId snap }, snap)

/-- `get_snapshot_at`. -/
def getSnapshotAt (n : SnapshotNode S P D) (causalId : ℤ) : Option (StateSnapshot D) :=
  n.snapshotHistory.get? causalId

/-- `merge_event_batch` of a node with a history. -/
def mergeBatch (events : List (ExecutionEvent P)) (n : SnapshotNode S P D) :
    SnapshotNode S P D × MergeResult :=
  match n.toPropagatingStateNode.mergeEventBatch A events with
  | (m, res) => ({ n with toPropagatingStateNode := m }, res)

/-- `verify_matches_snapshot`. -/
def verifyMatchesSnapshot (n : SnapshotNode S P D) (snapshot : StateSnapshot D) : Bool :=
  n.getStateHash A = snapshot.stateHash ∧ n.committedCausalId = snapshot.lastAppliedCausalId

/-- Nodes with a history as receivers. -/
def receiver : Receiver (SnapshotNode S P D) P where
  nodeId n := n.nodeId
  receiveEvent event n :=
    ({ n with toDistributedStateNode := (n.toDistributedStateNode.receiveEvent A event).1 },
      (n.toDistributedStateNode.receiveEvent A event).2)

end SnapshotNode

namespace PropagatingHub

/-- What happens to a hub and its nodes, at a position in the hub's list. -/
inductive SnapshotOp (P : Type*)
  /-- A fresh node is registered. -/
  | registerNode (nodeId : String)
  | broadcast (rawEvent : ExecutionEvent P) (excludeNodes delayNodes : List String)
  | releaseHeldEvents (nodeId : String)
  /-- A node merges a slice of the log. -/
  | mergeSlice (i : ℕ) (fromCausalId : ℤ) (toCausalId : Option ℤ)
  | exportSnapshot (i : ℕ)

/-- One operation; the fresh nodes are in state `s₀`. -/
def performSnapshot (s₀ : S) (hub : PropagatingHub (SnapshotNode S P D) P) :
    SnapshotOp P → PropagatingHub (SnapshotNode S P D) P
  | .registerNode nodeId => hub.registerNode (SnapshotNode.receiver A) (.new nodeId s₀)
  | .broadcast rawEvent ex de => (hub.broadcast (SnapshotNode.receiver A) rawEvent ex de).1
  | .releaseHeldEvents nodeId => (hub.releaseHeldEvents (SnapshotNode.receiver A) nodeId).1
  | .mergeSlice i fromCausalId toCausalId =>
    { hub with
      nodes := hub.nodes.modify i fun n =>
        (n.mergeBatch A (hub.getEventSlice fromCausalId toCausalId)).1 }
  | .exportSnapshot i =>
    { hub with nodes := hub.nodes.modify i fun n => (n.exportSnapshot A toDict).1 }

end PropagatingHub

/-! ### What the operations of a hub do to its nodes -/

namespace PropagatingHub

variable {N : Type*} {R : Receiver N P}

/-- A node after the delivery loop is one before it, or has received the event. -/
lemma mem_broadcastLoop_cases {event : ExecutionEvent P} {ex de : List String} {ns : List N}
    {held : Dict String (List (ExecutionEvent P))} {n' : N}
    (h : n' ∈ (broadcastLoop R event ex de ns held).1) :
    ∃ n ∈ ns, n' = n ∨ n' = (R.receiveEvent event n).1 := by
  induction ns generalizing held with
  | nil => exact absurd h List.not_mem_nil
  | cons n ns ih =>
    have hrest : ∀ {held'}, n' ∈ (broadcastLoop R event ex de ns held').1 →
        ∃ m ∈ n :: ns, n' = m ∨ n' = (R.receiveEvent event m).1 := fun h' => by
      obtain ⟨m, hm, hmn⟩ := ih h'
      exact ⟨m, List.mem_cons_of_mem _ hm, hmn⟩
    rw [broadcastLoop] at h
    split at h
    · rcases List.mem_cons.mp h with rfl | h
      · exact ⟨n', List.mem_cons_self, Or.inl rfl⟩
      · exact hrest h
    · split at h
      · rcases List.mem_cons.mp h with rfl | h
        · exact ⟨n', List.mem_cons_self, Or.inl rfl⟩
        · exact hrest h
      · rcases hr : R.receiveEvent event n with ⟨m, _ | exc⟩
        · rw [hr] at h
          rcases List.mem_cons.mp h with rfl | h
          · exact ⟨n, List.mem_cons_self, Or.inr (congrArg Prod.fst hr).symm⟩
          · exact hrest h
        · rw [hr] at h
          rcases List.mem_cons.mp h with rfl | h
          · exact ⟨n, List.mem_cons_self, Or.inr (congrArg Prod.fst hr).symm⟩
          · exact ⟨n', List.mem_cons_of_mem _ h, Or.inl rfl⟩

/-- The loop holds back the event only. -/
lemma listsIn_broadcastLoop {event : ExecutionEvent P} {ex de : List String}
    {L : List (ExecutionEvent P)} (hL : event ∈ L) (ns : List N)
    {held : Dict String (List (ExecutionEvent P))} (h : held.ListsIn L) :
    (broadcastLoop R event ex de ns held).2.1.ListsIn L := by
  induction ns generalizing held with
  | nil => exact h
  | cons n ns ih =>
    rw [broadcastLoop]
    split
    · exact ih h
    · split
      · exact ih (h.modify_append _ hL)
      · rcases R.receiveEvent event n with ⟨m, _ | exc⟩
        · exact ih h
        · exact h

/-- What every reception of a held event keeps is kept by a release. -/
lemma releaseLoop_keeps {I : N → Prop} {held : List (ExecutionEvent P)}
    (hI : ∀ n, ∀ e ∈ held, I n → I (R.receiveEvent e n).1) {n : N} (h : I n) :
    I (releaseLoop R held n).1 := by
  induction held generalizing n with
  | nil => exact h
  | cons event held ih =>
    have hnext := hI n event List.mem_cons_self h
    rw [releaseLoop]
    rcases hr : R.receiveEvent event n with ⟨m, _ | exc⟩
    · rw [hr] at hnext
      exact ih (fun n e he => hI n e (List.mem_cons_of_mem _ he)) hnext
    · rwa [hr] at hnext

/-- A slice of the log is part of the log. -/
lemma getEventSlice_subset (hub : PropagatingHub N P) (fromCausalId : ℤ)
    (toCausalId : Option ℤ) : hub.getEventSlice fromCausalId toCausalId ⊆ hub.eventLog :=
  fun _ he => (List.mem_filter.mp he).1

end PropagatingHub

/-! ### Merging a slice -/

section Merge

variable {A : Adapter S P} {n : PropagatingStateNode S P} {events : List (ExecutionEvent P)}

open DistributedStateNode PropagatingStateNode

/-- Merging is receiving the events in the order of their ids. -/
lemma mergeEventBatch_core (hA : A.NonRaising) :
    (n.mergeEventBatch A events).1.toDistributedStateNode
      = Run.exec (input A) n.toDistributedStateNode ((sortEvents events).map .receive) := by
  rw [← mergeLoop_core hA _ _ ⟨[], [], [], "", true, none⟩]
  rfl

lemma mergeEventBatch_success (hA : A.NonRaising) :
    (n.mergeEventBatch A events).2.success = true := by
  by_contra hfail
  rw [Bool.not_eq_true] at hfail
  obtain ⟨before, event, -, -, hraise, -⟩ :=
    mergeLoop_failed (A := A) (sortEvents events) n (r := ⟨[], [], [], "", true, none⟩) rfl hfail
  exact hraise (receiveEvent_offers hA event _).1

end Merge

/-! ### What a snapshot says -/

section Keeps

variable {A : Adapter S P} {toDict : S → D} {s₀ : S} {L : List (ExecutionEvent P)}

/-- The snapshot is that of the given node at position `k` of the log: it describes the state after
a replay of the first `k` events. -/
structure StateSnapshot.Of (A : Adapter S P) (toDict : S → D) (s₀ : S) (L : List (ExecutionEvent P))
    (nodeId : String) (k : ℤ) (snap : StateSnapshot D) : Prop where
  stamp : snap.lastAppliedCausalId = k
  nodeId_eq : snap.nodeId = nodeId
  nonneg : 0 ≤ k
  le : k ≤ L.length
  hash : snap.stateHash = A.getStateHash (A.fold s₀ (L.take k.toNat))
  dict : snap.domainStateDict = toDict (A.fold s₀ (L.take k.toNat))

/-- The log grows behind the stamp. -/
lemma StateSnapshot.Of.grow {nodeId : String} {k : ℤ} {snap : StateSnapshot D}
    (h : snap.Of A toDict s₀ L nodeId k) (M : List (ExecutionEvent P)) :
    snap.Of A toDict s₀ (L ++ M) nodeId k := by
  have hnonneg := h.nonneg
  have hle := h.le
  have htake : (L ++ M).take k.toNat = L.take k.toNat := List.take_append_of_le_length (by omega)
  exact ⟨h.stamp, h.nodeId_eq, hnonneg, hle.trans (by simp), htake ▸ h.hash, htake ▸ h.dict⟩

/-- Snapshots of two nodes are equal exactly if their positions are. -/
lemma StateSnapshot.Of.eq_iff {nodeId otherId : String} {j k : ℤ} {snap other : StateSnapshot D}
    (h : snap.Of A toDict s₀ L nodeId k) (h' : other.Of A toDict s₀ L otherId j) :
    snap.eq other = true ↔ k = j := by
  rw [StateSnapshot.eq, decide_eq_true_iff, h.stamp, h'.stamp, and_iff_right_iff_imp]
  rintro rfl
  rw [h.hash, h'.hash]

/-- A node that follows the log, buffers only what is ahead, and has kept true snapshots. -/
structure Keeps (A : Adapter S P) (toDict : S → D) (s₀ : S) (L : List (ExecutionEvent P))
    (n : SnapshotNode S P D) : Prop extends DistributedStateNode.Follows A ExecutionEvent.causalId
    (fun e => e) s₀ L n.toDistributedStateNode where
  settled : n.inbox.Settled
  history : ∀ k snap, n.snapshotHistory.get? k = some snap → snap.Of A toDict s₀ L n.nodeId k

namespace Keeps

variable {n : SnapshotNode S P D}

lemma init (nodeId : String) : Keeps A toDict s₀ L (.new nodeId s₀) where
  toFollows := .init A _ _ nodeId s₀ L
  settled k hk := absurd hk (by
    simp [DistributedStateNode.inbox, SnapshotNode.new, PropagatingStateNode.new,
      DistributedStateNode.new])
  history k snap hsnap := absurd hsnap (by simp [SnapshotNode.new])

lemma grow {M : List (ExecutionEvent P)} (hL : NumberedFrom ExecutionEvent.causalId 1 (L ++ M))
    (h : Keeps A toDict s₀ L n) : Keeps A toDict s₀ (L ++ M) n where
  toFollows := h.toFollows.grow hL
  settled := h.settled
  history k snap hsnap := (h.history k snap hsnap).grow M

/-- The state of the node is that of its position. -/
lemma adapterState_eq (hL : NumberedFrom ExecutionEvent.causalId 1 L)
    (h : Keeps A toDict s₀ L n) :
    n.adapterState = A.fold s₀ (L.take n.committedCausalId.toNat) := by
  rw [h.state, h.localLog_eq_take hL, List.map_id']
  rfl

/-- Receptions of events of the log. -/
lemma exec (hA : A.NonRaising) (hL : NumberedFrom ExecutionEvent.causalId 1 L)
    (h : Keeps A toDict s₀ L n) {es : List (ExecutionEvent P)} (hes : es ⊆ L)
    {n' : SnapshotNode S P D} (hn' : n'.toDistributedStateNode
      = Run.exec (DistributedStateNode.input A) n.toDistributedStateNode (es.map .receive))
    (hhistory : n'.snapshotHistory = n.snapshotHistory) : Keeps A toDict s₀ L n' := by
  have hfollows : (DistributedStateNode.Follows A ExecutionEvent.causalId (fun e => e) s₀ L
      n'.toDistributedStateNode) ∧ n'.nodeId = n.nodeId := by
    rw [hn']
    refine Run.invariant_of_mem (I := fun m => DistributedStateNode.Follows A
      ExecutionEvent.causalId (fun e => e) s₀ L m ∧ m.nodeId = n.nodeId) (fun m x hx hm => ?_)
      ⟨h.toFollows, rfl⟩
    obtain ⟨e, he, rfl⟩ := List.mem_map.mp hx
    exact ⟨hm.1.receiveEvent hA hL (fun _ => rfl) (hes he),
      (DistributedStateNode.receiveEvent_nodeId e m).trans hm.2⟩
  refine ⟨hfollows.1, ?_, fun k snap hsnap => ?_⟩
  · rw [hn']
    exact DistributedStateNode.settled_exec hA es h.settled
  · rw [hfollows.2]
    exact h.history k snap (hhistory ▸ hsnap)

lemma receiveEvent (hA : A.NonRaising) (hL : NumberedFrom ExecutionEvent.causalId 1 L)
    (h : Keeps A toDict s₀ L n) {e : ExecutionEvent P} (he : e ∈ L) :
    Keeps A toDict s₀ L ((SnapshotNode.receiver A).receiveEvent e n).1 :=
  have hes : [e] ⊆ L := List.cons_subset.mpr ⟨he, List.nil_subset _⟩
  h.exec hA hL hes rfl rfl

lemma mergeBatch (hA : A.NonRaising) (hL : NumberedFrom ExecutionEvent.causalId 1 L)
    (h : Keeps A toDict s₀ L n) {events : List (ExecutionEvent P)} (hevents : events ⊆ L) :
    Keeps A toDict s₀ L (n.mergeBatch A events).1 :=
  have hes : sortEvents events ⊆ L := fun _ he => hevents (mem_sortEvents.mp he)
  h.exec hA hL hes (mergeEventBatch_core hA) rfl

/-- An exported snapshot tells the truth. -/
lemma exportSnapshot (hL : NumberedFrom ExecutionEvent.causalId 1 L)
    (h : Keeps A toDict s₀ L n) : Keeps A toDict s₀ L (n.exportSnapshot A toDict).1 where
  toFollows := h.toFollows
  settled := h.settled
  history k snap hsnap := by
    rw [SnapshotNode.exportSnapshot, Dict.get?_set] at hsnap
    split at hsnap
    · next hk =>
      have hpos := h.pos
      have hle := h.le
      have hstate := h.adapterState_eq hL
      obtain rfl := Option.some.inj hsnap
      subst hk
      exact ⟨rfl, rfl, by dsimp only; omega, by dsimp only; omega, congrArg A.getStateHash hstate,
        congrArg toDict hstate⟩
    · exact h.history k snap hsnap

/-- Comparing with a true snapshot is comparing positions. -/
lemma verifyMatchesSnapshot_iff (hL : NumberedFrom ExecutionEvent.causalId 1 L)
    (h : Keeps A toDict s₀ L n) {nodeId : String} {k : ℤ} {snap : StateSnapshot D}
    (hsnap : snap.Of A toDict s₀ L nodeId k) :
    n.verifyMatchesSnapshot A snap = true ↔ n.committedCausalId = k := by
  rw [SnapshotNode.verifyMatchesSnapshot, decide_eq_true_iff, hsnap.stamp, and_iff_right_iff_imp]
  rintro rfl
  rw [hsnap.hash, ← h.adapterState_eq hL]
  rfl

/-- **Catching up.**  Merging what the log has behind the node, up to the stamp, takes the node to
the stamp unless it is past it, or the event behind the stamp waits in its buffer. -/
theorem mergeSlice_iff (hA : A.NonRaising) {hub : PropagatingHub (SnapshotNode S P D) P}
    (hL : NumberedFrom ExecutionEvent.causalId 1 hub.eventLog)
    (h : Keeps A toDict s₀ hub.eventLog n) {k : ℤ} (hk : k ≤ hub.eventLog.length) :
    (n.mergeBatch A (hub.getEventSlice (n.committedCausalId + 1) (some k))).1.committedCausalId = k
      ↔ n.committedCausalId ≤ k ∧ k + 1 ∉ n.pendingCausalIds := by
  have hcommitted : n.committedCausalId = n.nextExpectedCausalId - 1 := rfl
  have hpending : k + 1 ∈ n.pendingCausalIds ↔ k + 1 ∈ n.inbox.pending.keys :=
    List.mem_insertionSort _
  have hkeeps := h.mergeBatch hA hL (hub.getEventSlice_subset (n.committedCausalId + 1) (some k))
  set n' := (n.mergeBatch A (hub.getEventSlice (n.committedCausalId + 1) (some k))).1
  have hcommitted' : n'.committedCausalId = n'.nextExpectedCausalId - 1 := rfl
  have hreceived : ∀ j, j ∈ n'.inbox.received ↔ (j < n.nextExpectedCausalId ∨
      j ∈ n.inbox.pending.keys) ∨ ∃ e ∈ hub.eventLog,
        (n.nextExpectedCausalId ≤ e.causalId ∧ e.causalId ≤ k) ∧ e.causalId = j := fun j => by
    have hexec : n'.toDistributedStateNode = _ := mergeEventBatch_core hA
    rw [hexec, DistributedStateNode.received_exec hA, Set.mem_union, ReorderBuffer.mem_received]
    simp only [Set.mem_ofPred_eq, mem_sortEvents, PropagatingHub.getEventSlice, List.mem_filter,
      decide_eq_true_eq, Option.getD_some, hcommitted, sub_add_cancel, and_assoc]
    exact Iff.rfl
  rw [hpending, hcommitted', sub_eq_iff_eq_add]
  constructor
  · intro hcur
    have hnot : k + 1 ∉ n'.inbox.received := by
      rw [← hcur]
      exact hkeeps.settled.isLeast.1
    rw [hreceived] at hnot
    push Not at hnot
    exact ⟨by omega, hnot.1.2⟩
  · rintro ⟨hle, hnot⟩
    have hpos := h.pos
    refine hkeeps.settled.cursor_eq (fun j hj => (hreceived j).mpr ?_) fun hmem => ?_
    · by_cases hlt : j < n.nextExpectedCausalId
      · exact Or.inl (Or.inl hlt)
      · obtain ⟨e, he, rfl⟩ := hL.exists_mem (k := j) (by omega) (by omega)
        exact Or.inr ⟨e, he, ⟨by omega, by omega⟩, rfl⟩
    · rcases (hreceived _).mp hmem with (hlt | hmem) | ⟨e, -, ⟨-, hek⟩, heq⟩
      · omega
      · exact hnot hmem
      · omega

end Keeps

end Keeps

/-! ### Every run -/

namespace PropagatingHub

variable {A : Adapter S P} {toDict : S → D} {s₀ : S}

/-- What every operation keeps: the log is numbered, only its events are held back, and every node
keeps true snapshots. -/
structure KeepsSnapshots (A : Adapter S P) (toDict : S → D) (s₀ : S)
    (hub : PropagatingHub (SnapshotNode S P D) P) : Prop where
  numbered : NumberedFrom ExecutionEvent.causalId 1 hub.eventLog
  next : hub.globalCausalId = 1 + hub.eventLog.length
  held : hub.heldEvents.ListsIn hub.eventLog
  nodes : ∀ n ∈ hub.nodes, Keeps A toDict s₀ hub.eventLog n

namespace KeepsSnapshots

variable {hub : PropagatingHub (SnapshotNode S P D) P}

lemma init : KeepsSnapshots A toDict s₀ new where
  numbered := trivial
  next := rfl
  held := .empty
  nodes _ hn := absurd hn List.not_mem_nil

/-- One node is changed. -/
lemma modify (h : KeepsSnapshots A toDict s₀ hub) (i : ℕ)
    {f : SnapshotNode S P D → SnapshotNode S P D}
    (hf : ∀ n, Keeps A toDict s₀ hub.eventLog n → Keeps A toDict s₀ hub.eventLog (f n)) :
    KeepsSnapshots A toDict s₀ { hub with nodes := hub.nodes.modify i f } where
  numbered := h.numbered
  next := h.next
  held := h.held
  nodes n hn := by
    obtain ⟨j, hj⟩ := List.mem_iff_getElem?.mp hn
    rw [List.getElem?_modify] at hj
    obtain ⟨m, hm, rfl⟩ := Option.map_eq_some_iff.mp hj
    have hkeeps := h.nodes m (List.mem_of_getElem? hm)
    split
    · exact hf m hkeeps
    · exact hkeeps

lemma registerNode (h : KeepsSnapshots A toDict s₀ hub) (nodeId : String) :
    KeepsSnapshots A toDict s₀
      (hub.registerNode (SnapshotNode.receiver A) (.new nodeId s₀)) where
  numbered := h.numbered
  next := h.next
  held := h.held.set_nil _
  nodes n hn := by
    rcases List.mem_append.mp hn with hn | hn
    · exact h.nodes n hn
    · obtain rfl := List.mem_singleton.mp hn
      exact .init nodeId

lemma broadcast (hA : A.NonRaising) (h : KeepsSnapshots A toDict s₀ hub)
    (rawEvent : ExecutionEvent P) (ex de : List String) :
    KeepsSnapshots A toDict s₀
      (hub.broadcast (SnapshotNode.receiver A) rawEvent ex de).1 := by
  have hnumbered : NumberedFrom ExecutionEvent.causalId 1
      (hub.eventLog ++ [hub.sequence rawEvent]) :=
    NumberedFrom.append_singleton.mpr ⟨h.numbered, h.next⟩
  have hmem : hub.sequence rawEvent ∈ hub.eventLog ++ [hub.sequence rawEvent] :=
    List.mem_append_right _ List.mem_cons_self
  refine ⟨hnumbered, ?_, ?_, fun n' hn' => ?_⟩
  · show hub.globalCausalId + 1 = 1 + ((hub.eventLog ++ [hub.sequence rawEvent]).length : ℤ)
    rw [h.next, List.length_append, List.length_singleton]
    push_cast
    omega
  · exact listsIn_broadcastLoop hmem hub.nodes (h.held.mono (List.subset_append_left _ _))
  · obtain ⟨n, hn, rfl | rfl⟩ := mem_broadcastLoop_cases hn'
    · exact (h.nodes _ hn).grow hnumbered
    · exact ((h.nodes n hn).grow hnumbered).receiveEvent hA hnumbered hmem

lemma releaseHeldEvents (hA : A.NonRaising) (h : KeepsSnapshots A toDict s₀ hub)
    (nodeId : String) :
    KeepsSnapshots A toDict s₀ (hub.releaseHeldEvents (SnapshotNode.receiver A) nodeId).1 := by
  have hreleased : ∀ n ∈ hub.nodes, Keeps A toDict s₀ hub.eventLog
      (releaseLoop (SnapshotNode.receiver A) ((hub.heldEvents.get? nodeId).getD []) n).1 :=
    fun n hn => releaseLoop_keeps
      (fun m e he hm => hm.receiveEvent hA h.numbered (h.held.mem_getD he)) (h.nodes n hn)
  have hset : ∀ {node} (i : ℕ), Keeps A toDict s₀ hub.eventLog node →
      ∀ n ∈ hub.nodes.set i node, Keeps A toDict s₀ hub.eventLog n := fun i hnode n hn =>
    (List.mem_or_eq_of_mem_set hn).elim (h.nodes n) fun heq => heq ▸ hnode
  rw [PropagatingHub.releaseHeldEvents]
  cases hub.findNode (SnapshotNode.receiver A) nodeId with
  | none => exact ⟨h.numbered, h.next, h.held.set_nil _, h.nodes⟩
  | some i =>
    have hnode := hreleased hub.nodes[i] (List.getElem_mem i.isLt)
    dsimp only
    generalize releaseLoop (SnapshotNode.receiver A) ((hub.heldEvents.get? nodeId).getD [])
      hub.nodes[i] = out at hnode ⊢
    rcases out with ⟨node, _ | exc⟩
    · exact ⟨h.numbered, h.next, h.held.set_nil _, hset i hnode⟩
    · exact ⟨h.numbered, h.next, h.held, hset i hnode⟩

lemma perform (hA : A.NonRaising) (h : KeepsSnapshots A toDict s₀ hub) (op : SnapshotOp P) :
    KeepsSnapshots A toDict s₀ (performSnapshot A toDict s₀ hub op) := by
  cases op with
  | registerNode nodeId => exact h.registerNode nodeId
  | broadcast rawEvent ex de => exact h.broadcast hA rawEvent ex de
  | releaseHeldEvents nodeId => exact h.releaseHeldEvents hA nodeId
  | mergeSlice i fromCausalId toCausalId =>
    exact h.modify i fun n hn => hn.mergeBatch hA h.numbered (hub.getEventSlice_subset _ _)
  | exportSnapshot i => exact h.modify i fun n hn => hn.exportSnapshot h.numbered

end KeepsSnapshots

/-- **Snapshots are positions.**  However broadcasts, exclusions, delays, releases, merges, exports
and registrations are interleaved: a snapshot that any node has kept under an id describes the state
after a replay of the log up to that id; any node matches it exactly if it has committed up to that
id; snapshots are equal exactly if their ids are; and a node that merges what the log has behind it,
up to the id, is never refused, and then matches exactly if it was not past the id and did not hold
the event behind it. -/
theorem snapshots_are_positions (hA : A.NonRaising) (toDict : S → D) (s₀ : S)
    (ops : List (SnapshotOp P)) :
    let hub := Run.exec (performSnapshot A toDict s₀) new ops
    ∀ owner ∈ hub.nodes, ∀ k snap, owner.getSnapshotAt k = some snap →
      snap.Of A toDict s₀ hub.eventLog owner.nodeId k ∧
      ∀ n ∈ hub.nodes,
        (n.verifyMatchesSnapshot A snap = true ↔ n.committedCausalId = k) ∧
        (∀ j other, n.getSnapshotAt j = some other → (snap.eq other = true ↔ k = j)) ∧
        let merged := n.mergeBatch A (hub.getEventSlice (n.committedCausalId + 1) (some k))
        merged.2.success = true ∧ (merged.1.verifyMatchesSnapshot A snap = true ↔
          n.committedCausalId ≤ k ∧ k + 1 ∉ n.pendingCausalIds) := by
  intro hub owner howner k snap hget
  have h : KeepsSnapshots A toDict s₀ hub :=
    Run.invariant_of_forall (I := KeepsSnapshots A toDict s₀) (fun _ op hub => hub.perform hA op)
      .init ops
  have hsnap := (h.nodes owner howner).history k snap hget
  refine ⟨hsnap, fun n hn => ⟨(h.nodes n hn).verifyMatchesSnapshot_iff h.numbered hsnap,
    fun j other hother => hsnap.eq_iff ((h.nodes n hn).history j other hother),
    mergeEventBatch_success hA, ?_⟩⟩
  have hmerged := (h.nodes n hn).mergeBatch hA h.numbered
    (hub.getEventSlice_subset (n.committedCausalId + 1) (some k))
  rw [hmerged.verifyMatchesSnapshot_iff h.numbered hsnap]
  exact (h.nodes n hn).mergeSlice_iff hA h.numbered hsnap.le

/-- Node `B` misses the second of three additions, and `A` exports a snapshot behind it. -/
def snapshotRun : List (SnapshotOp (Option ℤ)) :=
  [.registerNode "A", .registerNode "B", .broadcast (addEvent 0 1) [] [],
    .broadcast (addEvent 0 2) ["B"] [], .exportSnapshot 0]

/-- `B` catches up with the snapshot of `A`. -/
theorem snapshots_are_positions_mock :
    let hub := Run.exec (performSnapshot (mockAdapter id) id 0) new snapshotRun
    ∃ owner ∈ hub.nodes, ∃ snap, owner.getSnapshotAt 2 = some snap ∧ snap.stateHash = "3" ∧
      ∀ n ∈ hub.nodes,
        let slice := hub.getEventSlice (n.committedCausalId + 1) (some 2)
        (n.mergeBatch (mockAdapter id) slice).1.verifyMatchesSnapshot (mockAdapter id) snap
          = true := by
  intro hub
  have hmem : ∃ owner ∈ hub.nodes, ∃ snap, owner.getSnapshotAt 2 = some snap ∧
      snap.stateHash = "3" := by decide
  obtain ⟨owner, howner, snap, hget, hhash⟩ := hmem
  refine ⟨owner, howner, snap, hget, hhash, fun n hn => ?_⟩
  obtain ⟨-, hall⟩ := snapshots_are_positions (mockAdapter_nonRaising id) id 0 snapshotRun owner
    howner 2 snap hget
  refine (hall n hn).2.2.2.mpr ?_
  have hready : ∀ n ∈ hub.nodes, n.committedCausalId ≤ 2 ∧ 2 + 1 ∉ n.pendingCausalIds := by decide
  exact hready n hn

end PropagatingHub

end QuantumFoundation
