import QuantumFoundation.Distributed.Convergence
import QuantumFoundation.Distributed.SyncOrder

/-!
# Catching up a node by replay

The replay leaves the `SYNC` events of the slice out, although their ids count: a node that
has nothing buffered waits for the id of the first `SYNC` it missed, and buffers everything
behind it.  It is caught up exactly if no `SYNC` lies between its position and the
reference's, and nothing was missing before.
-/

namespace QuantumFoundation

variable {S P : Type*} {A : Adapter S P}

/-- What holds of every node in every run: it is within the log, and its state comes from
the events it has logged. -/
structure Grounded (A : Adapter S P) (s₀ : S) (L : List (SequencedEvent P))
    (m : DistributedStateNode S P) : Prop extends WithinLog L m where
  state : m.adapterState = A.fold s₀ m.localLog

namespace Grounded

variable {s₀ : S} {L : List (SequencedEvent P)} {m : DistributedStateNode S P}

lemma init (nodeId : String) : Grounded (P := P) A s₀ [] (.new nodeId s₀) where
  toWithin := .init _ _ nodeId s₀ []
  state := rfl

lemma receiveEvent (hA : A.NonRaising) (hL : NumberedFrom SequencedEvent.causalId 1 L)
    (h : Grounded A s₀ L m) {e : SequencedEvent P} (he : e ∈ L) :
    Grounded A s₀ L (m.receiveEvent A e.toExecutionEvent).1 := by
  obtain ⟨-, hlog⟩ := DistributedStateNode.receiveEvent_segment hA hL (fun _ => rfl) h.buffers he
  refine ⟨h.toWithin.receiveEvent hA hL (fun _ => rfl) he, ?_⟩
  rw [hlog.adapterState_eq, h.state, ← A.fold_append, ← hlog.localLog_eq]

lemma invariant (hA : A.NonRaising) (s₀ : S) :
    ComputationProtocolHub.NodeInvariant A (fun _ _ _ => True) (Grounded (P := P) A s₀) where
  grow := fun _ es _ _ h => ⟨h.toWithin.grow es, h.state⟩
  input := by
    intro L m x hL hx h _
    cases x with
    | receive event =>
      obtain ⟨e, he, rfl⟩ := hx
      exact h.receiveEvent hA hL he
    | sync causalId =>
      obtain ⟨e, he, -, rfl⟩ := hx
      exact ⟨h.toWithin.moveTo hL he, h.state⟩

lemma exec (hA : A.NonRaising) (hL : NumberedFrom SequencedEvent.causalId 1 L)
    (h : Grounded A s₀ L m) {xs : List (NodeInput P)}
    (hxs : ∀ x ∈ xs, ∃ e ∈ L, x = .receive e.toExecutionEvent) :
    Grounded A s₀ L (Run.exec (DistributedStateNode.input A) m xs) := by
  refine Run.invariant_of_mem (fun m x hx hm => ?_) h
  obtain ⟨e, he, rfl⟩ := hxs x hx
  exact hm.receiveEvent hA hL he

/-- A sequence of receptions logs the segment of the log over which the cursor moves. -/
lemma exec_receive (hA : A.NonRaising) (hL : NumberedFrom SequencedEvent.causalId 1 L)
    (h : Grounded A s₀ L m) {xs : List (NodeInput P)}
    (hxs : ∀ x ∈ xs, ∃ e ∈ L, x = .receive e.toExecutionEvent) :
    let m' := Run.exec (DistributedStateNode.input A) m xs
    m.nextExpectedCausalId ≤ m'.nextExpectedCausalId ∧ m'.localLog = m.localLog ++
      (segment SequencedEvent.causalId L m.nextExpectedCausalId m'.nextExpectedCausalId).map
        SequencedEvent.toExecutionEvent := by
  induction xs generalizing m with
  | nil => exact ⟨le_rfl, by simp [segment_eq_nil]⟩
  | cons x xs ih =>
    obtain ⟨e, he, rfl⟩ := hxs x List.mem_cons_self
    obtain ⟨hoff, hlog⟩ :=
      DistributedStateNode.receiveEvent_segment hA hL (fun _ => rfl) h.buffers he
    have hle : m.nextExpectedCausalId
        ≤ (m.receiveEvent A e.toExecutionEvent).1.nextExpectedCausalId := hoff.cursor_le
    obtain ⟨hle', hlog'⟩ := ih (h.receiveEvent hA hL he) fun y hy =>
      hxs y (List.mem_cons_of_mem _ hy)
    refine ⟨hle.trans hle', hlog'.trans ?_⟩
    rw [hlog.localLog_eq, List.append_assoc, ← List.map_append, hL.segment_append hle hle']
    rfl

end Grounded

open ReconciliationEngine

namespace ComputationProtocolHub

variable {hub : ComputationProtocolHub S P} {s₀ : S} {ref n : ProtocolNode S P}

/-- The replay has caught the node up with position `c`. -/
def CaughtUp (A : Adapter S P) (s₀ : S) (L : List (SequencedEvent P)) (c : ℤ)
    (m : DistributedStateNode S P) : Prop :=
  m.nextExpectedCausalId - 1 = c ∧ m.localLog = stateEvents L c ∧
    m.adapterState = A.fold s₀ (stateEvents L c)

/-- The ids that are replayed up to a position other than zero. -/
lemma mem_missingEvents_of_pos {c : ℤ} (hc : 0 < c) (k : ℤ) :
    (∃ e ∈ missingEvents hub n c, e.causalId = k) ↔ n.nextExpectedCausalId ≤ k ∧ k ≤ c ∧
      ∃ e ∈ hub.eventLog, e.stepType ≠ "SYNC" ∧ e.causalId = k := by
  simp only [missingEvents, getEventSlice, List.mem_map, List.mem_filter, Option.getD_some,
    if_neg hc.ne', decide_eq_true_eq, PropagatingStateNode.committedCausalId, sub_add_cancel]
  constructor
  · rintro ⟨-, ⟨se, ⟨⟨hse, hk, hkc⟩, hs⟩, rfl⟩, rfl⟩
    exact ⟨hk, hkc, se, hse, hs, rfl⟩
  · rintro ⟨hk, hkc, se, hse, hs, rfl⟩
    exact ⟨se.toExecutionEvent, ⟨se, ⟨⟨hse, hk, hkc⟩, hs⟩, rfl⟩, rfl⟩

/-- The ids that a node with an empty buffer has received when the replay is over. -/
lemma mem_received_replayed (hA : A.NonRaising) (hub : ComputationProtocolHub S P) {c : ℤ}
    (hc : 0 < c) (hkeys : ∀ k, k ∉ n.eventBuffer.keys) (k : ℤ) :
    k ∈ (Run.exec (DistributedStateNode.input A) n.toDistributedStateNode
        ((sortEvents (missingEvents hub n c)).map .receive)).inbox.received ↔
      k < n.nextExpectedCausalId ∨ n.nextExpectedCausalId ≤ k ∧ k ≤ c ∧
        ∃ e ∈ hub.eventLog, e.stepType ≠ "SYNC" ∧ e.causalId = k := by
  have hnone : ¬k ∈ n.inbox.pending.keys := hkeys k
  rw [← mem_missingEvents_of_pos hc k, n.toDistributedStateNode.received_exec hA, Set.mem_union,
    ReorderBuffer.mem_received]
  simp only [Set.mem_ofPred_eq, mem_sortEvents, hnone, or_false]
  exact Iff.rfl

/-- **Replay to a node with an empty buffer** catches it up exactly if no `SYNC` lies in
between and the node had logged everything before. -/
theorem caughtUp_replayed_iff (hA : A.NonRaising) (hlog : LogInv hub)
    (hn : Grounded A s₀ hub.eventLog n.toDistributedStateNode)
    (href : Grounded A s₀ hub.eventLog ref.toDistributedStateNode)
    (hlt : n.committedCausalId < ref.committedCausalId) (hb : n.eventBuffer.size = 0) :
    CaughtUp A s₀ hub.eventLog ref.committedCausalId
        (Run.exec (DistributedStateNode.input A) n.toDistributedStateNode (replayed A hub ref n)) ↔
      (∀ e ∈ hub.eventLog, n.committedCausalId < e.causalId →
        e.causalId ≤ ref.committedCausalId → e.stepType ≠ "SYNC") ∧
      n.localLog = stateEvents hub.eventLog n.committedCausalId := by
  have hpos : 1 ≤ n.nextExpectedCausalId := hn.pos
  have hcommitted : n.committedCausalId = n.nextExpectedCausalId - 1 := rfl
  have hreflen : ref.committedCausalId ≤ hub.eventLog.length := sub_le_iff_le_add'.mpr href.le
  have hkeys : ∀ k, k ∉ n.eventBuffer.keys := fun k =>
    Dict.get?_eq_none.mp (Dict.size_eq_zero.mp hb k)
  have hreceive : ∀ x ∈ replayed A hub ref n, ∃ e ∈ hub.eventLog, x = .receive e.toExecutionEvent :=
    fun x hx => replayed_receive hx
  obtain ⟨hle, hlocal⟩ := hn.exec_receive hA hlog.numbered hreceive
  have hstate := (hn.exec hA hlog.numbered hreceive).state
  have hlag : n.nextExpectedCausalId < ref.nextExpectedCausalId := sub_lt_sub_iff_right 1 |>.mp hlt
  rw [replayed_eq_map hlag.le fun h => hlag.ne h.1] at hle hlocal hstate ⊢
  have hrefpos : 0 < ref.committedCausalId := by omega
  have hmem := mem_received_replayed hA hub hrefpos hkeys
  have hsettled := n.toDistributedStateNode.settled_exec hA
    (sortEvents (missingEvents hub n ref.committedCausalId)) fun k hk => absurd hk (hkeys k)
  set n' := Run.exec (DistributedStateNode.input A) n.toDistributedStateNode
    ((sortEvents (missingEvents hub n ref.committedCausalId)).map .receive)
  by_cases hfree : ∀ e ∈ hub.eventLog, n.committedCausalId < e.causalId →
      e.causalId ≤ ref.committedCausalId → e.stepType ≠ "SYNC"
  · rw [and_iff_right hfree]
    have hcur : n'.nextExpectedCausalId = ref.committedCausalId + 1 := by
      refine hsettled.cursor_eq (fun k hk => (hmem k).mpr ?_) fun hk => ?_
      · by_cases hkn : k < n.nextExpectedCausalId
        · exact Or.inl hkn
        · obtain ⟨e, he, hek⟩ := hlog.numbered.exists_mem (k := k) (by omega) (by omega)
          exact Or.inr ⟨by omega, by omega, e, he, hfree e he (by omega) (by omega), hek⟩
      · rcases (hmem _).mp hk with hk | ⟨-, hk, -⟩ <;> omega
    have hseg : (segment SequencedEvent.causalId hub.eventLog n.nextExpectedCausalId
        n'.nextExpectedCausalId).map SequencedEvent.toExecutionEvent
          = stateSegment hub.eventLog n.nextExpectedCausalId (ref.committedCausalId + 1) := by
      rw [stateSegment, hcur, List.filter_eq_self.mpr fun e he => ?_]
      obtain ⟨he, hne, hec⟩ := mem_segment.mp he
      simpa using hfree e he (by omega) (by omega)
    have hall : stateEvents hub.eventLog ref.committedCausalId
        = stateEvents hub.eventLog n.committedCausalId
          ++ stateSegment hub.eventLog n.nextExpectedCausalId (ref.committedCausalId + 1) := by
      rw [stateEvents_eq_stateSegment hlog.numbered, stateEvents_eq_stateSegment hlog.numbered,
        show n.committedCausalId + 1 = n.nextExpectedCausalId from sub_add_cancel _ _,
        stateSegment_append hlog.numbered hpos (by omega)]
    constructor
    · rintro ⟨-, hlog', -⟩
      rw [hlocal, hseg, hall] at hlog'
      exact List.append_cancel_right hlog'
    · intro hbefore
      have hlog' : n'.localLog = stateEvents hub.eventLog ref.committedCausalId := by
        rw [hlocal, hseg, hall, hbefore]
      exact ⟨by omega, hlog', by rw [hstate, hlog']⟩
  · refine iff_of_false (fun hcaught => hfree ?_) fun h => hfree h.1
    -- at the end everything up to the reference's position was received, so none is a `SYNC`
    intro e he hne hec
    have hcur : n'.nextExpectedCausalId - 1 = ref.committedCausalId := hcaught.1
    have hreceived : e.causalId ∈ n'.inbox.received := by
      refine ReorderBuffer.mem_received.mpr (Or.inl ?_)
      show e.causalId < n'.nextExpectedCausalId
      omega
    rcases (hmem _).mp hreceived with hk | ⟨-, -, e', he', hs, hid⟩
    · omega
    · rwa [← hlog.numbered.eq_of_id_eq he' he hid]

/-! ### The claim of the engine -/

/-- **Catching up.**  In every reachable state with nodes that started in state `s₀`: a node
with an empty buffer that is behind the reference is caught up by `reconcile_node` exactly
if no `SYNC` lies between its position and the reference's and it had logged everything
before. -/
theorem reconcileNode_catchesUp_iff {O : SetOrder} (hA : A.NonRaising) (hr hd : Bool)
    (ids : List String) (s₀ : S) (ops : List (HubOp P)) :
    let hub := Run.exec (perform A O) (withNodes hr hd (ids.map fun i => (i, s₀))) ops
    ∀ (nodeId : String) (i : Fin hub.nodes.length) (ref : ProtocolNode S P),
      hub.findNode nodeId = some i →
      mostAdvanced (hub.nodes.filter fun n => n.nodeId ≠ nodeId) = some ref →
      hub.nodes[i].committedCausalId < ref.committedCausalId →
      hub.nodes[i].eventBuffer.size = 0 →
      ((∃ n', (reconcileNode A hub nodeId).1.nodes[i]? = some n' ∧
          CaughtUp A s₀ hub.eventLog ref.committedCausalId n'.toDistributedStateNode) ↔
        (∀ e ∈ hub.eventLog, hub.nodes[i].committedCausalId < e.causalId →
          e.causalId ≤ ref.committedCausalId → e.stepType ≠ "SYNC") ∧
        hub.nodes[i].localLog = stateEvents hub.eventLog hub.nodes[i].committedCausalId) := by
  intro hub nodeId i ref hfind hmost hlt hb
  have hstart : Holds (Grounded A s₀) (withNodes (P := P) hr hd (ids.map fun i => (i, s₀))) := by
    refine Holds.withNodes fun m hm => ?_
    obtain ⟨j, -, rfl⟩ := List.mem_map.mp hm
    exact .init j
  have hend : Holds (Grounded A s₀) hub := hstart.exec_of_forall hA (Grounded.invariant hA s₀) ops
  have href : ref ∈ hub.nodes := (List.mem_filter.mp (mostAdvanced_mem hmost)).1
  have htarget : hub.nodes[i] ∈ hub.nodes := List.getElem_mem i.isLt
  refine Iff.trans ?_ (caughtUp_replayed_iff hA hend.toLogInv (hend.node _ htarget)
    (hend.node _ href) hlt hb)
  rw [← reconcileOne_core hA]
  have hnode : (reconcileNode A hub nodeId).1.nodes[i]? = some
      (reconcileOne A hub hub.nodes[i] ref.committedCausalId (ref.getStateHash A)).1 := by
    rw [reconcileNode, hfind]
    simp only [hmost]
    simp
  rw [hnode]
  constructor
  · rintro ⟨n', hn', hcaught⟩
    rwa [Option.some.inj hn']
  · exact fun h => ⟨_, rfl, h⟩

/-- A `SYNC` that reaches both nodes, and two additions that node `B` misses. -/
def missedAdditions : List (HubOp (Option ℤ)) :=
  [.submit syncProposal [] [], .submit (addProposal 1) ["B"] [], .submit (addProposal 2) ["B"] []]

/-- A node that missed two additions behind a `SYNC` is caught up. -/
theorem reconcileNode_catchesUp_mock :
    let hub := mockRun missedAdditions
    ∃ n', (reconcileNode (mockAdapter id) hub "B").1.nodes[1]? = some n' ∧
      CaughtUp (mockAdapter id) 0 hub.eventLog 3 n'.toDistributedStateNode := by
  have hiff := reconcileNode_catchesUp_iff (O := .lastInsertion) (mockAdapter_nonRaising id) true
    true ["A", "B"] 0 missedAdditions "B" ⟨1, by decide⟩ _ (by decide) rfl (by decide) (by decide)
  exact hiff.mpr (by decide)

/-- Node `B` missed a `SYNC` and the addition behind it: the replay leaves the `SYNC` out, and
`B` waits for it for ever. -/
theorem reconcileNode_stuck :
    let hub := mockRun [.submit (addProposal 1) [] [], .submit syncProposal ["B"] [],
      .submit (addProposal 2) ["B"] []]
    hub.nodes.map (·.committedCausalId) = [3, 1] ∧ hub.nodes.map (·.eventBuffer.size) = [0, 0] ∧
      (reconcileNode (mockAdapter id) hub "B").1.nodes.map (·.committedCausalId) = [3, 1] := by
  decide

end ComputationProtocolHub

end QuantumFoundation
