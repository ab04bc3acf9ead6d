import QuantumFoundation.Distributed.System

/-!
# `SYNC` steps and the causal order

A `SYNC` sets the cursor of every node it reaches behind its own id, whatever the node has
committed by then.  As long as each `SYNC` comes in place — the node is not past it, and
misses no event before it — a node has logged exactly the events of the log up to its
committed id, the `SYNC` events left out.  A `SYNC` that comes out of place breaks this
(`keepsOrder_iff`), so the runs in which the causal order is kept are exactly those in
which every `SYNC` comes in place.
-/

namespace QuantumFoundation

variable {S P : Type*}

/-- The events of the log with ids up to `k`, the `SYNC` events left out. -/
def stateEvents (log : List (SequencedEvent P)) (k : ℤ) : List (ExecutionEvent P) :=
  (log.filter fun e => e.stepType ≠ "SYNC" ∧ e.causalId ≤ k).map SequencedEvent.toExecutionEvent

/-- The events of the log with ids from `c` up to, but not including, `d`, the `SYNC` events
left out. -/
def stateSegment (log : List (SequencedEvent P)) (c d : ℤ) : List (ExecutionEvent P) :=
  ((segment SequencedEvent.causalId log c d).filter fun e => e.stepType ≠ "SYNC").map
    SequencedEvent.toExecutionEvent

section Segments

variable {L : List (SequencedEvent P)} {c d : ℤ}

lemma stateEvents_eq_stateSegment (hL : NumberedFrom SequencedEvent.causalId 1 L) (k : ℤ) :
    stateEvents L k = stateSegment L 1 (k + 1) := by
  rw [stateEvents, stateSegment, segment, List.filter_filter]
  congr 1
  refine List.filter_congr fun e he => ?_
  have := (hL.bounds he).1
  simp only [← Bool.decide_and, decide_eq_decide]
  exact and_congr_right fun _ => by omega

lemma stateSegment_append {e : ℤ} (hL : NumberedFrom SequencedEvent.causalId 1 L) (hcd : c ≤ d)
    (hde : d ≤ e) : stateSegment L c d ++ stateSegment L d e = stateSegment L c e := by
  rw [stateSegment, stateSegment, stateSegment, ← hL.segment_append hcd hde, List.filter_append,
    List.map_append]

lemma stateSegment_eq_nil : stateSegment L c d = [] ↔
    ∀ e ∈ L, c ≤ e.causalId → e.causalId < d → e.stepType = "SYNC" := by
  rw [stateSegment, List.map_eq_nil_iff, List.filter_eq_nil_iff]
  constructor
  · intro h e he hc hd
    simpa using h e (mem_segment.mpr ⟨he, hc, hd⟩)
  · intro h e he
    obtain ⟨he, hc, hd⟩ := mem_segment.mp he
    simp [h e he hc hd]

/-- Events beyond the end of the log make no difference. -/
lemma stateEvents_append {M : List (SequencedEvent P)} {k : ℤ}
    (hL : NumberedFrom SequencedEvent.causalId 1 (L ++ M)) (hk : k ≤ L.length) :
    stateEvents (L ++ M) k = stateEvents L k := by
  rw [stateEvents_eq_stateSegment hL, stateEvents_eq_stateSegment (NumberedFrom.append.mp hL).1,
    stateSegment, stateSegment, hL.segment_left (by omega)]

end Segments

/-- A `SYNC` comes in place if the node is not past it and misses only `SYNC` events. -/
def SyncInPlace (L : List (SequencedEvent P)) (m : DistributedStateNode S P) : NodeInput P → Prop
  | .receive _ => True
  | .sync k => m.nextExpectedCausalId ≤ k + 1 ∧
      ∀ e ∈ L, m.nextExpectedCausalId ≤ e.causalId → e.causalId < k → e.stepType = "SYNC"

instance (L : List (SequencedEvent P)) (m : DistributedStateNode S P) :
    DecidablePred (SyncInPlace L m)
  | .receive _ => .isTrue trivial
  | .sync _ => inferInstanceAs (Decidable (_ ∧ _))

/-- The input does not move the cursor back, and leaves in the node's log exactly the events
before the cursor, the `SYNC` events left out. -/
def KeepsOrder (A : Adapter S P) (L : List (SequencedEvent P)) (m : DistributedStateNode S P)
    (x : NodeInput P) : Prop :=
  m.nextExpectedCausalId ≤ (m.input A x).nextExpectedCausalId ∧
    (m.input A x).localLog = stateEvents L ((m.input A x).nextExpectedCausalId - 1)

/-- The node is in causal order with the log, and buffers no `SYNC` event. -/
structure InOrder (L : List (SequencedEvent P)) (m : DistributedStateNode S P) : Prop
    extends WithinLog L m where
  noSync : ∀ k e, m.eventBuffer.get? k = some e → e.eventType ≠ "SYNC"
  log : m.localLog = stateEvents L (m.nextExpectedCausalId - 1)

section Inputs

variable {A : Adapter S P} {L : List (SequencedEvent P)} {m : DistributedStateNode S P}

lemma InOrder.init (nodeId : String) (s : S) : InOrder (P := P) [] (.new nodeId s) where
  toWithin := .init _ _ nodeId s []
  noSync := fun k e he => absurd he (by simp [DistributedStateNode.new])
  log := rfl

lemma InOrder.grow {M : List (SequencedEvent P)}
    (hL : NumberedFrom SequencedEvent.causalId 1 (L ++ M)) (h : InOrder L m) :
    InOrder (L ++ M) m where
  toWithin := h.toWithin.grow M
  noSync := h.noSync
  log := by
    have := h.le
    rw [h.log, stateEvents_append hL (by omega)]

/-- Receiving an event that is not a `SYNC` keeps the order. -/
lemma InOrder.receiveEvent (hA : A.NonRaising)
    (hL : NumberedFrom SequencedEvent.causalId 1 L) (h : InOrder L m) {e : SequencedEvent P}
    (he : e ∈ L) (hs : e.stepType ≠ "SYNC") :
    m.nextExpectedCausalId ≤ (m.receiveEvent A e.toExecutionEvent).1.nextExpectedCausalId ∧
      InOrder L (m.receiveEvent A e.toExecutionEvent).1 := by
  obtain ⟨hoff, hlog⟩ :=
    DistributedStateNode.receiveEvent_segment hA hL (fun _ => rfl) h.buffers he
  set m' := (m.receiveEvent A e.toExecutionEvent).1
  have hle : m.nextExpectedCausalId ≤ m'.nextExpectedCausalId := hoff.cursor_le
  -- what is handed out are no `SYNC` events, for these are never buffered
  have hseg : stateSegment L m.nextExpectedCausalId m'.nextExpectedCausalId
      = (segment SequencedEvent.causalId L m.nextExpectedCausalId m'.nextExpectedCausalId).map
          SequencedEvent.toExecutionEvent := by
    rw [stateSegment, List.filter_eq_self.mpr fun x hx => ?_]
    rcases hoff.eq_or_pending (List.mem_map_of_mem hx) with hxe | ⟨j, hj⟩
    · have : x.stepType = e.stepType := congrArg ExecutionEvent.eventType hxe
      simpa [this] using hs
    · have : x.stepType ≠ "SYNC" := h.noSync j _ hj
      simpa using this
  refine ⟨hle, h.toWithin.receiveEvent hA hL (fun _ => rfl) he, fun k x hx => ?_, ?_⟩
  · rcases hoff.pending_get? hx with ⟨-, rfl⟩ | hget
    · exact hs
    · exact h.noSync k x hget
  · rw [hlog.localLog_eq, h.log, ← hseg, stateEvents_eq_stateSegment hL,
      stateEvents_eq_stateSegment hL, sub_add_cancel, sub_add_cancel,
      stateSegment_append hL h.pos hle]

/-- **A `SYNC` keeps the order exactly if it comes in place.** -/
theorem InOrder.keepsOrder_sync_iff (hL : NumberedFrom SequencedEvent.causalId 1 L)
    (h : InOrder L m) {e : SequencedEvent P} (he : e ∈ L) (hs : e.stepType = "SYNC") :
    KeepsOrder A L m (.sync e.causalId) ↔ SyncInPlace L m (.sync e.causalId) := by
  refine and_congr_right fun (hle : m.nextExpectedCausalId ≤ e.causalId + 1) => ?_
  show m.localLog = stateEvents L (e.causalId + 1 - 1) ↔ _
  -- the log up to the `SYNC` extends the node's log by the events in between
  rw [h.log, stateEvents_eq_stateSegment hL, stateEvents_eq_stateSegment hL, sub_add_cancel,
    sub_add_cancel, ← stateSegment_append hL h.pos hle, List.self_eq_append_right,
    stateSegment_eq_nil]
  constructor
  · exact fun hall x hx hcx hxe => hall x hx hcx (hxe.trans (lt_add_one _))
  · intro hall x hx hcx hxe
    rcases eq_or_ne x.causalId e.causalId with heq | hne
    · rw [hL.eq_of_id_eq hx he heq]
      exact hs
    · exact hall x hx hcx (by omega)

/-- An input that hands a sequenced event to a node in order keeps the order exactly if it
is no `SYNC` out of place. -/
lemma InOrder.keepsOrder_iff (hA : A.NonRaising)
    (hL : NumberedFrom SequencedEvent.causalId 1 L) (h : InOrder L m) {x : NodeInput P}
    (hx : ∃ e ∈ L, x = e.toInput) : KeepsOrder A L m x ↔ SyncInPlace L m x := by
  obtain ⟨e, he, rfl⟩ := hx
  rw [SequencedEvent.toInput]
  split
  · next hs => exact h.keepsOrder_sync_iff hL he hs
  · next hs =>
    obtain ⟨hle, h'⟩ := h.receiveEvent hA hL he hs
    exact iff_of_true ⟨hle, h'.log⟩ trivial

lemma InOrder.input (hA : A.NonRaising) (hL : NumberedFrom SequencedEvent.causalId 1 L)
    (h : InOrder L m) {x : NodeInput P} (hx : ∃ e ∈ L, x = e.toInput) (hC : SyncInPlace L m x) :
    InOrder L (m.input A x) := by
  have hkeep := (h.keepsOrder_iff hA hL hx).mpr hC
  obtain ⟨e, he, rfl⟩ := hx
  rw [SequencedEvent.toInput] at hkeep ⊢
  split
  · next hs =>
    rw [if_pos hs] at hkeep
    exact ⟨h.toWithin.moveTo hL he, h.noSync, hkeep.2⟩
  · next hs => exact (h.receiveEvent hA hL he hs).2

end Inputs

/-! ### Runs -/

namespace ComputationProtocolHub

variable {A : Adapter S P} {O : SetOrder}

/-- From one state of the hub to the next no committed id decreases, and afterwards every
node has logged exactly the events of the log up to its committed id, the `SYNC` events left
out. -/
def OrderKept (hub hub' : ComputationProtocolHub S P) : Prop :=
  (∀ (i : ℕ) (n n' : ProtocolNode S P), hub.nodes[i]? = some n → hub'.nodes[i]? = some n' →
    n.committedCausalId ≤ n'.committedCausalId) ∧
  ∀ n ∈ hub'.nodes, n.localLog = stateEvents hub'.eventLog n.committedCausalId

/-- The inputs of a delivery come from the log, one sequenced event each. -/
lemma EachInput.and_toInput {hub : ComputationProtocolHub S P} (h : LogInv hub) {op : HubOp P}
    (hop : op.IsDelivery)
    {C : List (SequencedEvent P) → DistributedStateNode S P → NodeInput P → Prop}
    (hC : EachInput A O C hub op) :
    EachInput A O (fun L m x => (∃ e ∈ L, x = e.toInput) ∧ C L m x) hub op :=
  fun i n hn => (hC i n hn).and_mem fun _ hx => inputs_isDelivery h hop hx

lemma inOrder_invariant (hA : A.NonRaising) :
    NodeInvariant A (fun L m x => (∃ e ∈ L, x = e.toInput) ∧ SyncInPlace L m x) InOrder where
  grow := fun _ _ _ hL h => h.grow hL
  input := fun _ _ _ hL _ h hC => h.input hA hL hC.1 hC.2

/-- **Step lemma.**  A delivery whose `SYNC` inputs come in place keeps all nodes in order. -/
theorem inOrder_perform (hA : A.NonRaising) {hub : ComputationProtocolHub S P}
    (h : Holds InOrder hub) {op : HubOp P} (hop : op.IsDelivery)
    (hC : EachInput A O SyncInPlace hub op) : Holds InOrder (perform A O hub op) :=
  h.perform hA (inOrder_invariant hA) (hC.and_toInput h.toLogInv hop)

/-- Over one delivery: the inputs keep the order exactly if every `SYNC` comes in place. -/
lemma eachInput_keepsOrder_iff (hA : A.NonRaising) {hub : ComputationProtocolHub S P}
    (h : Holds InOrder hub) {op : HubOp P} (hop : op.IsDelivery) :
    EachInput A O SyncInPlace hub op ↔ EachInput A O (KeepsOrder A) hub op := by
  have hL := (h.toLogInv.perform (A := A) (O := O) op).numbered
  refine forall_congr' fun i => forall_congr' fun n => forall_congr' fun hn => ?_
  have hgrown : InOrder (perform A O hub op).eventLog n.toDistributedStateNode := by
    rw [perform_eventLog] at hL ⊢
    exact (h.node n (List.mem_of_getElem? hn)).grow hL
  refine Run.along_congr (fun m x hx hm => (hm.keepsOrder_iff hA hL hx).symm)
    (fun m x hx hm hC => hm.input hA hL hx hC)
    (fun x hx => inputs_isDelivery h.toLogInv hop hx) hgrown

/-- Over one delivery whose inputs keep the order, the hub keeps it. -/
lemma orderKept_perform (hA : A.NonRaising) {hub : ComputationProtocolHub S P} {op : HubOp P}
    (hI : Holds InOrder (perform A O hub op)) (hkeep : EachInput A O (KeepsOrder A) hub op) :
    OrderKept hub (perform A O hub op) := by
  refine ⟨fun i n n' hn hn' => ?_, fun n hn => (hI.node n hn).log⟩
  obtain ⟨n₀, hn₀, hcore⟩ := exists_node_of_perform hA hn'
  obtain rfl : n₀ = n := Option.some.inj (hn₀.symm.trans hn)
  have hmono := Run.rel_exec (R := fun m m' : DistributedStateNode S P =>
    m.nextExpectedCausalId ≤ m'.nextExpectedCausalId) (fun _ => le_rfl)
    (fun _ _ _ h h' => h.trans h') (fun _ _ h => h.1) (hkeep i n₀ hn₀)
  rw [← hcore] at hmono
  exact Int.sub_le_sub_right hmono 1

/-- **Causal order in the presence of `SYNC` steps.**  In every run of submissions, releases and
redeliveries: the order is kept by every input of every node, and by every operation, exactly
if every `SYNC` that reaches a node comes in place there. -/
theorem orderKept_iff (hA : A.NonRaising) (hr hd : Bool) (members : List (String × S))
    (ops : List (HubOp P)) (hops : ∀ op ∈ ops, op.IsDelivery) :
    Run.Along (perform A O) (EachInput A O SyncInPlace) (withNodes hr hd members) ops ↔
      Run.Along (perform A O) (fun hub op => EachInput A O (KeepsOrder A) hub op ∧
        OrderKept hub (perform A O hub op)) (withNodes hr hd members) ops := by
  refine Run.along_congr (I := Holds InOrder) (P := HubOp.IsDelivery) (fun hub op hop h => ?_)
    (fun hub op hop h hC => inOrder_perform hA h hop hC) hops
    (Holds.withNodes fun m _ => InOrder.init m.1 m.2)
  have hiff := eachInput_keepsOrder_iff (O := O) hA h hop
  constructor
  · intro hC
    exact ⟨hiff.mp hC, orderKept_perform hA (inOrder_perform hA h hop hC) (hiff.mp hC)⟩
  · exact fun hkeep => hiff.mpr hkeep.1

/-- Additions and a `SYNC` that reach both nodes in place, one of them late. -/
theorem orderKept_iff_mock :
    let A := mockAdapter id
    let step := perform A .lastInsertion
    Run.Along step (fun hub op => EachInput A .lastInsertion (KeepsOrder A) hub op ∧
        OrderKept hub (step hub op)) (withNodes true true [("A", 0), ("B", 0)])
      [.submit (addProposal 1) [] ["B"], .releaseHeldEvents "B", .submit syncProposal [] [],
        .submit (addProposal 2) [] [], .redeliver 0 0] :=
  (orderKept_iff (mockAdapter_nonRaising id) true true [("A", 0), ("B", 0)] _ (by decide)).mp
    (by decide)

/-- A `SYNC` that overtakes an addition makes node `B` count the addition as committed without
having applied it, and a `SYNC` that is released late sets the cursor of `B` back. -/
theorem sync_out_of_place :
    let hub := mockRun [.submit (addProposal 1) ["B"] [], .submit syncProposal [] []]
    let late := mockRun [.submit syncProposal [] ["B"], .submit syncProposal [] []]
    (¬∀ n ∈ hub.nodes, n.localLog = stateEvents hub.eventLog n.committedCausalId) ∧
      late.nodes.map (·.committedCausalId) = [2, 2] ∧
      (late.releaseHeldEvents (mockAdapter id) "B").1.nodes.map (·.committedCausalId) = [2, 1] := by
  decide

end ComputationProtocolHub

end QuantumFoundation
