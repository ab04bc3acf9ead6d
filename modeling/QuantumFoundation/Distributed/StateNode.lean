import QuantumFoundation.Lib.ReorderBuffer
import QuantumFoundation.Lib.Run
import QuantumFoundation.Python

/-!
# The state node

The node of `distributed_state_node.py`: it buffers events that arrive early, drops those
that arrive late, and hands each event that is due to its adapter.  An adapter call may
raise, and may have changed the adapter's state by then; the event has been popped from
the buffer at that point and is not put back.

With an adapter that never raises the node is a reorder buffer whose handed-out items are
logged and applied (`receiveEvent_offers`); the merge guarantee follows from the
order-independence of reorder buffers.
-/

namespace QuantumFoundation

/-- The domain adapter of a node: the behaviour of `apply_event_payload` on the adapter's
state, with the exception it raises, if any, and `get_state_hash`. -/
structure Adapter (S P : Type*) where
  /-- The state after the call, also when the call raises. -/
  applyEventPayload : P → S → S × Option PyError
  getStateHash : S → String

/-- An event that is propagated to the nodes. -/
structure ExecutionEvent (P : Type*) where
  causalId : ℤ
  originNodeId : String
  eventType : String
  payload : P
deriving DecidableEq

/-- A node with the state of its adapter. -/
structure DistributedStateNode (S P : Type*) where
  nodeId : String
  /-- The state of the node's adapter. -/
  adapterState : S
  nextExpectedCausalId : ℤ
  eventBuffer : Dict ℤ (ExecutionEvent P)
  localLog : List (ExecutionEvent P)
deriving DecidableEq

namespace Adapter

variable {S P : Type*} (A : Adapter S P)

/-- No payload makes `apply_event_payload` raise. -/
def NonRaising : Prop := ∀ p s, (A.applyEventPayload p s).2 = none

/-- The adapter state after applying the payloads of the events in order. -/
def fold (s : S) (es : List (ExecutionEvent P)) : S :=
  es.foldl (fun s e => (A.applyEventPayload e.payload s).1) s

@[simp] lemma fold_nil (s : S) : A.fold s [] = s := rfl

@[simp] lemma fold_cons (s : S) (e : ExecutionEvent P) (es : List (ExecutionEvent P)) :
    A.fold s (e :: es) = A.fold (A.applyEventPayload e.payload s).1 es := rfl

lemma fold_append (s : S) (es fs : List (ExecutionEvent P)) :
    A.fold s (es ++ fs) = A.fold (A.fold s es) fs := by
  simp [fold]

end Adapter

namespace DistributedStateNode

variable {S P : Type*} (A : Adapter S P)

/-- A fresh node around an adapter in state `s`. -/
def new (nodeId : String) (s : S) : DistributedStateNode S P where
  nodeId := nodeId
  adapterState := s
  nextExpectedCausalId := 1
  eventBuffer := .empty
  localLog := []

/-- The loop of `_process_buffer`, for at most the given number of rounds. -/
def processBufferLoop : ℕ → DistributedStateNode S P → DistributedStateNode S P × Option PyError
  | 0, n => (n, none)
  | rounds + 1, n =>
    match n.eventBuffer.get? n.nextExpectedCausalId with
    | none => (n, none)
    | some event =>
      let popped := { n with eventBuffer := n.eventBuffer.erase n.nextExpectedCausalId }
      match A.applyEventPayload event.payload n.adapterState with
      -- the exception leaves the loop after the pop and before the append
      | (s, some exc) => ({ popped with adapterState := s }, some exc)
      | (s, none) =>
        processBufferLoop rounds
          { popped with
            adapterState := s
            localLog := n.localLog ++ [event]
            nextExpectedCausalId := n.nextExpectedCausalId + 1 }

/-- `_process_buffer`: every round pops an entry, so the number of entries bounds the
number of rounds. -/
def processBuffer (n : DistributedStateNode S P) : DistributedStateNode S P × Option PyError :=
  processBufferLoop A n.eventBuffer.size n

/-- `receive_event`: drop an old event, otherwise buffer it and process the buffer. -/
def receiveEvent (event : ExecutionEvent P) (n : DistributedStateNode S P) :
    DistributedStateNode S P × Option PyError :=
  if event.causalId < n.nextExpectedCausalId then (n, none)
  else processBuffer A { n with eventBuffer := n.eventBuffer.set event.causalId event }

/-- `get_state_hash`. -/
def getStateHash (n : DistributedStateNode S P) : String := A.getStateHash n.adapterState

variable {A}

/-! ### The loop runs to its end -/

/-- The loop body that is executed when the event at the cursor is there and its payload
is applied. -/
def commit (n : DistributedStateNode S P) (event : ExecutionEvent P) (s : S) :
    DistributedStateNode S P :=
  { n with
    eventBuffer := n.eventBuffer.erase n.nextExpectedCausalId
    adapterState := s
    localLog := n.localLog ++ [event]
    nextExpectedCausalId := n.nextExpectedCausalId + 1 }

@[simp] lemma commit_nextExpectedCausalId (n : DistributedStateNode S P)
    (event : ExecutionEvent P) (s : S) :
    (n.commit event s).nextExpectedCausalId = n.nextExpectedCausalId + 1 := rfl

@[simp] lemma commit_eventBuffer (n : DistributedStateNode S P) (event : ExecutionEvent P)
    (s : S) : (n.commit event s).eventBuffer = n.eventBuffer.erase n.nextExpectedCausalId := rfl

@[simp] lemma commit_localLog (n : DistributedStateNode S P) (event : ExecutionEvent P) (s : S) :
    (n.commit event s).localLog = n.localLog ++ [event] := rfl

@[simp] lemma commit_adapterState (n : DistributedStateNode S P) (event : ExecutionEvent P)
    (s : S) : (n.commit event s).adapterState = s := rfl

/-- More rounds than entries make no difference. -/
lemma processBufferLoop_eq {n : DistributedStateNode S P} {rounds : ℕ}
    (h : n.eventBuffer.size ≤ rounds) : processBufferLoop A rounds n = processBuffer A n := by
  suffices hall : ∀ (r r' : ℕ) (n : DistributedStateNode S P), n.eventBuffer.size ≤ r →
      n.eventBuffer.size ≤ r' → processBufferLoop A r n = processBufferLoop A r' n from
    hall _ _ n h le_rfl
  intro r
  induction r with
  | zero =>
    intro r' n hr _
    have hnone := Dict.size_eq_zero.mp (Nat.le_zero.mp hr) n.nextExpectedCausalId
    cases r' with
    | zero => rfl
    | succ r' => rw [processBufferLoop, processBufferLoop, hnone]
  | succ r ih =>
    intro r' n hr hr'
    cases r' with
    | zero =>
      have hnone := Dict.size_eq_zero.mp (Nat.le_zero.mp hr') n.nextExpectedCausalId
      rw [processBufferLoop, processBufferLoop, hnone]
    | succ r' =>
      rw [processBufferLoop, processBufferLoop]
      cases hget : n.eventBuffer.get? n.nextExpectedCausalId with
      | none => rfl
      | some event =>
        have hlt := Dict.size_erase_lt hget
        rcases hs : A.applyEventPayload event.payload n.adapterState with ⟨s, exc⟩
        simp only [hs]
        cases exc with
        | none =>
          exact ih r' (n.commit event s) (by simp only [commit]; omega)
            (by simp only [commit]; omega)
        | some exc => rfl

/-- With nothing at the cursor the loop ends. -/
lemma processBuffer_of_none {n : DistributedStateNode S P}
    (h : n.eventBuffer.get? n.nextExpectedCausalId = none) : processBuffer A n = (n, none) := by
  rw [← processBufferLoop_eq (Nat.le_succ _), processBufferLoop, h]

/-- An event at the cursor whose payload is applied is committed, and the loop goes on. -/
lemma processBuffer_of_some {n : DistributedStateNode S P} {event : ExecutionEvent P} {s : S}
    (h : n.eventBuffer.get? n.nextExpectedCausalId = some event)
    (hs : A.applyEventPayload event.payload n.adapterState = (s, none)) :
    processBuffer A n = processBuffer A (n.commit event s) := by
  have hlt := Dict.size_erase_lt h
  rw [← processBufferLoop_eq (A := A) (n := n) (Nat.le_succ _), processBufferLoop, h]
  simp only [hs]
  exact processBufferLoop_eq (n := n.commit event s) (by simp only [commit]; omega)

/-- An event at the cursor whose payload raises is popped, and the loop is left. -/
lemma processBuffer_of_raise {n : DistributedStateNode S P} {event : ExecutionEvent P} {s : S}
    {exc : PyError} (h : n.eventBuffer.get? n.nextExpectedCausalId = some event)
    (hs : A.applyEventPayload event.payload n.adapterState = (s, some exc)) :
    processBuffer A n =
      ({ n with
          eventBuffer := n.eventBuffer.erase n.nextExpectedCausalId
          adapterState := s }, some exc) := by
  rw [← processBufferLoop_eq (A := A) (n := n) (Nat.le_succ _), processBufferLoop, h]
  simp only [hs]

/-- **Induction along the loop.**  It stops when nothing is due, it is left when the adapter
raises, and otherwise it goes on with one event less in the buffer. -/
@[elab_as_elim]
theorem processBuffer_induct {motive : DistributedStateNode S P → Prop}
    (stop : ∀ n, n.eventBuffer.get? n.nextExpectedCausalId = none → motive n)
    (raise : ∀ n event s exc, n.eventBuffer.get? n.nextExpectedCausalId = some event →
      A.applyEventPayload event.payload n.adapterState = (s, some exc) → motive n)
    (next : ∀ n event s, n.eventBuffer.get? n.nextExpectedCausalId = some event →
      A.applyEventPayload event.payload n.adapterState = (s, none) →
      motive (n.commit event s) → motive n)
    (n : DistributedStateNode S P) : motive n := by
  induction hsize : n.eventBuffer.size using Nat.strong_induction_on generalizing n with
  | _ size ih =>
    cases hget : n.eventBuffer.get? n.nextExpectedCausalId with
    | none => exact stop n hget
    | some event =>
      rcases hs : A.applyEventPayload event.payload n.adapterState with ⟨s, _ | exc⟩
      · have hlt := Dict.size_erase_lt hget
        exact next n event s hget hs (ih _ (by rwa [← hsize]) (n.commit event s) rfl)
      · exact raise n event s exc hget hs

/-! ### The node as a reorder buffer -/

/-- The reorder buffer inside a node. -/
def inbox (n : DistributedStateNode S P) : ReorderBuffer (ExecutionEvent P) :=
  ⟨n.nextExpectedCausalId, n.eventBuffer⟩

/-- `Logs A n l n'`: on the way from `n` to `n'` exactly the events `l` were applied and
logged, in this order. -/
structure Logs (A : Adapter S P) (n : DistributedStateNode S P) (l : List (ExecutionEvent P))
    (n' : DistributedStateNode S P) : Prop where
  nodeId_eq : n'.nodeId = n.nodeId
  localLog_eq : n'.localLog = n.localLog ++ l
  adapterState_eq : n'.adapterState = A.fold n.adapterState l

lemma Logs.refl (n : DistributedStateNode S P) : Logs A n [] n := ⟨rfl, by simp, rfl⟩

lemma Logs.trans {n n' n'' : DistributedStateNode S P} {l l' : List (ExecutionEvent P)}
    (h : Logs A n l n') (h' : Logs A n' l' n'') : Logs A n (l ++ l') n'' where
  nodeId_eq := h'.nodeId_eq.trans h.nodeId_eq
  localLog_eq := by rw [h'.localLog_eq, h.localLog_eq, List.append_assoc]
  adapterState_eq := by rw [h'.adapterState_eq, h.adapterState_eq, A.fold_append]

lemma processBuffer_releases (hA : A.NonRaising) (n : DistributedStateNode S P) :
    (processBuffer A n).2 = none ∧ ∃ l, n.inbox.Releases l (processBuffer A n).1.inbox ∧
      Logs A n l (processBuffer A n).1 := by
  induction n using processBuffer_induct (A := A) with
  | stop n hget =>
    rw [processBuffer_of_none hget]
    exact ⟨rfl, [], .stop hget, .refl n⟩
  | raise n event s exc hget hs =>
    have hnone := hA event.payload n.adapterState
    rw [hs] at hnone
    cases hnone
  | next n event s hget hs ih =>
    obtain ⟨hok, l, hrel, hlog⟩ := ih
    rw [processBuffer_of_some hget hs]
    refine ⟨hok, event :: l, .next hget hrel, ?_⟩
    have hone : Logs A n [event] (n.commit event s) := ⟨rfl, rfl, by simp [commit, hs]⟩
    exact hone.trans hlog

/-- **The node refines a reorder buffer.**  With an adapter that never raises, receiving an
event is an arrival at the reorder buffer, whose handed-out events are logged and applied. -/
theorem receiveEvent_offers (hA : A.NonRaising) (event : ExecutionEvent P)
    (n : DistributedStateNode S P) :
    (receiveEvent A event n).2 = none ∧ ∃ l,
      n.inbox.Offers event.causalId event l (receiveEvent A event n).1.inbox ∧
      Logs A n l (receiveEvent A event n).1 := by
  by_cases h : event.causalId < n.nextExpectedCausalId
  · rw [receiveEvent, if_pos h]
    exact ⟨rfl, [], .late h, .refl n⟩
  · rw [receiveEvent, if_neg h]
    obtain ⟨hok, l, hrel, hlog⟩ := processBuffer_releases hA
      { n with eventBuffer := n.eventBuffer.set event.causalId event }
    exact ⟨hok, l, .fresh (not_lt.mp h) hrel, hlog.nodeId_eq, hlog.localLog_eq,
      hlog.adapterState_eq⟩

/-! ### Nodes that receive the events of a numbered log -/

section Log

variable {β : Type*} {id : β → ℤ} {f : β → ExecutionEvent P} {L : List β} {s : ℤ}
  {n : DistributedStateNode S P}

/-- The buffered events are those of the log, filed under their numbers. -/
def BuffersFrom (id : β → ℤ) (f : β → ExecutionEvent P) (L : List β)
    (n : DistributedStateNode S P) : Prop :=
  ∀ k e, n.eventBuffer.get? k = some e → ∃ x ∈ L, id x = k ∧ e = f x

lemma BuffersFrom.mono {L' : List β} (h : BuffersFrom id f L n) (hL : L ⊆ L') :
    BuffersFrom id f L' n := fun k e he => by
  obtain ⟨x, hx, hk, hf⟩ := h k e he
  exact ⟨x, hL hx, hk, hf⟩

/-- **Receiving an event of the log** hands out the segment of the log between the old
cursor and the new one, and logs it. -/
theorem receiveEvent_segment (hA : A.NonRaising) (hL : NumberedFrom id s L)
    (hf : ∀ x, (f x).causalId = id x) (hb : BuffersFrom id f L n) {x : β} (hx : x ∈ L) :
    let n' := (receiveEvent A (f x) n).1
    let l := (segment id L n.nextExpectedCausalId n'.nextExpectedCausalId).map f
    n.inbox.Offers (id x) (f x) l n'.inbox ∧ Logs A n l n' := by
  obtain ⟨-, l, hoff, hlog⟩ := receiveEvent_offers hA (f x) n
  have hl := hoff.eq_map_segment hL f ⟨x, hx, (hf x).symm, rfl⟩ hb
  rw [hf] at hoff
  rw [hl] at hoff hlog
  exact ⟨hoff, hlog⟩

/-- What is buffered afterwards still stems from the log. -/
lemma receiveEvent_buffersFrom (hA : A.NonRaising) (hf : ∀ x, (f x).causalId = id x)
    (hb : BuffersFrom id f L n) {x : β} (hx : x ∈ L) :
    BuffersFrom id f L (receiveEvent A (f x) n).1 := by
  intro k e he
  obtain ⟨-, l, hoff, -⟩ := receiveEvent_offers hA (f x) n
  rcases hoff.pending_get? he with ⟨rfl, rfl⟩ | hget
  · exact ⟨x, hx, (hf x).symm, rfl⟩
  · exact hb k e hget

/-- The cursor moves forward, and within the log. -/
lemma receiveEvent_next (hA : A.NonRaising) (hL : NumberedFrom id s L)
    (hf : ∀ x, (f x).causalId = id x) (hb : BuffersFrom id f L n) {x : β} (hx : x ∈ L)
    (hle : n.nextExpectedCausalId ≤ s + L.length) :
    n.nextExpectedCausalId ≤ (receiveEvent A (f x) n).1.nextExpectedCausalId ∧
      (receiveEvent A (f x) n).1.nextExpectedCausalId ≤ s + L.length := by
  obtain ⟨-, l, hoff, -⟩ := receiveEvent_offers hA (f x) n
  have hcur : (receiveEvent A (f x) n).1.nextExpectedCausalId = n.nextExpectedCausalId + l.length :=
    hoff.cursor_eq
  refine ⟨by omega, ?_⟩
  -- the last item that was handed out carries an id of the log
  cases hl : l.length with
  | zero => omega
  | succ i =>
    have hmem : ∃ y ∈ L, id y = n.nextExpectedCausalId + i := by
      rcases hoff.getElem_eq i (by omega) with ⟨hk, -⟩ | hget
      · exact ⟨x, hx, (hf x).symm.trans hk.symm⟩
      · obtain ⟨y, hy, hyk, -⟩ := hb _ _ hget
        exact ⟨y, hy, hyk⟩
    obtain ⟨y, hy, hyk⟩ := hmem
    have := hL.bounds hy
    omega

/-- The node buffers entries of the log, and its cursor is within the log. -/
structure Within (id : β → ℤ) (f : β → ExecutionEvent P) (L : List β)
    (n : DistributedStateNode S P) : Prop where
  buffers : BuffersFrom id f L n
  pos : 1 ≤ n.nextExpectedCausalId
  le : n.nextExpectedCausalId ≤ 1 + L.length

namespace Within

lemma init (id : β → ℤ) (f : β → ExecutionEvent P) (nodeId : String) (s₀ : S) (L : List β) :
    Within id f L (new nodeId s₀) where
  buffers := fun k e he => absurd he (by simp [new])
  pos := le_rfl
  le := by simp [new]

lemma grow (h : Within id f L n) (M : List β) : Within id f (L ++ M) n where
  buffers := h.buffers.mono (List.subset_append_left _ _)
  pos := h.pos
  le := by
    have := h.le
    rw [List.length_append, Nat.cast_add]
    omega

lemma receiveEvent (hA : A.NonRaising) (hL : NumberedFrom id 1 L)
    (hf : ∀ x, (f x).causalId = id x) (h : Within id f L n) {x : β} (hx : x ∈ L) :
    Within id f L (receiveEvent A (f x) n).1 := by
  obtain ⟨hle, hlen⟩ := receiveEvent_next hA hL hf h.buffers hx h.le
  exact ⟨receiveEvent_buffersFrom hA hf h.buffers hx, h.pos.trans hle, hlen⟩

/-- The cursor may be set behind any entry of the log. -/
lemma moveTo (hL : NumberedFrom id 1 L) (h : Within id f L n) {x : β} (hx : x ∈ L) :
    Within id f L { n with nextExpectedCausalId := id x + 1 } := by
  have hbounds := hL.bounds hx
  refine ⟨h.buffers, ?_, ?_⟩
  · show 1 ≤ id x + 1
    omega
  · show id x + 1 ≤ 1 + (L.length : ℤ)
    omega

end Within

/-- The node follows the log from state `s₀`: it has logged and applied the entries before
its cursor, and buffers entries. -/
structure Follows (A : Adapter S P) (id : β → ℤ) (f : β → ExecutionEvent P) (s₀ : S) (L : List β)
    (n : DistributedStateNode S P) : Prop extends Within id f L n where
  log : n.localLog = (segment id L 1 n.nextExpectedCausalId).map f
  state : n.adapterState = A.fold s₀ n.localLog

lemma Follows.init (A : Adapter S P) (id : β → ℤ) (f : β → ExecutionEvent P) (nodeId : String)
    (s₀ : S) (L : List β) : Follows A id f s₀ L (new nodeId s₀) where
  toWithin := .init id f nodeId s₀ L
  log := by simp [new, segment_eq_nil]
  state := rfl

/-- A node that follows a log goes on following it when the log grows. -/
lemma Follows.grow {s₀ : S} {M : List β} (hL : NumberedFrom id 1 (L ++ M))
    (h : Follows A id f s₀ L n) : Follows A id f s₀ (L ++ M) n where
  toWithin := h.toWithin.grow M
  log := by rw [h.log, hL.segment_left h.le]
  state := h.state

lemma Follows.receiveEvent (hA : A.NonRaising) (hL : NumberedFrom id 1 L)
    (hf : ∀ x, (f x).causalId = id x) {s₀ : S} (h : Follows A id f s₀ L n) {x : β} (hx : x ∈ L) :
    Follows A id f s₀ L (receiveEvent A (f x) n).1 := by
  obtain ⟨hoff, hlog⟩ := receiveEvent_segment hA hL hf h.buffers hx
  have hle : n.nextExpectedCausalId
      ≤ (DistributedStateNode.receiveEvent A (f x) n).1.nextExpectedCausalId := hoff.cursor_le
  refine ⟨h.toWithin.receiveEvent hA hL hf hx, ?_, ?_⟩
  · rw [hlog.localLog_eq, h.log, ← List.map_append, hL.segment_append h.pos hle]
  · rw [hlog.adapterState_eq, h.state, ← A.fold_append, ← hlog.localLog_eq]

/-- The entries that were logged are a prefix of the log. -/
lemma Follows.localLog_eq_take (hL : NumberedFrom id 1 L) {s₀ : S}
    (h : Follows A id f s₀ L n) :
    n.localLog = (L.take (n.nextExpectedCausalId - 1).toNat).map f := by
  have hpos := h.pos
  rw [h.log, ← hL.segment_eq_take,
    show (1 : ℤ) + (n.nextExpectedCausalId - 1).toNat = n.nextExpectedCausalId by omega]

end Log

/-! ### The merge guarantee -/

variable (A) in
/-- One delivery to a node, as a step of a run. -/
def deliver (n : DistributedStateNode S P) (event : ExecutionEvent P) : DistributedStateNode S P :=
  (receiveEvent A event n).1

/-- What a node looks like after the deliveries `ds` of events of the log `es`. -/
structure Merged (A : Adapter S P) (s₀ : S) (es ds : List (ExecutionEvent P))
    (n : DistributedStateNode S P) : Prop
    extends Follows A ExecutionEvent.causalId (fun e => e) s₀ es n where
  settled : n.inbox.Settled
  received : ∀ k, k ∈ n.inbox.received ↔ k < 1 ∨ ∃ d ∈ ds, d.causalId = k

lemma Merged.init (A : Adapter S P) (nodeId : String) (s₀ : S) (es : List (ExecutionEvent P)) :
    Merged A s₀ es [] (new nodeId s₀) where
  toFollows := Follows.init A _ _ nodeId s₀ es
  settled := fun k hk => absurd hk (by simp [inbox, new])
  received := by simp [inbox, new, ReorderBuffer.mem_received]

/-- One more delivery. -/
lemma Merged.step (hA : A.NonRaising) {s₀ : S} {es ds : List (ExecutionEvent P)}
    (hes : NumberedFrom ExecutionEvent.causalId 1 es) {n : DistributedStateNode S P}
    (h : Merged A s₀ es ds n) {d : ExecutionEvent P} (hd : d ∈ es) :
    Merged A s₀ es (ds ++ [d]) (deliver A n d) := by
  obtain ⟨-, l, hoff, -⟩ := receiveEvent_offers hA d n
  refine ⟨h.toFollows.receiveEvent hA hes (fun _ => rfl) hd, hoff.settled h.settled, fun k => ?_⟩
  have hrec : (deliver A n d).inbox.received = insert d.causalId n.inbox.received :=
    hoff.received_eq
  rw [hrec, Set.mem_insert_iff, h.received]
  simp only [List.mem_append, List.mem_singleton, or_and_right, exists_or, exists_eq_left]
  rw [eq_comm (a := k)]
  exact or_rotate

lemma Merged.run (hA : A.NonRaising) (nodeId : String) (s₀ : S) {es : List (ExecutionEvent P)}
    (hes : NumberedFrom ExecutionEvent.causalId 1 es) {ds : List (ExecutionEvent P)}
    (hds : ∀ d ∈ ds, d ∈ es) : Merged A s₀ es ds (Run.exec (deliver A) (new nodeId s₀) ds) := by
  induction ds using List.reverseRecOn with
  | nil => exact Merged.init A nodeId s₀ es
  | append_singleton ds d ih =>
    rw [Run.exec_append]
    exact (ih fun e he => hds e (List.mem_append_left _ he)).step hA hes (hds d (by simp))

/-- A delivered event waits exactly when it is ahead of the cursor. -/
lemma Merged.get?_iff {s₀ : S} {es ds : List (ExecutionEvent P)}
    (hes : NumberedFrom ExecutionEvent.causalId 1 es) (hds : ∀ d ∈ ds, d ∈ es)
    {n : DistributedStateNode S P} (h : Merged A s₀ es ds n) (k : ℤ) (e : ExecutionEvent P) :
    n.eventBuffer.get? k = some e ↔
      e ∈ ds ∧ e.causalId = k ∧ n.nextExpectedCausalId - 1 < k := by
  constructor
  · intro he
    obtain ⟨x, hx, hk, rfl⟩ := h.buffers k e he
    have hkeys : k ∈ n.inbox.pending.keys := Dict.mem_keys_of_get? he
    have hlt : n.nextExpectedCausalId < k := h.settled k hkeys
    rcases (h.received k).mp (Or.inr hkeys) with hk1 | ⟨d, hd, hdk⟩
    · have := h.pos
      omega
    · rw [hes.eq_of_id_eq hx (hds d hd) (hk.trans hdk.symm)]
      exact ⟨hd, hdk, by omega⟩
  · rintro ⟨he, hk, hlt⟩
    rcases (h.received k).mpr (Or.inr ⟨e, he, hk⟩) with hk' | hk'
    · have : k < n.nextExpectedCausalId := hk'
      omega
    · obtain ⟨x, hx⟩ := Option.ne_none_iff_exists'.mp (mt Dict.get?_eq_none.mp (not_not.mpr hk'))
      obtain ⟨y, hy, hyk, rfl⟩ := h.buffers k x hx
      rw [hes.eq_of_id_eq (hds e he) hy (hk.trans hyk.symm)]
      exact hx

/-- **Deterministic merge.**  Whatever the order and the repetitions in which a fresh node
receives events of `e₁ … e_K`: with `m` the id before its cursor, its log is `e₁ … e_m`, its
adapter state the fold of their payloads, and its buffer holds the received events beyond
`m`.  Once every event was delivered, `m = K` and the state is that of the whole log. -/
theorem deterministic_merge (hA : A.NonRaising) (nodeId : String) (s₀ : S)
    (es : List (ExecutionEvent P)) (hes : NumberedFrom ExecutionEvent.causalId 1 es)
    (ds : List (ExecutionEvent P)) (hds : ∀ d ∈ ds, d ∈ es) :
    let n := Run.exec (deliver A) (new nodeId s₀) ds
    let m := n.nextExpectedCausalId - 1
    (∀ event, (receiveEvent A event n).2 = none) ∧
      (0 ≤ m ∧ m ≤ es.length) ∧
      n.localLog = es.take m.toNat ∧
      n.adapterState = A.fold s₀ (es.take m.toNat) ∧
      (∀ k e, n.eventBuffer.get? k = some e ↔ e ∈ ds ∧ e.causalId = k ∧ m < k) ∧
      ((∀ e ∈ es, e ∈ ds) → m = es.length ∧ n.adapterState = A.fold s₀ es) := by
  intro n m
  have h : Merged A s₀ es ds n := Merged.run hA nodeId s₀ hes hds
  have hpos := h.pos
  have hle := h.le
  have hlog : n.localLog = es.take m.toNat :=
    (h.toFollows.localLog_eq_take hes).trans (List.map_id _)
  have hstate : n.adapterState = A.fold s₀ (es.take m.toNat) := hlog ▸ h.state
  refine ⟨fun event => (receiveEvent_offers hA event n).1, by omega, hlog, hstate,
    h.get?_iff hes hds, fun hall => ?_⟩
  have hcur : n.nextExpectedCausalId = es.length + 1 := by
    refine h.settled.cursor_eq (fun k hk => (h.received k).mpr ?_) fun hk => ?_
    · by_cases hk1 : k < 1
      · exact Or.inl hk1
      · obtain ⟨e, he, hek⟩ := hes.exists_mem (k := k) (by omega) (by omega)
        exact Or.inr ⟨e, hall e he, hek⟩
    · rcases (h.received _).mp hk with hk1 | ⟨d, hd, hdk⟩
      · omega
      · have := hes.bounds (hds d hd)
        omega
  refine ⟨by omega, ?_⟩
  rw [hstate, List.take_of_length_le (by omega)]

end DistributedStateNode

/-! ### The mock adapter -/

/-- The adapter of `tests_mock_adapter.py`: a counter, to which the entry `add` of the
payload is added if there is one. -/
def mockAdapter (sha256 : String → String) : Adapter ℤ (Option ℤ) where
  applyEventPayload add val := (val + add.getD 0, none)
  getStateHash val := sha256 (toString val)

lemma mockAdapter_nonRaising (sha256 : String → String) : (mockAdapter sha256).NonRaising :=
  fun _ _ => rfl

/-- An event that adds `v` to the counter. -/
def addEvent (causalId v : ℤ) : ExecutionEvent (Option ℤ) := ⟨causalId, "Node_A", "ADD", some v⟩

/-- The merge guarantee for three additions that arrive as `3, 1, 1, 2`. -/
theorem DistributedStateNode.deterministic_merge_mock :
    let n := Run.exec (deliver (mockAdapter id)) (new "Node_B" 0)
      [addEvent 3 30, addEvent 1 10, addEvent 1 10, addEvent 2 20]
    n.nextExpectedCausalId - 1 = 3 ∧ n.adapterState = 60 :=
  (deterministic_merge (mockAdapter_nonRaising id) "Node_B" 0
    [addEvent 1 10, addEvent 2 20, addEvent 3 30] (by decide)
    [addEvent 3 30, addEvent 1 10, addEvent 1 10, addEvent 2 20] (by decide)).2.2.2.2.2 (by decide)

end QuantumFoundation
