import QuantumFoundation.Distributed.StateNode

/-!
# The delayed input queue

The queue of `latency_ordering.py` and the ordering policy it implements.  The queue and
the state node were written independently of each other; both refine the same reorder
buffer (`enqueue_offers`, `DistributedStateNode.receiveEvent_offers`), and arrivals at a
reorder buffer are deterministic, so the two stay in step over every sequence of arrivals.
-/

namespace QuantumFoundation

namespace CausalOrderingPolicy

/-- The loop of `validate_ordering` from index `i` on, where `last` stands at `i - 1`. -/
def validateOrderingFrom (i : ℕ) (last : ℤ) : List ℤ → Bool × Option String
  | [] => (true, none)
  | k :: events =>
    if k ≤ last then
      (false, some s!"Ordering violation at index {i}: causal_id {k} ≤ {last}")
    else validateOrderingFrom (i + 1) k events

/-- `validate_ordering`: are the ids strictly increasing? -/
def validateOrdering : List ℤ → Bool × Option String
  | [] => (true, none)
  | k :: events => validateOrderingFrom 1 k events

lemma validateOrderingFrom_eq_iff {i : ℕ} {last : ℤ} {events : List ℤ} :
    validateOrderingFrom i last events = (true, none) ↔ (last :: events).IsChain (· < ·) := by
  induction events generalizing i last with
  | nil => simp [validateOrderingFrom]
  | cons k events ih =>
    rw [validateOrderingFrom, List.isChain_cons_cons]
    split
    · next hle =>
      refine iff_of_false (fun h => absurd (congrArg Prod.fst h) (by simp)) fun h => ?_
      exact absurd h.1 (not_lt.mpr hle)
    · next hlt => exact ih.trans (iff_and_self.mpr fun _ => not_le.mp hlt)

/-- The policy accepts exactly the lists of strictly increasing ids. -/
lemma validateOrdering_eq_iff {events : List ℤ} :
    validateOrdering events = (true, none) ↔ events.IsChain (· < ·) := by
  cases events with
  | nil => simp [validateOrdering]
  | cons k events => exact validateOrderingFrom_eq_iff

end CausalOrderingPolicy

/-- A queue of events that wait for their causal predecessors. -/
structure DelayedInputQueue (α : Type*) where
  nextExpected : ℤ
  buffer : Dict ℤ α
  processed : List ℤ
  totalBuffered : ℕ
  totalImmediate : ℕ

namespace DelayedInputQueue

variable {α : Type*}

/-- A fresh queue. -/
def new (startCausalId : ℤ) : DelayedInputQueue α where
  nextExpected := startCausalId
  buffer := .empty
  processed := []
  totalBuffered := 0
  totalImmediate := 0

/-- The body of the draining loop, for the event `evt` at the cursor. -/
def pop (q : DelayedInputQueue α) : DelayedInputQueue α :=
  { q with
    buffer := q.buffer.erase q.nextExpected
    processed := q.processed ++ [q.nextExpected]
    nextExpected := q.nextExpected + 1 }

/-- The draining loop of `enqueue`, for at most the given number of rounds. -/
def drainLoop : ℕ → List (ℤ × α) → DelayedInputQueue α → List (ℤ × α) × DelayedInputQueue α
  | 0, ready, q => (ready, q)
  | rounds + 1, ready, q =>
    match q.buffer.get? q.nextExpected with
    | none => (ready, q)
    | some evt => drainLoop rounds (ready ++ [(q.nextExpected, evt)]) q.pop

/-- The statistics that `enqueue` keeps. -/
def track (causalId : ℤ) (ready : List (ℤ × α)) (q : DelayedInputQueue α) : DelayedInputQueue α :=
  if ready.head?.map Prod.fst = some causalId then
    { q with
      totalImmediate := q.totalImmediate + 1
      totalBuffered := q.totalBuffered + (ready.length - 1) }
  else { q with totalBuffered := q.totalBuffered + 1 }

/-- `enqueue`: the events that are ready now, in causal order.  Every round of the loop pops
an entry, so the number of entries bounds the number of rounds. -/
def enqueue (causalId : ℤ) (event : α) (q : DelayedInputQueue α) :
    List (ℤ × α) × DelayedInputQueue α :=
  if causalId < q.nextExpected then ([], q)
  else
    let buffered := { q with buffer := q.buffer.set causalId event }
    let (ready, drained) := drainLoop buffered.buffer.size [] buffered
    (ready, drained.track causalId ready)

/-- A sequence of arrivals, with the list of ready events that each of them returns. -/
def enqueueAll (q : DelayedInputQueue α) : List (ℤ × α) → List (List (ℤ × α)) × DelayedInputQueue α
  | [] => ([], q)
  | (causalId, event) :: arrivals =>
    let (ready, q') := q.enqueue causalId event
    let (rest, q'') := q'.enqueueAll arrivals
    (ready :: rest, q'')

/-! ### The queue as a reorder buffer -/

/-- The reorder buffer inside a queue, with every event filed together with its id. -/
def inbox (q : DelayedInputQueue α) : ReorderBuffer (ℤ × α) :=
  ⟨q.nextExpected, q.buffer.mapValues Prod.mk⟩

@[simp] lemma track_inbox (causalId : ℤ) (ready : List (ℤ × α)) (q : DelayedInputQueue α) :
    (q.track causalId ready).inbox = q.inbox := by
  rw [track]
  split <;> rfl

@[simp] lemma track_processed (causalId : ℤ) (ready : List (ℤ × α)) (q : DelayedInputQueue α) :
    (q.track causalId ready).processed = q.processed := by
  rw [track]
  split <;> rfl

lemma pop_inbox (q : DelayedInputQueue α) :
    q.pop.inbox = ⟨q.inbox.cursor + 1, q.inbox.pending.erase q.inbox.cursor⟩ := by
  simp [inbox, pop, Dict.mapValues_erase]

/-- `Hands q ready q'`: on the way from `q` to `q'` the queue has handed out the events
`ready`, which are numbered from its cursor on and noted as processed. -/
structure Hands (q : DelayedInputQueue α) (ready : List (ℤ × α)) (q' : DelayedInputQueue α) :
    Prop where
  numbered : NumberedFrom Prod.fst q.nextExpected ready
  processed_eq : q'.processed = q.processed ++ ready.map Prod.fst

lemma Hands.refl (q : DelayedInputQueue α) : Hands q [] q := ⟨trivial, by simp⟩

lemma Hands.cons {q q' : DelayedInputQueue α} {ready : List (ℤ × α)} (h : Hands q.pop ready q')
    (evt : α) : Hands q ((q.nextExpected, evt) :: ready) q' := by
  refine ⟨⟨rfl, h.numbered⟩, ?_⟩
  rw [h.processed_eq, pop, List.append_assoc]
  rfl

/-- The loop hands out what is due, behind what it was given. -/
lemma drainLoop_releases {rounds : ℕ} (ready : List (ℤ × α)) {q : DelayedInputQueue α}
    (h : q.buffer.size ≤ rounds) : ∃ l, (drainLoop rounds ready q).1 = ready ++ l ∧
      q.inbox.Releases l (drainLoop rounds ready q).2.inbox ∧
      Hands q l (drainLoop rounds ready q).2 := by
  induction rounds generalizing ready q with
  | zero =>
    have hnone := Dict.size_eq_zero.mp (Nat.le_zero.mp h) q.nextExpected
    refine ⟨[], by simp [drainLoop], .stop ?_, .refl q⟩
    simp [inbox, Dict.get?_mapValues, hnone]
  | succ rounds ih =>
    rw [drainLoop]
    cases hget : q.buffer.get? q.nextExpected with
    | none =>
      refine ⟨[], by simp, .stop ?_, .refl q⟩
      simp [inbox, Dict.get?_mapValues, hget]
    | some evt =>
      have hlt := Dict.size_erase_lt hget
      obtain ⟨l, hready, hrel, hands⟩ := ih (ready ++ [(q.nextExpected, evt)]) (q := q.pop)
        (by simp only [pop]; omega)
      rw [pop_inbox] at hrel
      refine ⟨(q.nextExpected, evt) :: l, by simp [hready], .next ?_ hrel, hands.cons evt⟩
      simp [inbox, Dict.get?_mapValues, hget]

/-- **The queue refines a reorder buffer**: an arrival hands out the events that are ready. -/
theorem enqueue_offers (causalId : ℤ) (event : α) (q : DelayedInputQueue α) :
    q.inbox.Offers causalId (causalId, event) (q.enqueue causalId event).1
        (q.enqueue causalId event).2.inbox ∧
      Hands q (q.enqueue causalId event).1 (q.enqueue causalId event).2 := by
  by_cases h : causalId < q.nextExpected
  · rw [enqueue, if_pos h]
    exact ⟨.late h, .refl q⟩
  · rw [enqueue, if_neg h]
    dsimp only
    obtain ⟨l, hready, hrel, hands⟩ := drainLoop_releases []
      (q := { q with buffer := q.buffer.set causalId event }) le_rfl
    rw [List.nil_append] at hready
    rw [hready, track_inbox]
    refine ⟨.fresh (not_lt.mp h) ?_, hands.numbered, ?_⟩
    · rwa [inbox, Dict.mapValues_set] at hrel
    · rw [track_processed]
      exact hands.processed_eq

/-! ### What the queue has processed -/

/-- The queue has processed the ids from `s` up to its cursor. -/
structure Tracks (s : ℤ) (q : DelayedInputQueue α) : Prop where
  numbered : NumberedFrom (fun k => k) s q.processed
  next_eq : q.nextExpected = s + q.processed.length

lemma Tracks.new (s : ℤ) : Tracks s (new s : DelayedInputQueue α) :=
  ⟨trivial, by simp [DelayedInputQueue.new]⟩

lemma Tracks.enqueue {s : ℤ} {q : DelayedInputQueue α} (h : Tracks s q) (causalId : ℤ)
    (event : α) : Tracks s (q.enqueue causalId event).2 := by
  obtain ⟨hoff, hands⟩ := enqueue_offers causalId event q
  have hcursor : (q.enqueue causalId event).2.nextExpected
      = q.nextExpected + (q.enqueue causalId event).1.length := hoff.cursor_eq
  refine ⟨?_, ?_⟩
  · rw [hands.processed_eq, NumberedFrom.append, ← h.next_eq]
    exact ⟨h.numbered, NumberedFrom.map.mpr hands.numbered⟩
  · rw [hcursor, h.next_eq, hands.processed_eq, List.length_append, List.length_map]
    push_cast
    ring

lemma Tracks.processed_eq {s : ℤ} {q : DelayedInputQueue α} (h : Tracks s q) :
    q.processed = Int.range s q.nextExpected := by
  have hids := h.numbered.map_eq_range
  rwa [List.map_id', ← h.next_eq] at hids

lemma Tracks.validateOrdering {s : ℤ} {q : DelayedInputQueue α} (h : Tracks s q) :
    CausalOrderingPolicy.validateOrdering q.processed = (true, none) :=
  CausalOrderingPolicy.validateOrdering_eq_iff.mpr h.numbered.pairwise_lt.isChain

/-! ### In step with a state node -/

section Node

variable {S P : Type*} {A : Adapter S P} {f : ℤ × α → ExecutionEvent P}
  {q : DelayedInputQueue α} {n : DistributedStateNode S P}

/-- The node and the queue wait for the same id, and hold back the same events. -/
def InStep (f : ℤ × α → ExecutionEvent P) (q : DelayedInputQueue α)
    (n : DistributedStateNode S P) : Prop := n.inbox = q.inbox.map f

lemma InStep.next_eq (h : InStep f q n) : n.nextExpectedCausalId = q.nextExpected :=
  congrArg ReorderBuffer.cursor h

lemma InStep.buffer_eq (h : InStep f q n) :
    n.eventBuffer = q.buffer.mapValues fun k a => f (k, a) := by
  have hpending : n.eventBuffer = (q.buffer.mapValues Prod.mk).mapValues fun _ => f :=
    congrArg ReorderBuffer.pending h
  rw [hpending, Dict.mapValues_mapValues]

/-- **One arrival.**  The node logs exactly what the queue hands out, and they stay in step. -/
theorem InStep.arrive (hA : A.NonRaising) (hf : ∀ x, (f x).causalId = x.1) (h : InStep f q n)
    (x : ℤ × α) :
    InStep f (q.enqueue x.1 x.2).2 (n.deliver A (f x)) ∧
      (n.deliver A (f x)).localLog = n.localLog ++ (q.enqueue x.1 x.2).1.map f := by
  obtain ⟨hoff, -⟩ := enqueue_offers x.1 x.2 q
  obtain ⟨-, l, hnode, hlogs⟩ := DistributedStateNode.receiveEvent_offers hA (f x) n
  rw [hf, h] at hnode
  obtain ⟨hl, hinbox⟩ := hnode.unique hoff.map
  exact ⟨hinbox, hl ▸ hlogs.localLog_eq⟩

/-- Any arrivals at a queue and a node that are in step. -/
lemma InStep.arrivals (hA : A.NonRaising) (hf : ∀ x, (f x).causalId = x.1) (h : InStep f q n)
    (arrivals : List (ℤ × α)) :
    let n' := Run.exec (DistributedStateNode.deliver A) n (arrivals.map f)
    InStep f (q.enqueueAll arrivals).2 n' ∧
      n'.localLog = n.localLog ++ (q.enqueueAll arrivals).1.flatten.map f := by
  induction arrivals generalizing q n with
  | nil => exact ⟨h, by simp [enqueueAll]⟩
  | cons x arrivals ih =>
    obtain ⟨hstep, hlog⟩ := h.arrive hA hf x
    obtain ⟨hrest, hlogs⟩ := ih hstep
    refine ⟨hrest, ?_⟩
    rw [List.map_cons, Run.exec_cons, hlogs, hlog, List.append_assoc, ← List.map_append]
    rfl

end Node

lemma Tracks.enqueueAll {s : ℤ} {q : DelayedInputQueue α} (h : Tracks s q)
    (arrivals : List (ℤ × α)) : Tracks s (q.enqueueAll arrivals).2 := by
  induction arrivals generalizing q with
  | nil => exact h
  | cons x arrivals ih => exact ih (h.enqueue x.1 x.2)

/-- **The queue refines the state node.**  Let a fresh queue and a fresh node wait for the
same id `s`, and let the node receive the event `f (k, a)` for every arrival of an event `a`
with id `k`.  After any arrivals the node has logged the events that the queue has returned,
in this order and with these ids; both hold back the same events and wait for the same id;
and the queue has processed the ids from `s` up to that one, which the policy accepts. -/
theorem enqueue_refines_receive_event {S P : Type*} {A : Adapter S P} (hA : A.NonRaising)
    {f : ℤ × α → ExecutionEvent P} (hf : ∀ x, (f x).causalId = x.1) (nodeId : String) (s₀ : S)
    (s : ℤ) (arrivals : List (ℤ × α)) :
    let returned := ((new s).enqueueAll arrivals).1
    let q := ((new s).enqueueAll arrivals).2
    let n := Run.exec (DistributedStateNode.deliver A)
      { DistributedStateNode.new nodeId s₀ with nextExpectedCausalId := s } (arrivals.map f)
    n.localLog = returned.flatten.map f ∧
      n.localLog.map ExecutionEvent.causalId = returned.flatten.map Prod.fst ∧
      n.eventBuffer = q.buffer.mapValues (fun k a => f (k, a)) ∧
      n.nextExpectedCausalId = q.nextExpected ∧
      q.processed = Int.range s q.nextExpected ∧
      CausalOrderingPolicy.validateOrdering q.processed = (true, none) := by
  intro returned q n
  have hstart : InStep f (new s)
      { DistributedStateNode.new nodeId s₀ with nextExpectedCausalId := s } := rfl
  obtain ⟨hstep, hlog⟩ := hstart.arrivals hA hf arrivals
  have htracks : Tracks s q := (Tracks.new s).enqueueAll arrivals
  have hlog : n.localLog = returned.flatten.map f := hlog.trans (List.nil_append _)
  refine ⟨hlog, ?_, hstep.buffer_eq, hstep.next_eq, htracks.processed_eq,
    htracks.validateOrdering⟩
  rw [hlog, List.map_map]
  exact List.map_congr_left fun x _ => hf x

/-- The refinement for arrivals from 5 on with a gap, an overwritten event and a late one. -/
theorem enqueue_refines_receive_event_mock :
    let q := ((new 5).enqueueAll [(7, 70), (5, 50), (7, 71), (5, 9), (6, 60), (9, 90)]).2
    let n := Run.exec (DistributedStateNode.deliver (mockAdapter id))
      { DistributedStateNode.new "Node_B" 0 with nextExpectedCausalId := 5 }
      ([(7, 70), (5, 50), (7, 71), (5, 9), (6, 60), (9, 90)].map fun x => addEvent x.1 x.2)
    n.localLog.map ExecutionEvent.causalId = [5, 6, 7] ∧ n.nextExpectedCausalId = 8 ∧
      q.processed = [5, 6, 7] := by
  intro q n
  obtain ⟨-, hids, -, hnext, hprocessed, -⟩ := enqueue_refines_receive_event
    (mockAdapter_nonRaising id) (f := fun x : ℤ × ℤ => addEvent x.1 x.2) (fun _ => rfl) "Node_B" 0 5
    [(7, 70), (5, 50), (7, 71), (5, 9), (6, 60), (9, 90)]
  exact ⟨hids.trans (by decide), hnext.trans (by decide), hprocessed.trans (by decide)⟩

end DelayedInputQueue

end QuantumFoundation
