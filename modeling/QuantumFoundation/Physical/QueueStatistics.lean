import Mathlib.Data.Finset.Card
import QuantumFoundation.Lib.Run
import QuantumFoundation.Lib.Totals
import QuantumFoundation.Physical.LatencyOrdering

/-!
# The statistics of the delayed input queue

The queue counts an event that has to wait when it arrives, and counts it again when it is released
by its predecessor, and again when its id is sent once more while it waits.  So what the counters
say beyond what has happened is exactly the number of these releases and repetitions, and they
account for each event once along the runs in which there are none.
-/

namespace QuantumFoundation

namespace ReorderBuffer.Releases

variable {α : Type*} {b b' : ReorderBuffer α} {l : List α} {a : α}

/-- What is released leaves the buffer. -/
lemma size_eq (h : Releases b l b') : b'.pending.size + l.length = b.pending.size := by
  induction h with
  | stop _ => rfl
  | next hget _ ih =>
    rw [← Dict.size_erase hget, ← ih, List.length_cons]
    rfl

lemma eq_nil_iff (h : Releases b l b') : l = [] ↔ b.cursor ∉ b.pending.keys := by
  rw [← Dict.get?_eq_none]
  cases h with
  | stop hnone => exact iff_of_true rfl hnone
  | next hsome _ => exact iff_of_false (List.cons_ne_nil _ _) (by rw [hsome]; exact nofun)

/-- The item at the cursor is released first. -/
lemma of_get? (h : Releases b l b') (hget : b.pending.get? b.cursor = some a) :
    ∃ l', l = a :: l' ∧ Releases ⟨b.cursor + 1, b.pending.erase b.cursor⟩ l' b' := by
  cases h with
  | stop hnone => exact absurd (hnone.symm.trans hget) nofun
  | next hsome hrest =>
    cases Option.some.inj (hsome.symm.trans hget)
    exact ⟨_, rfl, hrest⟩

end ReorderBuffer.Releases

namespace DelayedInputQueue

variable {α : Type*}

/-! ### One call -/

/-- The queue with the event in its buffer. -/
def file (causalId : ℤ) (event : α) (q : DelayedInputQueue α) : DelayedInputQueue α :=
  { q with buffer := q.buffer.set causalId event }

/-- What `enqueue` makes of an event that is not old. -/
lemma enqueue_of_le {causalId : ℤ} {q : DelayedInputQueue α} (h : q.nextExpected ≤ causalId)
    (event : α) : q.enqueue causalId event =
      (let r := drainLoop (q.file causalId event).buffer.size [] (q.file causalId event)
      (r.1, r.2.track causalId r.1)) := if_neg (not_lt.mpr h)

lemma drainLoop_stats (rounds : ℕ) (ready : List (ℤ × α)) (q : DelayedInputQueue α) :
    (drainLoop rounds ready q).2.totalBuffered = q.totalBuffered ∧
      (drainLoop rounds ready q).2.totalImmediate = q.totalImmediate := by
  induction rounds generalizing ready q with
  | zero => exact ⟨rfl, rfl⟩
  | succ rounds ih =>
    rw [drainLoop]
    cases q.buffer.get? q.nextExpected with
    | none => exact ⟨rfl, rfl⟩
    | some evt => exact ih _ q.pop

/-- Nothing is drained while the event at the cursor is missing. -/
lemma drainLoop_of_none {q : DelayedInputQueue α} (h : q.buffer.get? q.nextExpected = none)
    (rounds : ℕ) (ready : List (ℤ × α)) : drainLoop rounds ready q = (ready, q) := by
  cases rounds with
  | zero => rfl
  | succ rounds => simp only [drainLoop, h]

variable {q : DelayedInputQueue α} {causalId : ℤ}

lemma keys_inbox (q : DelayedInputQueue α) : q.inbox.pending.keys = q.buffer.keys :=
  Dict.keys_mapValues _ _

lemma get?_inbox (q : DelayedInputQueue α) (j : ℤ) :
    q.inbox.pending.get? j = (q.buffer.get? j).map (Prod.mk j) := Dict.get?_mapValues _ _ _

lemma size_inbox (q : DelayedInputQueue α) : q.inbox.pending.size = q.buffer.size :=
  List.length_map _

lemma not_mem_keys_of_le (h : q.inbox.Settled) (hle : causalId ≤ q.nextExpected) :
    causalId ∉ q.buffer.keys := fun hmem =>
  not_lt.mpr hle (h causalId (by rwa [keys_inbox]))

/-- An old event is ignored. -/
lemma enqueue_of_lt (h : causalId < q.nextExpected) (event : α) :
    q.enqueue causalId event = ([], q) := if_pos h

/-- An event ahead of the cursor has to wait. -/
lemma enqueue_of_gt (hs : q.inbox.Settled) (h : q.nextExpected < causalId) (event : α) :
    q.enqueue causalId event = ([], { q with
      buffer := q.buffer.set causalId event
      totalBuffered := q.totalBuffered + 1 }) := by
  have hnone : (q.file causalId event).buffer.get? (q.file causalId event).nextExpected = none := by
    rw [file, Dict.get?_set, if_neg h.ne, Dict.get?_eq_none]
    exact not_mem_keys_of_le hs le_rfl
  rw [enqueue_of_le h.le, drainLoop_of_none hnone]
  rfl

/-- The event at the cursor is returned, with the waiting successors. -/
lemma enqueue_of_eq (hs : q.inbox.Settled) (event : α) :
    ∃ l q', q.enqueue q.nextExpected event = ((q.nextExpected, event) :: l, q') ∧
      q'.totalImmediate = q.totalImmediate + 1 ∧
      q'.totalBuffered = q.totalBuffered + l.length ∧
      q'.processed.length = q.processed.length + l.length + 1 ∧
      q'.buffer.size + l.length = q.buffer.size ∧
      q'.buffer.keys ⊆ q.buffer.keys ∧
      (l = [] ↔ q.nextExpected + 1 ∉ q.buffer.keys) := by
  have hnew : q.buffer.get? q.nextExpected = none :=
    Dict.get?_eq_none.mpr (not_mem_keys_of_le hs le_rfl)
  obtain ⟨hbuffered, himmediate⟩ := drainLoop_stats (q.file q.nextExpected event).buffer.size []
    (q.file q.nextExpected event)
  obtain ⟨l, hready, hrel, hands⟩ := drainLoop_releases [] (q := q.file q.nextExpected event) le_rfl
  rw [enqueue_of_le le_rfl]
  generalize drainLoop (q.file q.nextExpected event).buffer.size []
    (q.file q.nextExpected event) = r at *
  have hget : (q.file q.nextExpected event).inbox.pending.get? q.nextExpected
      = some (q.nextExpected, event) := by
    rw [get?_inbox, file, Dict.get?_set, if_pos rfl]
    rfl
  -- the new event leaves the buffer at once, and what waited behind it follows
  obtain ⟨l', rfl, hrest⟩ := hrel.of_get? hget
  have hwaiting : ∀ j, ((q.file q.nextExpected event).inbox.pending.erase q.nextExpected).get? j
      = (q.buffer.get? j).map (Prod.mk j) := fun j => by
    rw [Dict.get?_erase, get?_inbox, file, Dict.get?_set]
    split_ifs with hj
    · rw [hj, hnew]
      rfl
    · rfl
  rw [List.nil_append] at hready
  have htrack : r.2.track q.nextExpected r.1 = { r.2 with
      totalImmediate := r.2.totalImmediate + 1
      totalBuffered := r.2.totalBuffered + l'.length } := by
    rw [track, hready]
    exact if_pos rfl
  refine ⟨l', r.2.track q.nextExpected r.1, Prod.ext hready rfl, ?_, ?_, ?_, ?_, ?_, ?_⟩
  · rw [htrack, himmediate]
    rfl
  · rw [htrack, hbuffered]
    rfl
  · rw [track_processed, hands.processed_eq, List.length_append, List.length_map]
    rfl
  · have hsize : r.2.inbox.pending.size + l'.length
        = ((q.file q.nextExpected event).inbox.pending.erase q.nextExpected).size := hrest.size_eq
    have hset : (q.file q.nextExpected event).buffer.size = q.buffer.size + 1 :=
      Dict.size_set_of_get?_eq_none hnew
    have herase := Dict.size_erase hget
    rw [size_inbox] at hsize herase
    rw [htrack]
    show r.2.buffer.size + l'.length = q.buffer.size
    omega
  · intro j hj
    rw [htrack] at hj
    obtain ⟨evt, hevt⟩ := Dict.mem_keys.mp hj
    have hpending := hrest.pending_get? j
    rw [get?_inbox, Dict.get?_eq_some.mpr hevt] at hpending
    by_contra hout
    have hnone : ((q.file q.nextExpected event).inbox.pending.erase q.nextExpected).get? j
        = none := by
      rw [hwaiting, Dict.get?_eq_none.mpr hout]
      rfl
    split at hpending
    · exact Option.some_ne_none _ hpending
    · exact Option.some_ne_none _ (hpending.trans hnone)
  · rw [hrest.eq_nil_iff, ← Dict.get?_eq_none, ← Dict.get?_eq_none]
    show ((q.file q.nextExpected event).inbox.pending.erase q.nextExpected).get?
      (q.nextExpected + 1) = none ↔ _
    rw [hwaiting, Option.map_eq_none_iff]

/-! ### Runs -/

/-- A queue under observation. -/
structure Observed (α : Type*) where
  queue : DelayedInputQueue α
  /-- How many events the calls returned that enqueued them. -/
  immediate : ℕ
  /-- The ids that had to wait. -/
  waited : Finset ℤ

/-- The event does not wait already, and none waits for it. -/
def CountsOnce (q : DelayedInputQueue α) (causalId : ℤ) : Prop :=
  causalId ∉ q.buffer.keys ∧ (causalId = q.nextExpected → q.nextExpected + 1 ∉ q.buffer.keys)

namespace Observed

/-- A fresh queue. -/
def start (startCausalId : ℤ) : Observed α := ⟨.new startCausalId, 0, ∅⟩

/-- One call of `enqueue`. -/
def enqueue (w : Observed α) (x : ℤ × α) : Observed α :=
  let r := w.queue.enqueue x.1 x.2
  ⟨r.2, w.immediate + if x.1 ∈ r.1.map Prod.fst then 1 else 0,
    w.waited ∪ r.2.buffer.keys.toFinset⟩

/-- The statistics account for every event once. -/
structure Accounted (w : Observed α) : Prop where
  conserved : w.queue.totalImmediate + w.queue.totalBuffered
    = w.queue.processed.length + w.queue.buffer.size
  immediate : w.queue.totalImmediate = w.immediate
  buffered : w.queue.totalBuffered = w.waited.card

/-- How many times an event was counted again. -/
def excess (w : Observed α) : ℕ := w.queue.totalBuffered - w.waited.card

/-- **The invariant of every run**: every event that was accepted was returned by its call or had to
wait, and is processed or still waits. -/
structure Consistent (w : Observed α) : Prop where
  settled : w.queue.inbox.Settled
  waiting : w.queue.buffer.keys.toFinset ⊆ w.waited
  received : ∀ k ∈ w.waited, k ∈ w.queue.inbox.received
  balance : w.queue.processed.length + w.queue.buffer.size = w.immediate + w.waited.card
  immediate : w.queue.totalImmediate = w.immediate
  counted : w.waited.card ≤ w.queue.totalBuffered

variable {w : Observed α}

lemma Consistent.start (s : ℤ) : (start s : Observed α).Consistent where
  settled _ hk := absurd hk (List.not_mem_nil)
  waiting := Finset.Subset.refl _
  received _ hk := absurd hk (Finset.notMem_empty _)
  balance := rfl
  immediate := rfl
  counted := le_rfl

/-- Along the invariant only the counting of the events that had to wait can go wrong. -/
lemma Consistent.accounted_iff (h : w.Consistent) : w.Accounted ↔ w.excess = 0 := by
  have hbalance := h.balance
  have himmediate := h.immediate
  have hcounted := h.counted
  rw [excess]
  exact ⟨fun hw => by rw [hw.buffered, Nat.sub_self],
    fun hw => ⟨by omega, himmediate, by omega⟩⟩

lemma enqueue_of_call {x : ℤ × α} {ready : List (ℤ × α)} {q' : DelayedInputQueue α}
    (hcall : w.queue.enqueue x.1 x.2 = (ready, q')) :
    w.enqueue x = ⟨q', w.immediate + if x.1 ∈ ready.map Prod.fst then 1 else 0,
      w.waited ∪ q'.buffer.keys.toFinset⟩ := by
  rw [enqueue, hcall]

/-- A call that files no new id notes none. -/
lemma Consistent.union_eq (h : w.Consistent) {q' : DelayedInputQueue α}
    (hkeys : q'.buffer.keys ⊆ w.queue.buffer.keys) :
    w.waited ∪ q'.buffer.keys.toFinset = w.waited := by
  refine Finset.union_eq_left.mpr fun k hk => h.waiting ?_
  exact List.mem_toFinset.mpr (hkeys (List.mem_toFinset.mp hk))

/-- What a call does to the counters, where `again` is how many events it counts once more. -/
structure Counts (w : Observed α) (x : ℤ × α) (again : ℕ) : Prop where
  again_iff : again = 0 ↔ CountsOnce w.queue x.1
  balance : (w.enqueue x).queue.processed.length + (w.enqueue x).queue.buffer.size
    = (w.enqueue x).immediate + (w.enqueue x).waited.card
  immediate : (w.enqueue x).queue.totalImmediate = (w.enqueue x).immediate
  buffered : (w.enqueue x).queue.totalBuffered + w.waited.card
    = w.queue.totalBuffered + (w.enqueue x).waited.card + again

/-- An old event is not counted. -/
lemma Consistent.counts_of_lt (h : w.Consistent) {x : ℤ × α}
    (hlt : x.1 < w.queue.nextExpected) : w.Counts x 0 := by
  have hcall := enqueue_of_call (enqueue_of_lt hlt x.2)
  rw [h.union_eq (List.Subset.refl _), List.map_nil, if_neg List.not_mem_nil, add_zero] at hcall
  refine ⟨iff_of_true rfl ⟨not_mem_keys_of_le h.settled hlt.le, fun heq => absurd heq hlt.ne⟩,
    ?_, ?_, ?_⟩
  · rw [hcall]
    exact h.balance
  · rw [hcall]
    exact h.immediate
  · rw [hcall]
    rfl

/-- The event at the cursor is counted, and so are once more the events that waited for it. -/
lemma Consistent.counts_of_eq (h : w.Consistent) {x : ℤ × α}
    (heq : x.1 = w.queue.nextExpected) : ∃ again, w.Counts x again := by
  obtain ⟨l, q', hcall, himmediate, hbuffered, hprocessed, hsize, hkeys, hnil⟩ :=
    enqueue_of_eq h.settled x.2
  rw [← heq] at hcall
  have hcall := enqueue_of_call hcall
  rw [h.union_eq hkeys, List.map_cons, if_pos List.mem_cons_self] at hcall
  have hbalance := h.balance
  refine ⟨l.length, ?_, ?_, ?_, ?_⟩
  · rw [List.length_eq_zero_iff, hnil]
    exact ⟨fun hnext => ⟨not_mem_keys_of_le h.settled heq.le, fun _ => hnext⟩,
      fun hc => hc.2 heq⟩
  · rw [hcall]
    show q'.processed.length + q'.buffer.size = w.immediate + 1 + w.waited.card
    omega
  · rw [hcall]
    show q'.totalImmediate = w.immediate + 1
    rw [himmediate, h.immediate]
  · rw [hcall]
    show q'.totalBuffered + w.waited.card = w.queue.totalBuffered + w.waited.card + l.length
    omega

/-- An event ahead of the cursor is counted, and if it waits already, it is counted once more. -/
lemma Consistent.counts_of_gt (h : w.Consistent) {x : ℤ × α}
    (hgt : w.queue.nextExpected < x.1) : ∃ again, w.Counts x again := by
  have hcall := enqueue_of_call (enqueue_of_gt h.settled hgt x.2)
  rw [List.map_nil, if_neg List.not_mem_nil, add_zero] at hcall
  have hbalance := h.balance
  by_cases hmem : x.1 ∈ w.queue.buffer.keys
  · obtain ⟨evt, hevt⟩ := Dict.mem_keys.mp hmem
    have hkeys : (w.queue.buffer.set x.1 x.2).keys ⊆ w.queue.buffer.keys := fun k hk =>
      (Dict.mem_keys_set.mp hk).elim (fun heq => by rwa [heq]) id
    rw [h.union_eq hkeys] at hcall
    refine ⟨1, iff_of_false one_ne_zero fun hc => hc.1 hmem, ?_, ?_, ?_⟩
    · rw [hcall]
      show w.queue.processed.length + (w.queue.buffer.set x.1 x.2).size = _
      rw [Dict.size_set (Dict.get?_eq_some.mpr hevt)]
      exact hbalance
    · rw [hcall]
      exact h.immediate
    · rw [hcall]
      show w.queue.totalBuffered + 1 + w.waited.card = w.queue.totalBuffered + w.waited.card + 1
      omega
  · have hnew : x.1 ∉ w.waited := fun hwaited =>
      (h.received _ hwaited).elim (fun hlt => lt_asymm hgt hlt) fun hkey =>
        hmem (by rwa [keys_inbox] at hkey)
    have hunion : w.waited ∪ (w.queue.buffer.set x.1 x.2).keys.toFinset = insert x.1 w.waited := by
      ext k
      have hk : k ∈ w.queue.buffer.keys → k ∈ w.waited := fun hmem =>
        h.waiting (List.mem_toFinset.mpr hmem)
      simp only [Finset.mem_union, List.mem_toFinset, Dict.mem_keys_set, Finset.mem_insert]
      tauto
    have hwaited : (w.enqueue x).waited.card = w.waited.card + 1 := by
      rw [hcall]
      exact (congrArg Finset.card hunion).trans (Finset.card_insert_of_notMem hnew)
    refine ⟨0, iff_of_true rfl ⟨hmem, fun heq => absurd heq hgt.ne'⟩, ?_, ?_, ?_⟩
    · rw [hwaited, hcall]
      show w.queue.processed.length + (w.queue.buffer.set x.1 x.2).size = w.immediate + _
      rw [Dict.size_set_of_get?_eq_none (Dict.get?_eq_none.mpr hmem)]
      omega
    · rw [hcall]
      exact h.immediate
    · rw [hwaited, hcall]
      show w.queue.totalBuffered + 1 + _ = _
      omega

/-- **Step lemma.**  A call keeps the invariant, and counts an event again exactly if it waits
already or another one waits for it. -/
theorem Consistent.enqueue (h : w.Consistent) (x : ℤ × α) : (w.enqueue x).Consistent ∧
    ((w.enqueue x).excess = 0 ↔ w.excess = 0 ∧ CountsOnce w.queue x.1) := by
  obtain ⟨again, hcounts⟩ : ∃ again, w.Counts x again := by
    rcases lt_trichotomy x.1 w.queue.nextExpected with hlt | heq | hgt
    · exact ⟨0, h.counts_of_lt hlt⟩
    · exact h.counts_of_eq heq
    · exact h.counts_of_gt hgt
  have hcounted := h.counted
  have hbuffered := hcounts.buffered
  refine ⟨⟨(enqueue_offers x.1 x.2 w.queue).1.settled h.settled, Finset.subset_union_right,
    fun k hk => ?_, hcounts.balance, hcounts.immediate, ?_⟩, ?_⟩
  · rcases Finset.mem_union.mp hk with hk | hk
    · have hreceived : (w.enqueue x).queue.inbox.received = insert x.1 w.queue.inbox.received :=
        (enqueue_offers x.1 x.2 w.queue).1.received_eq
      rw [hreceived]
      exact Set.mem_insert_of_mem _ (h.received k hk)
    · refine Or.inr ?_
      rw [keys_inbox]
      exact List.mem_toFinset.mp hk
  · have hmono : w.waited.card ≤ (w.enqueue x).waited.card :=
      Finset.card_le_card Finset.subset_union_left
    omega
  · rw [← hcounts.again_iff, excess, excess]
    have hmono : w.waited.card ≤ (w.enqueue x).waited.card :=
      Finset.card_le_card Finset.subset_union_left
    omega

lemma Consistent.exec (h : w.Consistent) (arrivals : List (ℤ × α)) :
    (Run.exec Observed.enqueue w arrivals).Consistent :=
  Run.invariant_of_forall (fun _ x h => (h.enqueue x).1) h arrivals

/-- **Run lemma.**  Nothing has been counted again exactly if no call has done so. -/
theorem Consistent.excess_exec_eq_zero_iff (h : w.Consistent) (arrivals : List (ℤ × α)) :
    (Run.exec Observed.enqueue w arrivals).excess = 0 ↔
      w.excess = 0 ∧
        Run.Along Observed.enqueue (fun w x => CountsOnce w.queue x.1) w arrivals := by
  induction arrivals generalizing w with
  | nil => exact (and_iff_left trivial).symm
  | cons x arrivals ih =>
    obtain ⟨hnext, hexcess⟩ := h.enqueue x
    rw [Run.exec_cons, ih hnext, hexcess, Run.Along, and_assoc]

/-- **The statistics account for every event once** exactly if no event arrived while it was waiting
already, and none at the cursor while its successor was waiting. -/
theorem accounts_once_iff (startCausalId : ℤ) (arrivals : List (ℤ × α)) :
    (Run.exec enqueue (start startCausalId) arrivals).Accounted ↔
      Run.Along enqueue (fun w x => CountsOnce w.queue x.1) (start startCausalId) arrivals := by
  have hstart : (start startCausalId : Observed α).Consistent := .start startCausalId
  rw [(hstart.exec arrivals).accounted_iff, hstart.excess_exec_eq_zero_iff]
  exact and_iff_right rfl

/-- The second event arrives before the first one: it is counted when it arrives, and again when the
first one releases it. -/
theorem released_counted_again :
    ¬(Run.exec enqueue (start 1) [(2, "b"), (1, "a")]).Accounted := fun h =>
  absurd h.conserved (by decide)

end Observed

end DelayedInputQueue

end QuantumFoundation
