import QuantumFoundation.Distributed.Interruption
import QuantumFoundation.Distributed.Propagation

/-!
# What a merge reports

`merge_event_batch` reads off from the cursor, after every reception that does not raise, which
ids were applied.  A reception may commit several events and then raise at the next one; what it
has committed by then is not reported.  Everything else the result says is accurate for ids from
1 on (`mergeAccurate_iff`).
-/

namespace QuantumFoundation

variable {S P : Type*} {A : Adapter S P}

namespace DistributedStateNode

variable {n m : DistributedStateNode S P} {event : ExecutionEvent P} {ds : List (ExecutionEvent P)}

/-! ### One reception -/

/-- Nothing waits at the cursor. -/
def Idle (n : DistributedStateNode S P) : Prop :=
  n.eventBuffer.get? n.nextExpectedCausalId = none

/-- A reception leaves nothing at the cursor, whether it raises or not. -/
lemma Idle.deliver (h : Idle n) (event : ExecutionEvent P) : Idle (deliver A n event) := by
  by_cases hlt : event.causalId < n.nextExpectedCausalId
  · rwa [DistributedStateNode.deliver, receiveEvent_late hlt]
  · have hd := receiveEvent_drains (A := A) (not_lt.mp hlt)
    have hle := Adapter.appliedCount_le (A := A) n.adapterState (n.buffered event).inbox.due
    have hcur := hd.cursor_eq
    have hst : (n.buffered event).adapterState = n.adapterState := rfl
    rw [Idle, DistributedStateNode.deliver, hd.get?_eq, hcur, hst]
    -- the cursor has moved to the end of what was due, or to the event that raised
    split
    · rfl
    · next hout =>
      have hall : A.appliedCount n.adapterState (n.buffered event).inbox.due
          = (n.buffered event).inbox.due.length := by omega
      rw [hall]
      exact ReorderBuffer.get?_after_due (b := (n.buffered event).inbox)

/-- An event ahead of the cursor of an idle node is put into the buffer, and that is all. -/
lemma Idle.receiveEvent_ahead (h : Idle n) (hlt : n.nextExpectedCausalId < event.causalId) :
    receiveEvent A event n = (n.buffered event, none) := by
  rw [receiveEvent, if_neg (not_lt.mpr hlt.le)]
  refine processBuffer_of_none ?_
  show (n.eventBuffer.set event.causalId event).get? n.nextExpectedCausalId = none
  rw [Dict.get?_set, if_neg hlt.ne]
  exact h

/-- An event at the cursor is due. -/
lemma dueWith_ne_nil (h : event.causalId = n.nextExpectedCausalId) : n.dueWith event ≠ [] := by
  have hget : (n.buffered event).inbox.pending.get? (n.buffered event).inbox.cursor
      = some event := by
    show (n.eventBuffer.set event.causalId event).get? n.nextExpectedCausalId = some event
    rw [h, Dict.get?_set_self]
  rw [dueWith_of_le h.ge, ReorderBuffer.due_of_some hget]
  exact List.cons_ne_nil _ _

/-- A reception that goes through without moving the cursor of an idle node was ahead of it. -/
lemma Idle.ahead_of_stays (hle : n.nextExpectedCausalId ≤ event.causalId)
    (hok : (receiveEvent A event n).2 = none)
    (hstay : (receiveEvent A event n).1.nextExpectedCausalId = n.nextExpectedCausalId) :
    n.nextExpectedCausalId < event.causalId := by
  refine lt_of_le_of_ne hle fun heq => ?_
  -- at the cursor the event itself would have been applied
  have happ : A.appliedCount n.adapterState (n.dueWith event) = (n.dueWith event).length :=
    (receiveEvent_none_iff event n).mp hok
  have hcur := receiveEvent_cursor (A := A) event n
  have hpos := List.length_pos_of_ne_nil (dueWith_ne_nil heq.symm)
  omega

/-- **What a reception commits**: the ids over which the cursor moves. -/
theorem committed_of_tidy (h : Tidy ds n) (event : ExecutionEvent P) :
    n.nextExpectedCausalId ≤ (deliver A n event).nextExpectedCausalId ∧
      ∃ l, (deliver A n event).localLog = n.localLog ++ l ∧ l.map ExecutionEvent.causalId
        = Int.range n.nextExpectedCausalId (deliver A n event).nextExpectedCausalId := by
  by_cases hlt : event.causalId < n.nextExpectedCausalId
  · rw [deliver, receiveEvent_late hlt]
    exact ⟨le_rfl, [], by simp, (range_eq_nil_iff.mpr le_rfl).symm⟩
  · have hle := not_lt.mp hlt
    have hd := receiveEvent_drains (A := A) hle
    have hcur := hd.cursor_eq
    have hcount := Adapter.appliedCount_le (A := A) n.adapterState (n.buffered event).inbox.due
    have hst : (n.buffered event).adapterState = n.adapterState := rfl
    have hnext : (n.buffered event).nextExpectedCausalId = n.nextExpectedCausalId := rfl
    rw [hst, hnext] at hcur
    refine ⟨by rw [deliver, hcur]; omega, _, hd.localLog_eq, ?_⟩
    rw [deliver, hcur, hst]
    refine List.ext_getElem ?_ fun i hi _ => ?_
    · simp only [List.length_map, List.length_take, Int.range, List.length_range]
      omega
    · simp only [List.length_map, List.length_take] at hi
      simp only [List.getElem_map, List.getElem_take, Int.range, List.getElem_range]
      exact (h.buffered hle).due_causalId (by omega)

/-! ### Receptions until one raises -/

/-- The events of a list that are reached before a reception raises, each with the node as it
is then. -/
def reached (A : Adapter S P) : List (ExecutionEvent P) → DistributedStateNode S P →
    List (ExecutionEvent P × DistributedStateNode S P)
  | [], _ => []
  | event :: rest, n =>
    (event, n) ::
      match receiveEvent A event n with
      | (_, some _) => []
      | (m, none) => reached A rest m

/-- Until a reception raises, each commits all that is due; the one that raises commits
nothing. -/
def FailsCleanly (A : Adapter S P) : List (ExecutionEvent P) → DistributedStateNode S P → Prop
  | [], _ => True
  | event :: rest, n =>
    (A.Applies n.adapterState (n.dueWith event) ∧ FailsCleanly A rest (deliver A n event)) ∨
      A.appliedCount n.adapterState (n.dueWith event) = 0 ∧
        ¬A.Applies n.adapterState (n.dueWith event)

instance FailsCleanly.instDecidable : ∀ (es : List (ExecutionEvent P))
    (n : DistributedStateNode S P), Decidable (FailsCleanly A es n)
  | [], _ => .isTrue trivial
  | event :: rest, n =>
      have : Decidable (FailsCleanly A rest (deliver A n event)) :=
        FailsCleanly.instDecidable rest (deliver A n event)
      inferInstanceAs (Decidable ((_ ∧ _) ∨ _ ∧ ¬_))

lemma mem_of_mem_reached {es : List (ExecutionEvent P)} {n : DistributedStateNode S P}
    {p : ExecutionEvent P × DistributedStateNode S P} (h : p ∈ reached A es n) : p.1 ∈ es := by
  induction es generalizing n with
  | nil => exact absurd h List.not_mem_nil
  | cons event rest ih =>
    rw [reached, List.mem_cons] at h
    rcases h with rfl | h
    · exact List.mem_cons_self
    · rcases hm : receiveEvent A event n with ⟨m, _ | exc⟩
      · rw [hm] at h
        exact List.mem_cons_of_mem event (ih h)
      · rw [hm] at h
        exact absurd h List.not_mem_nil

/-- What every reception keeps holds of the node wherever an event is reached. -/
lemma reached_node {I : DistributedStateNode S P → Prop}
    (hI : ∀ m event, I m → I (deliver A m event)) {es : List (ExecutionEvent P)}
    {n : DistributedStateNode S P} (h : I n) {p : ExecutionEvent P × DistributedStateNode S P}
    (hp : p ∈ reached A es n) : I p.2 := by
  induction es generalizing n with
  | nil => exact absurd hp List.not_mem_nil
  | cons event rest ih =>
    rw [reached, List.mem_cons] at hp
    rcases hp with rfl | hp
    · exact h
    · have hnext := hI n event h
      rw [deliver] at hnext
      rcases hm : receiveEvent A event n with ⟨m, _ | exc⟩
      · rw [hm] at hp hnext
        exact ih hnext hp
      · rw [hm] at hp
        exact absurd hp List.not_mem_nil

/-- In a sorted batch the late events come first, and are all reached. -/
lemma mem_reached_of_lt {es : List (ExecutionEvent P)}
    (hsorted : es.Pairwise fun e f => e.causalId ≤ f.causalId) (hmem : event ∈ es)
    (hlt : event.causalId < n.nextExpectedCausalId) : (event, n) ∈ reached A es n := by
  induction es with
  | nil => exact absurd hmem List.not_mem_nil
  | cons e rest ih =>
    obtain ⟨hfirst, hrest⟩ := List.pairwise_cons.mp hsorted
    rw [reached, List.mem_cons]
    rcases List.mem_cons.mp hmem with rfl | hmem
    · exact Or.inl rfl
    · rw [receiveEvent_late ((hfirst event hmem).trans_lt hlt)]
      exact Or.inr (ih hrest hmem)

lemma failsCleanly_cons_of_none {rest : List (ExecutionEvent P)}
    (h : receiveEvent A event n = (m, none)) :
    FailsCleanly A (event :: rest) n ↔ FailsCleanly A rest m := by
  have happ : A.Applies n.adapterState (n.dueWith event) :=
    (receiveEvent_none_iff event n).mp (by rw [h])
  have hm : deliver A n event = m := congrArg Prod.fst h
  rw [FailsCleanly, and_iff_right happ, or_iff_left fun hno => hno.2 happ, hm]

lemma failsCleanly_cons_of_some {rest : List (ExecutionEvent P)} {exc : PyError}
    (h : receiveEvent A event n = (m, some exc)) :
    FailsCleanly A (event :: rest) n ↔ m.nextExpectedCausalId = n.nextExpectedCausalId := by
  have happ : ¬A.Applies n.adapterState (n.dueWith event) := fun happ =>
    absurd ((receiveEvent_none_iff event n).mpr happ) (by simp [h])
  have hcur := receiveEvent_cursor (A := A) event n
  rw [h] at hcur
  rw [FailsCleanly, or_iff_right fun hno => happ hno.1, and_iff_left happ, hcur]
  omega

end DistributedStateNode

namespace PropagatingStateNode

open DistributedStateNode

variable {n : PropagatingStateNode S P} {ds : List (ExecutionEvent P)}

/-! ### The loop -/

/-- What the loop records of a reception of `event` that took the node from `n` to `m`: a late
event was skipped, otherwise it was applied if the cursor has moved, and buffered if not. -/
def Records (event : ExecutionEvent P) (n m : DistributedStateNode S P) (res res' : MergeResult) :
    Prop :=
  (event.causalId < n.nextExpectedCausalId ∧ m = n ∧
    res' = { res with eventsSkipped := res.eventsSkipped ++ [event.causalId] }) ∨
  (n.nextExpectedCausalId ≤ event.causalId ∧ n.nextExpectedCausalId < m.nextExpectedCausalId ∧
    res' = { res with
      eventsApplied :=
        res.eventsApplied ++ Int.range n.nextExpectedCausalId m.nextExpectedCausalId }) ∨
  (n.nextExpectedCausalId ≤ event.causalId ∧ m.nextExpectedCausalId = n.nextExpectedCausalId ∧
    res' = { res with eventsBuffered := res.eventsBuffered ++ [event.causalId] })

/-- **One round of the loop.**  The reception goes through and is recorded, or it raises, which
leaves the loop. -/
theorem mergeLoop_cons (event : ExecutionEvent P) (rest : List (ExecutionEvent P))
    (n : PropagatingStateNode S P) (res : MergeResult) :
    (∃ m res', n.toDistributedStateNode.receiveEvent A event = (m, none) ∧
      Records event n.toDistributedStateNode m res res' ∧
      mergeLoop A (event :: rest) n res
        = mergeLoop A rest { n with toDistributedStateNode := m } res') ∨
    ∃ m exc rejected msg, n.toDistributedStateNode.receiveEvent A event = (m, some exc) ∧
      n.nextExpectedCausalId ≤ event.causalId ∧
      mergeLoop A (event :: rest) n res
        = ({ n with toDistributedStateNode := m, rejectedEvents := rejected },
            { res with success := false, errorMessage := msg }) := by
  by_cases hlt : event.causalId < n.nextExpectedCausalId
  · refine Or.inl ⟨_, _, receiveEvent_late hlt, Or.inl ⟨hlt, rfl, rfl⟩, ?_⟩
    rw [mergeLoop, if_pos hlt]
  · have hle := not_lt.mp hlt
    rw [mergeLoop, if_neg hlt]
    have hcur := receiveEvent_cursor (A := A) event n.toDistributedStateNode
    rcases hm : n.toDistributedStateNode.receiveEvent A event with ⟨m, _ | exc⟩
    · rw [hm] at hcur
      dsimp only at hcur
      by_cases hmoved : n.nextExpectedCausalId < m.nextExpectedCausalId
      · refine Or.inl ⟨m, _, rfl, Or.inr (Or.inl ⟨hle, hmoved, rfl⟩), ?_⟩
        simp only [if_pos hmoved]
      · refine Or.inl ⟨m, _, rfl, Or.inr (Or.inr ⟨hle, by omega, rfl⟩), ?_⟩
        simp only [if_neg hmoved]
    · exact Or.inr ⟨m, exc, _, _, rfl, hle, rfl⟩

/-- What every reception keeps is kept by the loop. -/
lemma mergeLoop_node {I : DistributedStateNode S P → Prop}
    (hI : ∀ m event, I m → I (deliver A m event)) (h : I n.toDistributedStateNode)
    (es : List (ExecutionEvent P)) (r : MergeResult) :
    I (mergeLoop A es n r).1.toDistributedStateNode := by
  induction es generalizing n r with
  | nil => exact h
  | cons event rest ih =>
    have hnext := hI n.toDistributedStateNode event h
    rw [deliver] at hnext
    rcases mergeLoop_cons (A := A) event rest n r with
      ⟨m, r', hm, -, heq⟩ | ⟨m, exc, rejected, msg, hm, -, heq⟩
    · rw [hm] at hnext
      rw [heq]
      exact ih (n := { n with toDistributedStateNode := m }) hnext r'
    · rw [hm] at hnext
      rwa [heq]

/-- The loop logs the events with the ids over which the cursor moves. -/
lemma mergeLoop_log (h : Tidy ds n.toDistributedStateNode) (es : List (ExecutionEvent P))
    (r : MergeResult) :
    n.nextExpectedCausalId ≤ (mergeLoop A es n r).1.nextExpectedCausalId ∧
      ∃ l, (mergeLoop A es n r).1.localLog = n.localLog ++ l ∧ l.map ExecutionEvent.causalId
        = Int.range n.nextExpectedCausalId (mergeLoop A es n r).1.nextExpectedCausalId := by
  induction es generalizing n r ds with
  | nil => exact ⟨le_rfl, [], (List.append_nil _).symm, (range_eq_nil_iff.mpr le_rfl).symm⟩
  | cons event rest ih =>
    have hstep := committed_of_tidy (A := A) h event
    have htidy : Tidy (ds ++ [event]) (deliver A n.toDistributedStateNode event) := h.deliver
    rw [deliver] at hstep htidy
    rcases mergeLoop_cons (A := A) event rest n r with
      ⟨m, r', hm, -, heq⟩ | ⟨m, exc, rejected, msg, hm, -, heq⟩
    · rw [hm] at hstep htidy
      obtain ⟨hle, l, hlog, hl⟩ := hstep
      obtain ⟨hle', l', hlog', hl'⟩ :=
        ih (n := { n with toDistributedStateNode := m }) htidy r'
      rw [heq]
      refine ⟨hle.trans hle', l ++ l', by rw [hlog', hlog, List.append_assoc], ?_⟩
      rw [List.map_append, hl, hl', range_append_range hle hle']
    · rw [hm] at hstep
      rwa [heq]

/-- **What is reported as applied** is what was committed, exactly if a reception that raises
has committed nothing. -/
theorem mergeLoop_applied_iff (h : Tidy ds n.toDistributedStateNode)
    (es : List (ExecutionEvent P)) (r : MergeResult) :
    (mergeLoop A es n r).2.eventsApplied = r.eventsApplied ++
        Int.range n.nextExpectedCausalId (mergeLoop A es n r).1.nextExpectedCausalId ↔
      FailsCleanly A es n.toDistributedStateNode := by
  induction es generalizing n r ds with
  | nil => exact iff_of_true (by simp [mergeLoop, range_eq_nil_iff.mpr le_rfl]) trivial
  | cons event rest ih =>
    have hmono := (committed_of_tidy (A := A) h event).1
    have htidy : Tidy (ds ++ [event]) (deliver A n.toDistributedStateNode event) := h.deliver
    rw [deliver] at hmono htidy
    rcases mergeLoop_cons (A := A) event rest n r with
      ⟨m, r', hm, hrec, heq⟩ | ⟨m, exc, rejected, msg, hm, -, heq⟩
    · rw [hm] at hmono htidy
      rw [heq, failsCleanly_cons_of_none hm,
        ← ih (n := { n with toDistributedStateNode := m }) htidy r']
      have hle := (mergeLoop_log (A := A) (n := { n with toDistributedStateNode := m }) htidy rest
        r').1
      rw [← range_append_range hmono hle, ← List.append_assoc]
      -- the round has recorded the ids over which the cursor moved
      have hrecorded : r'.eventsApplied = r.eventsApplied ++
          Int.range n.nextExpectedCausalId m.nextExpectedCausalId := by
        rcases hrec with ⟨-, rfl, rfl⟩ | ⟨-, -, rfl⟩ | ⟨-, hstay, rfl⟩
        · simp [range_eq_nil_iff.mpr le_rfl]
        · rfl
        · simp [range_eq_nil_iff.mpr hstay.le]
      rw [hrecorded]
    · rw [hm] at hmono
      rw [heq, failsCleanly_cons_of_some hm, List.self_eq_append_right, range_eq_nil_iff]
      exact ⟨fun hle => le_antisymm hle hmono, fun heq => heq.le⟩

/-- **What is reported as skipped**: the events that are late when they are reached. -/
theorem mergeLoop_skipped (es : List (ExecutionEvent P)) (n : PropagatingStateNode S P)
    (r : MergeResult) : (mergeLoop A es n r).2.eventsSkipped = r.eventsSkipped ++
      ((reached A es n.toDistributedStateNode).filter fun p =>
        p.1.causalId < p.2.nextExpectedCausalId).map fun p => p.1.causalId := by
  induction es generalizing n r with
  | nil => exact (List.append_nil _).symm
  | cons event rest ih =>
    rw [reached, List.filter_cons]
    rcases mergeLoop_cons (A := A) event rest n r with
      ⟨m, r', hm, hrec, heq⟩ | ⟨m, exc, rejected, msg, hm, hle, heq⟩
    · rw [heq, ih, hm]
      rcases hrec with ⟨hlt, rfl, rfl⟩ | ⟨hle, -, rfl⟩ | ⟨hle, -, rfl⟩
      · rw [if_pos (by simpa using hlt), List.map_cons, List.append_assoc]
        rfl
      · rw [if_neg (by simpa using hle)]
      · rw [if_neg (by simpa using hle)]
    · rw [heq, hm, if_neg (by simpa using hle)]
      simp

/-- **What is reported as buffered** still waits when the loop is over: behind a buffered event
a sorted batch has only events ahead of the cursor. -/
theorem mergeLoop_buffered {es : List (ExecutionEvent P)}
    (hsorted : es.Pairwise fun e f => e.causalId ≤ f.causalId)
    (hidle : Idle n.toDistributedStateNode) {r : MergeResult}
    (h : ∀ k ∈ r.eventsBuffered, n.nextExpectedCausalId < k ∧ k ∈ n.eventBuffer.keys ∧
      ∀ e ∈ es, k ≤ e.causalId) :
    ∀ k ∈ (mergeLoop A es n r).2.eventsBuffered,
      k ∈ (mergeLoop A es n r).1.eventBuffer.keys := by
  induction es generalizing n r with
  | nil => exact fun k hk => (h k hk).2.1
  | cons event rest ih =>
    obtain ⟨hfirst, hrest⟩ := List.pairwise_cons.mp hsorted
    have hidle' := hidle.deliver (A := A) event
    rw [deliver] at hidle'
    -- behind a buffered event the next one is only put into the buffer
    have hahead : ∀ k ∈ r.eventsBuffered, n.toDistributedStateNode.receiveEvent A event
        = (n.toDistributedStateNode.buffered event, none) := fun k hk =>
      hidle.receiveEvent_ahead ((h k hk).1.trans_le ((h k hk).2.2 event List.mem_cons_self))
    rcases mergeLoop_cons (A := A) event rest n r with
      ⟨m, r', hm, hrec, heq⟩ | ⟨m, exc, rejected, msg, hm, hle, heq⟩
    · rw [hm] at hidle'
      rw [heq]
      refine ih hrest hidle' ?_
      rcases hrec with ⟨hlt, rfl, rfl⟩ | ⟨hle, hmoved, rfl⟩ | ⟨hle, hstay, rfl⟩
      · exact fun k hk => ⟨(h k hk).1, (h k hk).2.1,
          fun e he => (h k hk).2.2 e (List.mem_cons_of_mem event he)⟩
      · intro k hk
        obtain ⟨rfl, -⟩ := Prod.mk.inj (hm.symm.trans (hahead k hk))
        exact absurd hmoved (lt_irrefl _)
      · have hlt := Idle.ahead_of_stays (A := A) hle (by rw [hm]) (by rw [hm]; exact hstay)
        obtain ⟨rfl, -⟩ := Prod.mk.inj (hm.symm.trans (hidle.receiveEvent_ahead hlt))
        intro k hk
        show n.nextExpectedCausalId < k ∧ k ∈ (n.eventBuffer.set event.causalId event).keys ∧ _
        rw [Dict.mem_keys_set]
        rcases List.mem_append.mp hk with hk | hk
        · exact ⟨(h k hk).1, Or.inr (h k hk).2.1,
            fun e he => (h k hk).2.2 e (List.mem_cons_of_mem event he)⟩
        · obtain rfl := List.mem_singleton.mp hk
          exact ⟨hlt, Or.inl rfl, hfirst⟩
    · intro k hk
      rw [heq] at hk
      exact absurd (hm.symm.trans (hahead k hk)) (by simp)

/-- **Where the loop ends when it fails**: at the event whose reception raises. -/
theorem mergeLoop_failed (es : List (ExecutionEvent P)) (n : PropagatingStateNode S P)
    {r : MergeResult} (hr : r.success = true) (hfail : (mergeLoop A es n r).2.success = false) :
    ∃ before event behind, es = before ++ event :: behind ∧
      (receiveEvent A event (Run.exec (deliver A) n.toDistributedStateNode before)).2 ≠ none ∧
      (mergeLoop A es n r).1.toDistributedStateNode
        = Run.exec (deliver A) n.toDistributedStateNode (before ++ [event]) := by
  induction es generalizing n r with
  | nil => exact absurd (hr.symm.trans hfail) (by simp)
  | cons event rest ih =>
    rcases mergeLoop_cons (A := A) event rest n r with
      ⟨m, r', hm, hrec, heq⟩ | ⟨m, exc, rejected, msg, hm, hle, heq⟩
    · have hr' : r'.success = true := by
        rcases hrec with ⟨-, -, rfl⟩ | ⟨-, -, rfl⟩ | ⟨-, -, rfl⟩ <;> exact hr
      rw [heq] at hfail
      obtain ⟨before, last, behind, rfl, hraise, hnode⟩ := ih _ hr' hfail
      have hdeliver : deliver A n.toDistributedStateNode event = m := congrArg Prod.fst hm
      refine ⟨event :: before, last, behind, rfl, ?_, ?_⟩
      · rwa [Run.exec_cons, hdeliver]
      · rw [heq, hnode, List.cons_append, Run.exec_cons, hdeliver]
    · refine ⟨[], event, rest, rfl, by simp [hm], ?_⟩
      rw [heq, List.nil_append, Run.exec_cons, Run.exec_nil, deliver, hm]

/-! ### Accurate reports -/

/-- The result of a merge tells what the merge has done. -/
structure MergeAccurate (A : Adapter S P) (n : PropagatingStateNode S P)
    (events : List (ExecutionEvent P)) : Prop where
  /-- The ids reported as applied are those of the events that the call has logged. -/
  applied : (n.mergeEventBatch A events).2.eventsApplied =
    ((n.mergeEventBatch A events).1.localLog.drop n.localLog.length).map ExecutionEvent.causalId
  increasing : (n.mergeEventBatch A events).2.eventsApplied.Pairwise (· < ·)
  buffered : ∀ k ∈ (n.mergeEventBatch A events).2.eventsBuffered,
    k ∈ (n.mergeEventBatch A events).1.eventBuffer.keys ∨
      k ∈ (n.mergeEventBatch A events).2.eventsApplied
  /-- The ids reported as skipped are those that are in the log when they are reached. -/
  skipped : (n.mergeEventBatch A events).2.eventsSkipped =
    ((reached A (sortEvents events) n.toDistributedStateNode).filter fun p =>
      p.1.causalId ∈ p.2.localLog.map ExecutionEvent.causalId).map fun p => p.1.causalId
  /-- After a failure the node is as the reception that raised has left it. -/
  failed : (n.mergeEventBatch A events).2.success = false →
    ∃ before event behind, sortEvents events = before ++ event :: behind ∧
      (receiveEvent A event (Run.exec (deliver A) n.toDistributedStateNode before)).2 ≠ none ∧
      (n.mergeEventBatch A events).1.toDistributedStateNode
        = Run.exec (deliver A) n.toDistributedStateNode (before ++ [event])

/-- What every reception keeps of a node: it is tidy with the events it was handed, and nothing
waits at its cursor. -/
def Steady (m : DistributedStateNode S P) : Prop := (∃ ds, Tidy ds m) ∧ Idle m

lemma Steady.deliver {m : DistributedStateNode S P} (h : Steady m) (event : ExecutionEvent P) :
    Steady (deliver A m event) := by
  obtain ⟨⟨ds, hds⟩, hidle⟩ := h
  exact ⟨⟨ds ++ [event], hds.deliver⟩, hidle.deliver event⟩

lemma sortEvents_pairwise (events : List (ExecutionEvent P)) :
    (sortEvents events).Pairwise fun e f => e.causalId ≤ f.causalId :=
  have : Std.Total fun e f : ExecutionEvent P => e.causalId ≤ f.causalId :=
    ⟨fun e f => le_total e.causalId f.causalId⟩
  have : IsTrans (ExecutionEvent P) fun e f => e.causalId ≤ f.causalId :=
    ⟨fun _ _ _ => le_trans⟩
  List.pairwise_insertionSort _ _

/-- **The skipped ids** are those in the log exactly if the ids of the batch begin at 1. -/
theorem skipped_iff (h : Steady n.toDistributedStateNode) (events : List (ExecutionEvent P)) :
    (n.mergeEventBatch A events).2.eventsSkipped =
        ((reached A (sortEvents events) n.toDistributedStateNode).filter fun p =>
          p.1.causalId ∈ p.2.localLog.map ExecutionEvent.causalId).map (fun p => p.1.causalId) ↔
      ∀ e ∈ events, 1 ≤ e.causalId := by
  have hlogged : ∀ p ∈ reached A (sortEvents events) n.toDistributedStateNode,
      (p.1.causalId ∈ p.2.localLog.map ExecutionEvent.causalId ↔
        1 ≤ p.1.causalId ∧ p.1.causalId < p.2.nextExpectedCausalId) := by
    intro p hp
    obtain ⟨⟨ds, hds⟩, -⟩ := reached_node (fun m e hm => hm.deliver e) h hp
    exact hds.logged _
  have hskipped : (n.mergeEventBatch A events).2.eventsSkipped =
      ((reached A (sortEvents events) n.toDistributedStateNode).filter fun p =>
        p.1.causalId < p.2.nextExpectedCausalId).map fun p => p.1.causalId :=
    (mergeLoop_skipped (sortEvents events) n _).trans (List.nil_append _)
  rw [hskipped]
  constructor
  · intro hsame e he
    by_contra hlt
    -- an id below 1 is late in every state, but in no log
    obtain ⟨⟨ds, hds⟩, -⟩ := h
    have hpos := hds.pos
    have hreached : (e, n.toDistributedStateNode) ∈ reached A (sortEvents events)
        n.toDistributedStateNode :=
      mem_reached_of_lt (sortEvents_pairwise events) (mem_sortEvents.mpr he) (by omega)
    have hmem : e.causalId ∈ ((reached A (sortEvents events) n.toDistributedStateNode).filter
        fun p => p.1.causalId < p.2.nextExpectedCausalId).map fun p => p.1.causalId :=
      List.mem_map.mpr ⟨_, List.mem_filter.mpr ⟨hreached, by simp only [decide_eq_true_eq]; omega⟩,
        rfl⟩
    rw [hsame] at hmem
    obtain ⟨p, hp, hid⟩ := List.mem_map.mp hmem
    obtain ⟨hp, hlog⟩ := List.mem_filter.mp hp
    have := ((hlogged p hp).mp (of_decide_eq_true hlog)).1
    omega
  · intro hpos
    refine congrArg _ (List.filter_congr fun p hp => ?_)
    have hid := hpos p.1 (mem_sortEvents.mp (mem_of_mem_reached hp))
    rw [decide_eq_decide, hlogged p hp, and_iff_right hid]

/-- **Exact condition for one merge.** -/
theorem mergeAccurate_iff (h : Steady n.toDistributedStateNode)
    (events : List (ExecutionEvent P)) : MergeAccurate A n events ↔
      (∀ e ∈ events, 1 ≤ e.causalId) ∧
        FailsCleanly A (sortEvents events) n.toDistributedStateNode := by
  obtain ⟨⟨ds, hds⟩, hidle⟩ := id h
  obtain ⟨-, l, hlog, hl⟩ :=
    mergeLoop_log (A := A) hds (sortEvents events) ⟨[], [], [], "", true, none⟩
  have happlied := mergeLoop_applied_iff (A := A) hds (sortEvents events)
    ⟨[], [], [], "", true, none⟩
  have hcommitted : ((n.mergeEventBatch A events).1.localLog.drop n.localLog.length).map
      ExecutionEvent.causalId = Int.range n.nextExpectedCausalId
        (n.mergeEventBatch A events).1.nextExpectedCausalId := by
    have hlog' : (n.mergeEventBatch A events).1.localLog = n.localLog ++ l := hlog
    rw [hlog', List.drop_left]
    exact hl
  have happlied' : (n.mergeEventBatch A events).2.eventsApplied =
      ((n.mergeEventBatch A events).1.localLog.drop n.localLog.length).map
        ExecutionEvent.causalId ↔ FailsCleanly A (sortEvents events) n.toDistributedStateNode := by
    rw [hcommitted, ← happlied, List.nil_append]
    rfl
  constructor
  · exact fun hacc => ⟨(skipped_iff h events).mp hacc.skipped, happlied'.mp hacc.applied⟩
  · rintro ⟨hpos, hclean⟩
    have hbuffered := mergeLoop_buffered (A := A) (sortEvents_pairwise events) hidle
      (r := ⟨[], [], [], "", true, none⟩) fun k hk => absurd hk List.not_mem_nil
    refine ⟨happlied'.mpr hclean, ?_, fun k hk => Or.inl (hbuffered k hk),
      (skipped_iff h events).mpr hpos, fun hfail => mergeLoop_failed _ n rfl hfail⟩
    rw [happlied'.mpr hclean, hcommitted, Int.range, List.pairwise_map]
    exact List.pairwise_lt_range.imp fun hij => by omega

/-- What can be called on a node: the reception of an event, or the merge of a batch. -/
def call (A : Adapter S P) (n : PropagatingStateNode S P) :
    ExecutionEvent P ⊕ List (ExecutionEvent P) → PropagatingStateNode S P
  | .inl event =>
    { n with toDistributedStateNode := deliver A n.toDistributedStateNode event }
  | .inr events => (n.mergeEventBatch A events).1

lemma Steady.call (h : Steady n.toDistributedStateNode)
    (c : ExecutionEvent P ⊕ List (ExecutionEvent P)) :
    Steady (n.call A c).toDistributedStateNode := by
  rcases c with event | events
  · exact h.deliver event
  · exact mergeLoop_node (A := A) (fun m e hm => hm.deliver e) h (sortEvents events) _

/-- **When a merge reports accurately.**  In every state that receptions and merges lead a node
to, whatever the adapter raises, and for every batch: the result of the merge is accurate exactly
if the ids of the batch begin at 1, and no reception of the batch commits an event and then
raises at a later one. -/
theorem merge_accurate_iff (A : Adapter S P) (nodeId : String) (s₀ : S)
    (calls : List (ExecutionEvent P ⊕ List (ExecutionEvent P))) (events : List (ExecutionEvent P)) :
    let n := Run.exec (call A) (new nodeId s₀) calls
    MergeAccurate A n events ↔ (∀ e ∈ events, 1 ≤ e.causalId) ∧
      FailsCleanly A (sortEvents events) n.toDistributedStateNode := by
  intro n
  have hnew : Steady (new (P := P) nodeId s₀).toDistributedStateNode :=
    ⟨⟨[], .init nodeId s₀⟩, rfl⟩
  have hstep : ∀ (m : PropagatingStateNode S P) c, Steady m.toDistributedStateNode →
      Steady (m.call A c).toDistributedStateNode := fun m c hm => hm.call c
  have hsteady : Steady n.toDistributedStateNode := Run.invariant_of_forall
    (I := fun m : PropagatingStateNode S P => Steady m.toDistributedStateNode) hstep hnew calls
  exact mergeAccurate_iff hsteady events

/-- Event 2 waits in the node, and the adapter will refuse it.  The merge of event 1 commits it,
raises at event 2, and reports nothing as applied. -/
theorem merge_forgets_applied :
    let n := Run.exec (call strictAdapter) (new "Node_B" 0) [.inl (emptyEvent 2)]
    let r := n.mergeEventBatch strictAdapter [addEvent 1 10]
    r.2.success = false ∧ r.2.eventsApplied = [] ∧
      r.1.localLog.map ExecutionEvent.causalId = [1] ∧
      ¬MergeAccurate strictAdapter n [addEvent 1 10] := by
  intro n r
  have happlied : r.2.eventsApplied = [] := by decide
  have hlog : r.1.localLog.map ExecutionEvent.causalId = [1] := by decide
  refine ⟨by decide, happlied, hlog, fun hacc => ?_⟩
  have hreported : r.2.eventsApplied = (r.1.localLog.drop 0).map ExecutionEvent.causalId :=
    hacc.applied
  rw [List.drop_zero, happlied, hlog] at hreported
  exact absurd hreported (by decide)

end PropagatingStateNode

end QuantumFoundation
