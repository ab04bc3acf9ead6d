import QuantumFoundation.Distributed.StateNode

/-!
# Interrupted processing

`_process_buffer` pops an event, hands it to the adapter, and logs it and advances the
cursor afterwards.  When the adapter raises, the loop is left in between: the events before
that one are logged, the event itself is neither logged nor buffered any more, and the ones
behind it still wait (`receiveEvent_drains`).  So a node keeps account of all it received
exactly as long as the adapter takes every event that becomes due
(`received_accounted_iff`).
-/

namespace QuantumFoundation

variable {S P : Type*}

namespace Adapter

variable (A : Adapter S P)

/-- How many of the events, applied in order from state `s`, precede the first one at which
the adapter raises. -/
def appliedCount : S → List (ExecutionEvent P) → ℕ
  | _, [] => 0
  | s, e :: es =>
    match A.applyEventPayload e.payload s with
    | (_, some _) => 0
    | (s', none) => appliedCount s' es + 1

/-- The events can be applied one after the other without an exception. -/
def Applies (s : S) (es : List (ExecutionEvent P)) : Prop := A.appliedCount s es = es.length

instance (s : S) (es : List (ExecutionEvent P)) : Decidable (A.Applies s es) :=
  inferInstanceAs (Decidable (_ = _))

/-- The state, and the exception if there is one, when the events are applied in order up to the
first one at which the adapter raises. -/
def attempt : S → List (ExecutionEvent P) → S × Option PyError
  | s, [] => (s, none)
  | s, e :: es =>
    match A.applyEventPayload e.payload s with
    | (s', some exc) => (s', some exc)
    | (s', none) => attempt s' es

variable {A}

lemma appliedCount_cons_of_none {s s' : S} {e : ExecutionEvent P} {es : List (ExecutionEvent P)}
    (h : A.applyEventPayload e.payload s = (s', none)) :
    A.appliedCount s (e :: es) = A.appliedCount s' es + 1 := by
  rw [appliedCount, h]

lemma appliedCount_cons_of_some {s s' : S} {e : ExecutionEvent P} {es : List (ExecutionEvent P)}
    {exc : PyError} (h : A.applyEventPayload e.payload s = (s', some exc)) :
    A.appliedCount s (e :: es) = 0 := by
  rw [appliedCount, h]

lemma appliedCount_le (s : S) (es : List (ExecutionEvent P)) :
    A.appliedCount s es ≤ es.length := by
  induction es generalizing s with
  | nil => exact le_rfl
  | cons e es ih =>
    rcases h : A.applyEventPayload e.payload s with ⟨s', _ | exc⟩
    · rw [appliedCount_cons_of_none h, List.length_cons]
      exact Nat.succ_le_succ (ih s')
    · rw [appliedCount_cons_of_some h]
      exact Nat.zero_le _

end Adapter

namespace DistributedStateNode

/-- The node with an event put into its buffer. -/
def buffered (n : DistributedStateNode S P) (event : ExecutionEvent P) :
    DistributedStateNode S P :=
  { n with eventBuffer := n.eventBuffer.set event.causalId event }

/-- The events that the arrival of `event` makes due. -/
def dueWith (n : DistributedStateNode S P) (event : ExecutionEvent P) : List (ExecutionEvent P) :=
  if event.causalId < n.nextExpectedCausalId then [] else (n.buffered event).inbox.due

variable {A : Adapter S P}

/-- What processing the buffer of `n` amounts to, whether an exception leaves the loop or
not: the events that are due are logged up to the first one at which the adapter raises,
and that one is taken from the buffer as well. -/
structure Drains (A : Adapter S P) (n m : DistributedStateNode S P) (exc : Option PyError) :
    Prop where
  nodeId_eq : m.nodeId = n.nodeId
  cursor_eq : m.nextExpectedCausalId
    = n.nextExpectedCausalId + A.appliedCount n.adapterState n.inbox.due
  localLog_eq : m.localLog
    = n.localLog ++ n.inbox.due.take (A.appliedCount n.adapterState n.inbox.due)
  get?_eq : ∀ k, m.eventBuffer.get? k =
    if n.nextExpectedCausalId ≤ k ∧ k < n.nextExpectedCausalId
        + min (A.appliedCount n.adapterState n.inbox.due + 1) n.inbox.due.length then none
    else n.eventBuffer.get? k
  none_iff : exc = none ↔ A.Applies n.adapterState n.inbox.due

lemma due_of_none {n : DistributedStateNode S P}
    (h : n.eventBuffer.get? n.nextExpectedCausalId = none) : n.inbox.due = [] :=
  ReorderBuffer.due_of_none h

/-- What is due is the event at the cursor, and what is due behind it. -/
lemma due_of_some {n : DistributedStateNode S P} {event : ExecutionEvent P}
    (h : n.eventBuffer.get? n.nextExpectedCausalId = some event) (s : S) :
    n.inbox.due = event :: (n.commit event s).inbox.due :=
  ReorderBuffer.due_of_some h

lemma processBuffer_drains (n : DistributedStateNode S P) :
    Drains A n (processBuffer A n).1 (processBuffer A n).2 := by
  induction n using processBuffer_induct (A := A) with
  | stop n hget =>
    rw [processBuffer_of_none hget]
    constructor <;> simp [due_of_none hget, Adapter.Applies, Adapter.appliedCount]
  | raise n event s exc hget hs =>
    have hdue := due_of_some hget s
    have hcount : A.appliedCount n.adapterState n.inbox.due = 0 := by
      rw [hdue, Adapter.appliedCount_cons_of_some hs]
    rw [processBuffer_of_raise hget hs]
    refine ⟨rfl, ?_, ?_, fun k => ?_, ?_⟩
    · simp [hcount]
    · simp [hcount]
    · rw [hcount, hdue, List.length_cons, Dict.get?_erase]
      exact if_congr (by omega) rfl rfl
    · rw [Adapter.Applies, hcount, hdue, List.length_cons]
      simp
  | next n event s hget hs h =>
    have hdue := due_of_some hget s
    have hcount : A.appliedCount n.adapterState n.inbox.due
        = A.appliedCount s (n.commit event s).inbox.due + 1 := by
      rw [hdue, Adapter.appliedCount_cons_of_none hs]
    rw [processBuffer_of_some hget hs]
    refine ⟨h.nodeId_eq, ?_, ?_, fun k => ?_, ?_⟩
    · rw [h.cursor_eq, hcount, commit_nextExpectedCausalId, commit_adapterState]
      push_cast
      ring
    · rw [h.localLog_eq, hcount, hdue, List.take_succ_cons, commit_localLog,
        commit_adapterState, List.append_assoc, List.singleton_append]
    · rw [h.get?_eq, hcount, hdue, List.length_cons, commit_nextExpectedCausalId,
        commit_eventBuffer, commit_adapterState, Dict.get?_erase]
      -- the entry at the old cursor is the one that was erased
      by_cases hk : k = n.nextExpectedCausalId
      · subst hk
        rw [if_neg (by omega), if_pos rfl, if_pos (by omega)]
      · rw [if_neg hk]
        exact if_congr (by omega) rfl rfl
    · rw [h.none_iff, Adapter.Applies, Adapter.Applies, hcount, hdue, List.length_cons,
        Nat.add_right_cancel_iff, commit_adapterState]

/-- What the adapter is left with, and what it raises, when the buffer is processed. -/
lemma processBuffer_attempt (n : DistributedStateNode S P) :
    ((processBuffer A n).1.adapterState, (processBuffer A n).2)
      = A.attempt n.adapterState n.inbox.due := by
  induction n using processBuffer_induct (A := A) with
  | stop n hget =>
    rw [processBuffer_of_none hget, due_of_none hget]
    rfl
  | raise n event s exc hget hs =>
    rw [processBuffer_of_raise hget hs, due_of_some hget s, Adapter.attempt, hs]
  | next n event s hget hs ih =>
    rw [processBuffer_of_some hget hs, due_of_some hget s, Adapter.attempt, hs]
    exact ih

/-- **Reception, with or without an exception.**  An event behind the cursor changes
nothing; any other is put into the buffer, which is then processed. -/
theorem receiveEvent_drains {n : DistributedStateNode S P} {event : ExecutionEvent P}
    (h : n.nextExpectedCausalId ≤ event.causalId) :
    Drains A (n.buffered event) (receiveEvent A event n).1 (receiveEvent A event n).2 := by
  rw [receiveEvent, if_neg (not_lt.mpr h)]
  exact processBuffer_drains (n.buffered event)

lemma receiveEvent_late {n : DistributedStateNode S P} {event : ExecutionEvent P}
    (h : event.causalId < n.nextExpectedCausalId) : receiveEvent A event n = (n, none) :=
  if_pos h

lemma dueWith_late {n : DistributedStateNode S P} {event : ExecutionEvent P}
    (h : event.causalId < n.nextExpectedCausalId) : n.dueWith event = [] := if_pos h

lemma dueWith_of_le {n : DistributedStateNode S P} {event : ExecutionEvent P}
    (h : n.nextExpectedCausalId ≤ event.causalId) :
    n.dueWith event = (n.buffered event).inbox.due := if_neg (not_lt.mpr h)

/-- What the adapter is left with, and what it raises, when an event is received. -/
lemma receiveEvent_attempt (event : ExecutionEvent P) (n : DistributedStateNode S P) :
    ((receiveEvent A event n).1.adapterState, (receiveEvent A event n).2)
      = A.attempt n.adapterState (n.dueWith event) := by
  by_cases h : event.causalId < n.nextExpectedCausalId
  · rw [receiveEvent_late h, dueWith_late h]
    rfl
  · rw [dueWith_of_le (not_lt.mp h), receiveEvent, if_neg h]
    exact processBuffer_attempt (n.buffered event)

/-- The cursor advances past the events that are applied. -/
lemma receiveEvent_cursor (event : ExecutionEvent P) (n : DistributedStateNode S P) :
    (receiveEvent A event n).1.nextExpectedCausalId
      = n.nextExpectedCausalId + A.appliedCount n.adapterState (n.dueWith event) := by
  by_cases h : event.causalId < n.nextExpectedCausalId
  · rw [receiveEvent_late h, dueWith_late h]
    simp [Adapter.appliedCount]
  · rw [dueWith_of_le (not_lt.mp h)]
    exact (receiveEvent_drains (not_lt.mp h)).cursor_eq

lemma receiveEvent_nodeId (event : ExecutionEvent P) (n : DistributedStateNode S P) :
    (receiveEvent A event n).1.nodeId = n.nodeId := by
  by_cases h : event.causalId < n.nextExpectedCausalId
  · rw [receiveEvent_late h]
  · exact (receiveEvent_drains (not_lt.mp h)).nodeId_eq

/-- Reception raises exactly if the adapter does on an event that is due. -/
lemma receiveEvent_none_iff (event : ExecutionEvent P) (n : DistributedStateNode S P) :
    (receiveEvent A event n).2 = none ↔ A.Applies n.adapterState (n.dueWith event) := by
  by_cases h : event.causalId < n.nextExpectedCausalId
  · rw [receiveEvent_late h, dueWith_late h]
    exact iff_of_true rfl rfl
  · rw [dueWith_of_le (not_lt.mp h)]
    exact (receiveEvent_drains (not_lt.mp h)).none_iff

/-- An event ahead of the cursor waits afterwards unless it was taken out of the buffer, to be
applied or to be refused. -/
lemma mem_keys_receiveEvent {event : ExecutionEvent P} {n : DistributedStateNode S P}
    (h : n.nextExpectedCausalId ≤ event.causalId) :
    event.causalId ∈ (receiveEvent A event n).1.eventBuffer.keys ↔ n.nextExpectedCausalId
      + min (A.appliedCount n.adapterState (n.dueWith event) + 1) (n.dueWith event).length
      ≤ event.causalId := by
  have hget := (receiveEvent_drains (A := A) h).get?_eq event.causalId
  have hself : (n.buffered event).eventBuffer.get? event.causalId = some event := by simp [buffered]
  rw [← not_iff_not, ← Dict.get?_eq_none, hget, hself, dueWith_of_le h]
  have hcur : (n.buffered event).nextExpectedCausalId = n.nextExpectedCausalId := rfl
  have hst : (n.buffered event).adapterState = n.adapterState := rfl
  rw [hcur, hst]
  split <;> simp <;> omega

/-! ### What becomes of the events a node received -/

/-- The causal id of every event in `ds` is in the log or in the buffer of the node. -/
def Accounted (ds : List (ExecutionEvent P)) (n : DistributedStateNode S P) : Prop :=
  ∀ d ∈ ds, d.causalId ∈ n.localLog.map ExecutionEvent.causalId ∨ d.causalId ∈ n.eventBuffer.keys

instance (ds : List (ExecutionEvent P)) (n : DistributedStateNode S P) :
    Decidable (Accounted ds n) :=
  inferInstanceAs (Decidable (∀ d ∈ ds, _))

/-- What every reception keeps, also when it raises: the log holds the ids before the
cursor, and the buffer holds received events from the cursor on, filed by causal id. -/
structure Tidy (ds : List (ExecutionEvent P)) (n : DistributedStateNode S P) : Prop where
  pos : 1 ≤ n.nextExpectedCausalId
  logged : ∀ k, k ∈ n.localLog.map ExecutionEvent.causalId ↔ 1 ≤ k ∧ k < n.nextExpectedCausalId
  filed : ∀ k e, n.eventBuffer.get? k = some e →
    e ∈ ds ∧ e.causalId = k ∧ n.nextExpectedCausalId ≤ k

namespace Tidy

variable {ds : List (ExecutionEvent P)} {n m : DistributedStateNode S P} {exc : Option PyError}
  {event : ExecutionEvent P}

lemma init (nodeId : String) (s₀ : S) : Tidy (P := P) [] (new nodeId s₀) where
  pos := le_rfl
  logged := by
    intro k
    simp only [new, List.map_nil, List.not_mem_nil, false_iff]
    omega
  filed := fun k e he => absurd he (by simp [new])

lemma mono {ds' : List (ExecutionEvent P)} (h : Tidy ds n) (hds : ds ⊆ ds') : Tidy ds' n where
  pos := h.pos
  logged := h.logged
  filed := fun k e he => ⟨hds (h.filed k e he).1, (h.filed k e he).2⟩

lemma buffered (h : Tidy ds n) (hle : n.nextExpectedCausalId ≤ event.causalId) :
    Tidy (ds ++ [event]) (n.buffered event) where
  pos := h.pos
  logged := h.logged
  filed := by
    intro k e he
    rw [DistributedStateNode.buffered, Dict.get?_set] at he
    split at he
    · next hk =>
      obtain rfl := Option.some.inj he
      exact ⟨by simp, hk.symm, hk ▸ hle⟩
    · obtain ⟨hmem, hid, hk⟩ := h.filed k e he
      exact ⟨List.mem_append_left _ hmem, hid, hk⟩

/-- The events that are due carry the ids from the cursor on. -/
lemma due_causalId (h : Tidy ds n) {i : ℕ} (hi : i < n.inbox.due.length) :
    n.inbox.due[i].causalId = n.nextExpectedCausalId + i :=
  (h.filed _ _ (ReorderBuffer.get?_of_due hi)).2.1

lemma mem_take_due (h : Tidy ds n) {j : ℕ} (hj : j ≤ n.inbox.due.length) (k : ℤ) :
    k ∈ (n.inbox.due.take j).map ExecutionEvent.causalId
      ↔ n.nextExpectedCausalId ≤ k ∧ k < n.nextExpectedCausalId + j := by
  simp only [List.mem_map, List.mem_take_iff_getElem]
  constructor
  · rintro ⟨_, ⟨i, hi, rfl⟩, rfl⟩
    rw [h.due_causalId]
    omega
  · rintro ⟨hle, hlt⟩
    obtain ⟨i, rfl⟩ : ∃ i : ℕ, k = n.nextExpectedCausalId + i :=
      ⟨(k - n.nextExpectedCausalId).toNat, by omega⟩
    exact ⟨_, ⟨i, by omega, rfl⟩, h.due_causalId (by omega)⟩

lemma drains (h : Tidy ds n) (hd : Drains A n m exc) : Tidy ds m where
  pos := by
    have := h.pos
    rw [hd.cursor_eq]
    omega
  logged := by
    intro k
    have hpos := h.pos
    rw [hd.localLog_eq, List.map_append, List.mem_append, h.logged,
      h.mem_take_due (Adapter.appliedCount_le _ _), hd.cursor_eq]
    omega
  filed := by
    intro k e he
    have hle := Adapter.appliedCount_le (A := A) n.adapterState n.inbox.due
    rw [hd.get?_eq] at he
    split at he
    · exact absurd he (by simp)
    · next hk =>
      obtain ⟨hmem, hid, hcur⟩ := h.filed k e he
      refine ⟨hmem, hid, ?_⟩
      rw [hd.cursor_eq]
      omega

lemma deliver (h : Tidy ds n) : Tidy (ds ++ [event]) (deliver A n event) := by
  by_cases hlt : event.causalId < n.nextExpectedCausalId
  · rw [DistributedStateNode.deliver, receiveEvent_late hlt]
    exact h.mono (List.subset_append_left _ _)
  · exact (h.buffered (not_lt.mp hlt)).drains (receiveEvent_drains (not_lt.mp hlt))

end Tidy

/-- Processing the buffer keeps account of the received events exactly if the adapter takes
all that is due: the event at which it raises is lost. -/
lemma Drains.accounted_iff {ds : List (ExecutionEvent P)} {n m : DistributedStateNode S P}
    {exc : Option PyError} (hd : Drains A n m exc) (ht : Tidy ds n) (h : Accounted ds n) :
    Accounted ds m ↔ A.Applies n.adapterState n.inbox.due := by
  have hm := ht.drains hd
  have hcur := hd.cursor_eq
  have hle := Adapter.appliedCount_le (A := A) n.adapterState n.inbox.due
  constructor
  · intro hacc
    by_contra hna
    -- the event at which the adapter raises waited right behind those that were applied
    have hlt : A.appliedCount n.adapterState n.inbox.due < n.inbox.due.length :=
      lt_of_le_of_ne hle hna
    have hget := ReorderBuffer.get?_of_due hlt
    obtain ⟨hmem, hid, -⟩ := ht.filed _ _ hget
    rcases hacc _ hmem with hlog | hkey
    · have := ((hm.logged _).mp hlog).2
      rw [hid, hcur] at this
      exact lt_irrefl _ this
    · rw [hid] at hkey
      refine absurd hkey (Dict.get?_eq_none.mp ?_)
      rw [hd.get?_eq, if_pos]
      have : n.inbox.cursor = n.nextExpectedCausalId := rfl
      omega
  · intro happ d hd'
    have happ' : A.appliedCount n.adapterState n.inbox.due = n.inbox.due.length := happ
    have hpos := ht.pos
    rw [hm.logged, hcur]
    rcases h d hd' with hlog | hkey
    · have := (ht.logged _).mp hlog
      exact Or.inl (by omega)
    · obtain ⟨e, he⟩ := Option.ne_none_iff_exists'.mp (mt Dict.get?_eq_none.mp (not_not.mpr hkey))
      have hahead := (ht.filed _ _ he).2.2
      by_cases hk : d.causalId < n.nextExpectedCausalId + n.inbox.due.length
      · exact Or.inl (by omega)
      · refine Or.inr (Dict.mem_keys_of_get? (v := e) ?_)
        rw [hd.get?_eq, if_neg (by omega), he]

/-- One reception keeps account of the received events exactly if the event has a positive
id and the adapter takes every event that becomes due. -/
lemma accounted_deliver_iff {ds : List (ExecutionEvent P)} {n : DistributedStateNode S P}
    (ht : Tidy ds n) (h : Accounted ds n) (event : ExecutionEvent P) :
    Accounted (ds ++ [event]) (deliver A n event)
      ↔ 1 ≤ event.causalId ∧ A.Applies n.adapterState (n.dueWith event) := by
  by_cases hlt : event.causalId < n.nextExpectedCausalId
  · rw [deliver, receiveEvent_late hlt, dueWith_late hlt]
    have hkey : event.causalId ∉ n.eventBuffer.keys := fun hk => by
      obtain ⟨e, he⟩ := Option.ne_none_iff_exists'.mp (mt Dict.get?_eq_none.mp (not_not.mpr hk))
      exact absurd (ht.filed _ _ he).2.2 (not_le.mpr hlt)
    have hall : Accounted (ds ++ [event]) n ↔
        event.causalId ∈ n.localLog.map ExecutionEvent.causalId := by
      refine ⟨fun hacc => (hacc event (by simp)).resolve_right hkey, fun hlog d hd => ?_⟩
      rcases List.mem_append.mp hd with hd | hd
      · exact h d hd
      · rw [List.mem_singleton.mp hd]
        exact Or.inl hlog
    rw [hall, ht.logged]
    exact ⟨fun hk => ⟨hk.1, rfl⟩, fun hk => ⟨hk.1, hlt⟩⟩
  · have hle := not_lt.mp hlt
    have hpos : 1 ≤ event.causalId := ht.pos.trans hle
    have hbuf : Accounted (ds ++ [event]) (n.buffered event) := by
      intro d hd
      rw [buffered, Dict.mem_keys_set]
      rcases List.mem_append.mp hd with hd | hd
      · exact (h d hd).imp_right Or.inr
      · rw [List.mem_singleton.mp hd]
        exact Or.inr (Or.inl rfl)
    rw [dueWith_of_le hle, deliver,
      (receiveEvent_drains hle).accounted_iff (ht.buffered hle) hbuf]
    exact (and_iff_right hpos).symm

/-- **No received event is lost, exactly without exceptions.**  Along any sequence of
receptions, whatever the events and their order, every id received so far is in the log or
in the buffer after each reception, if and only if each event has a positive id and the
adapter never raises on an event that becomes due. -/
theorem received_accounted_iff (A : Adapter S P) (nodeId : String) (s₀ : S)
    (es : List (ExecutionEvent P)) :
    (∀ ds, ds <+: es → Accounted ds (Run.exec (deliver A) (new nodeId s₀) ds)) ↔
      Run.Along (deliver A)
        (fun n event => 1 ≤ event.causalId ∧ A.Applies n.adapterState (n.dueWith event))
        (new nodeId s₀) es :=
  Run.forall_prefix_iff_along (I := Tidy) (Q := Accounted) (Tidy.init nodeId s₀)
    (fun d hd => absurd hd (by simp)) (fun _ _ _ h => h.deliver)
    (fun _ event _ ht h => accounted_deliver_iff ht h event) es

end DistributedStateNode

/-! ### A strict adapter -/

/-- A counter that takes only payloads with an entry `add`. -/
def strictAdapter : Adapter ℤ (Option ℤ) where
  applyEventPayload
    | some v, val => (val + v, none)
    | none, val => (val, some (.valueError "no entry add"))
  getStateHash := toString

/-- An event without an entry `add`. -/
def emptyEvent (causalId : ℤ) : ExecutionEvent (Option ℤ) := ⟨causalId, "Node_A", "ADD", none⟩

/-- The event `1`, refused by the adapter, is neither logged nor buffered afterwards, and the
event `2` that waited for it cannot be applied any more. -/
theorem DistributedStateNode.received_not_accounted :
    ¬ ∀ ds, ds <+: [addEvent 2 20, emptyEvent 1] →
      Accounted ds (Run.exec (deliver strictAdapter) (new "Node_B" 0) ds) :=
  fun h => absurd (h _ List.prefix_rfl) (by decide)

end QuantumFoundation
