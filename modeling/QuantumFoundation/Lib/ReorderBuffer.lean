import Mathlib.Order.Bounds.Basic
import QuantumFoundation.Lib.Dict
import QuantumFoundation.Lib.NumberedLog

/-!
# Reorder buffers

A reorder buffer receives numbered items in any order and hands them out in the order of
their numbers: items ahead of the cursor wait, and as soon as the item at the cursor is
there it is released together with all its waiting successors.

Abstractly the buffer is nothing but the *set* of numbers it has received: receiving is
insertion into that set, and the cursor of a settled buffer is the least number outside
it.  Since insertion is commutative and idempotent, so is delivery; this is where
independence of the arrival order and of duplicates comes from.
-/

namespace QuantumFoundation

/-- A reorder buffer: the next number to hand out and the items that wait. -/
structure ReorderBuffer (α : Type*) where
  /-- The next number to hand out. -/
  cursor : ℤ
  /-- The waiting items. -/
  pending : Dict ℤ α

namespace ReorderBuffer

variable {α : Type*} {b b' : ReorderBuffer α} {l : List α} {k : ℤ} {a : α}

/-- The set of numbers received so far: those already handed out and those waiting. -/
def received (b : ReorderBuffer α) : Set ℤ := {k | k < b.cursor ∨ k ∈ b.pending.keys}

/-- Everything that waits is ahead of the cursor. -/
def Settled (b : ReorderBuffer α) : Prop := ∀ k ∈ b.pending.keys, b.cursor < k

/-- `Releases b l b'`: handing out the items at the cursor, as long as there is one, hands
out `l` and ends in `b'`. -/
inductive Releases : ReorderBuffer α → List α → ReorderBuffer α → Prop
  | stop {b : ReorderBuffer α} (h : b.pending.get? b.cursor = none) : Releases b [] b
  | next {b b' : ReorderBuffer α} {a : α} {l : List α} (h : b.pending.get? b.cursor = some a)
      (hl : Releases ⟨b.cursor + 1, b.pending.erase b.cursor⟩ l b') : Releases b (a :: l) b'

/-- `Offers k a b l b'`: the arrival of item `a` with number `k` hands out `l` and ends in
`b'`.  An item behind the cursor is dropped. -/
inductive Offers (k : ℤ) (a : α) : ReorderBuffer α → List α → ReorderBuffer α → Prop
  | late {b : ReorderBuffer α} (h : k < b.cursor) : Offers k a b [] b
  | fresh {b b' : ReorderBuffer α} {l : List α} (h : b.cursor ≤ k)
      (hl : Releases ⟨b.cursor, b.pending.set k a⟩ l b') : Offers k a b l b'

lemma mem_received : k ∈ b.received ↔ k < b.cursor ∨ k ∈ b.pending.keys := Iff.rfl

/-- **The cursor is determined by the received set**: in a settled buffer it is the least
number that was not received. -/
theorem Settled.isLeast (h : b.Settled) : IsLeast (b.received)ᶜ b.cursor := by
  refine ⟨fun hr => hr.elim (lt_irrefl _) fun hk => lt_irrefl _ (h _ hk), fun k hk => ?_⟩
  by_contra hlt
  exact hk (Or.inl (by omega))

/-- The cursor of a settled buffer, read off from the received set. -/
lemma Settled.cursor_eq (h : b.Settled) {c : ℤ} (hlt : ∀ k < c, k ∈ b.received)
    (hc : c ∉ b.received) : b.cursor = c :=
  h.isLeast.unique ⟨hc, fun k hk => by by_contra hkc; exact hk (hlt k (by omega))⟩

/-! ### Releasing -/

namespace Releases

lemma cursor_eq (h : Releases b l b') : b'.cursor = b.cursor + l.length := by
  induction h with
  | stop _ => simp
  | next _ _ ih =>
    rw [ih, List.length_cons]
    push_cast
    ring

/-- Handing out stops where nothing waits. -/
lemma get?_cursor (h : Releases b l b') : b'.pending.get? b'.cursor = none := by
  induction h with
  | stop h => exact h
  | next _ _ ih => exact ih

/-- What is still waiting: the items whose numbers were not handed out. -/
lemma pending_get? (h : Releases b l b') (k : ℤ) :
    b'.pending.get? k = if b.cursor ≤ k ∧ k < b'.cursor then none else b.pending.get? k := by
  induction h with
  | stop _ => rw [if_neg (by omega)]
  | @next b b' a l h hl ih =>
    have hlen : b'.cursor = b.cursor + 1 + l.length := hl.cursor_eq
    rw [ih, Dict.get?_erase]
    by_cases hk : k = b.cursor
    · subst hk
      rw [if_neg (by dsimp only; omega), if_pos rfl, if_pos (by omega)]
    · simp only [if_neg hk]
      by_cases hr : b.cursor ≤ k ∧ k < b'.cursor
      · rw [if_pos (by omega), if_pos hr]
      · rw [if_neg (by omega), if_neg hr]

lemma settled (h : Releases b l b') (hb : ∀ k ∈ b.pending.keys, b.cursor ≤ k) :
    b'.Settled := by
  intro k hk
  obtain ⟨v, hv⟩ := Option.ne_none_iff_exists'.mp (mt Dict.get?_eq_none.mp (not_not.mpr hk))
  have hcur := h.cursor_eq
  have hget := hv
  rw [h.pending_get?] at hget
  split at hget
  · exact absurd hget (by simp)
  · have := hb k (Dict.mem_keys_of_get? hget)
    have hne : k ≠ b'.cursor := by
      rintro rfl
      exact absurd (h.get?_cursor.symm.trans hv) (by simp)
    omega

/-- The item handed out at position `i` waited under the number `cursor + i`. -/
lemma getElem_eq (h : Releases b l b') (i : ℕ) (hi : i < l.length) :
    b.pending.get? (b.cursor + i) = some l[i] := by
  induction h generalizing i with
  | stop _ => exact absurd hi (by simp)
  | @next b b' a l h hl ih =>
    cases i with
    | zero => simpa using h
    | succ i =>
      have hget := ih i (by simpa using hi)
      rw [Dict.get?_erase, if_neg (by dsimp only; omega)] at hget
      rw [List.getElem_cons_succ, ← hget]
      congr 1
      push_cast
      ring

/-- Handing out items does not change the received set. -/
lemma received_eq (h : Releases b l b') : b'.received = b.received := by
  ext k
  have hcur := h.cursor_eq
  have hpend := h.pending_get? k
  rw [mem_received, mem_received]
  by_cases hk : b.cursor ≤ k ∧ k < b'.cursor
  · -- a number that was handed out waited before
    obtain ⟨i, hi⟩ : ∃ i : ℕ, k = b.cursor + i := ⟨(k - b.cursor).toNat, by omega⟩
    have hmem := Dict.mem_keys_of_get? (h.getElem_eq i (by omega))
    rw [← hi] at hmem
    exact ⟨fun _ => Or.inr hmem, fun _ => Or.inl hk.2⟩
  · rw [if_neg hk] at hpend
    have hkeys : k ∈ b'.pending.keys ↔ k ∈ b.pending.keys := by
      rw [← not_iff_not, ← Dict.get?_eq_none, ← Dict.get?_eq_none, hpend]
    rw [hkeys]
    exact or_congr_left (by omega)

end Releases

/-! ### Offering -/

namespace Offers

/-- **Delivery is insertion into the received set.** -/
theorem received_eq (h : Offers k a b l b') : b'.received = insert k b.received := by
  cases h with
  | late h => exact (Set.insert_eq_of_mem (mem_received.mpr (Or.inl h))).symm
  | fresh _ hl =>
    rw [hl.received_eq]
    ext j
    rw [Set.mem_insert_iff, mem_received, mem_received, Dict.mem_keys_set]
    exact or_left_comm

lemma settled (h : Offers k a b l b') (hb : b.Settled) : b'.Settled := by
  cases h with
  | late _ => exact hb
  | fresh hk hl =>
    refine hl.settled fun j hj => ?_
    rcases Dict.mem_keys_set.mp hj with rfl | hj
    · exact hk
    · exact (hb j hj).le

lemma cursor_eq (h : Offers k a b l b') : b'.cursor = b.cursor + l.length := by
  cases h with
  | late _ => simp
  | fresh _ hl => exact hl.cursor_eq

lemma cursor_le (h : Offers k a b l b') : b.cursor ≤ b'.cursor := by
  have := h.cursor_eq
  omega

/-- An item that is handed out is the new one, or waited under its number. -/
lemma getElem_eq (h : Offers k a b l b') (i : ℕ) (hi : i < l.length) :
    (b.cursor + i = k ∧ l[i] = a) ∨ b.pending.get? (b.cursor + i) = some l[i] := by
  cases h with
  | late _ => exact absurd hi (by simp)
  | fresh _ hl =>
    have hget := hl.getElem_eq i hi
    rw [Dict.get?_set] at hget
    by_cases hk : b.cursor + i = k
    · rw [if_pos hk] at hget
      exact Or.inl ⟨hk, (Option.some.inj hget).symm⟩
    · rw [if_neg hk] at hget
      exact Or.inr hget

/-- What is handed out is the new item, or waited. -/
lemma eq_or_pending (h : Offers k a b l b') {x : α} (hx : x ∈ l) :
    x = a ∨ ∃ j, b.pending.get? j = some x := by
  obtain ⟨i, hi, rfl⟩ := List.mem_iff_getElem.mp hx
  rcases h.getElem_eq i hi with ⟨-, ha⟩ | hget
  · exact Or.inl ha
  · exact Or.inr ⟨_, hget⟩

/-- An item that waits afterwards is the new one, or waited before. -/
lemma pending_get? (h : Offers k a b l b') {j : ℤ} {x : α} (hx : b'.pending.get? j = some x) :
    (j = k ∧ x = a) ∨ b.pending.get? j = some x := by
  cases h with
  | late _ => exact Or.inr hx
  | fresh _ hl =>
    rw [hl.pending_get?] at hx
    split at hx
    · exact absurd hx (by simp)
    · dsimp only at hx
      rw [Dict.get?_set] at hx
      by_cases hj : j = k
      · rw [if_pos hj] at hx
        exact Or.inl ⟨hj, (Option.some.inj hx).symm⟩
      · rw [if_neg hj] at hx
        exact Or.inr hx

/-- **Hand-out is a segment of the log.**  If the waiting items and the new one are images
of entries of a numbered log, filed under the entries' numbers, then what is handed out is
the image of the segment from the old cursor to the new one. -/
theorem eq_map_segment {β : Type*} {id : β → ℤ} {s : ℤ} {L : List β} (h : Offers k a b l b')
    (hL : NumberedFrom id s L) (f : β → α) (ha : ∃ x ∈ L, id x = k ∧ a = f x)
    (hb : ∀ j y, b.pending.get? j = some y → ∃ x ∈ L, id x = j ∧ y = f x) :
    l = (segment id L b.cursor b'.cursor).map f := by
  rw [h.cursor_eq]
  refine hL.eq_map_segment f l fun i hi => ?_
  rcases h.getElem_eq i hi with ⟨hk, hi⟩ | hget
  · rw [hk, hi]
    exact ha
  · exact hb _ _ hget

end Offers

/-! ### Two buffers in step -/

section Map

variable {β : Type*} (f : α → β)

/-- The buffer with its waiting items mapped. -/
def map (b : ReorderBuffer α) : ReorderBuffer β := ⟨b.cursor, b.pending.mapValues fun _ => f⟩

@[simp] lemma map_cursor (b : ReorderBuffer α) : (b.map f).cursor = b.cursor := rfl

lemma map_get? (b : ReorderBuffer α) (k : ℤ) :
    (b.map f).pending.get? k = (b.pending.get? k).map f := Dict.get?_mapValues _ _ _

variable {f}

/-- Handing out does not look into the items. -/
lemma Releases.map (h : Releases b l b') : Releases (b.map f) (l.map f) (b'.map f) := by
  induction h with
  | @stop b h =>
    refine .stop ?_
    rw [map_get?, map_cursor, h]
    rfl
  | @next b b' a l h hl ih =>
    refine .next (by rw [map_get?, map_cursor, h]; rfl) ?_
    rwa [ReorderBuffer.map, Dict.mapValues_erase] at ih

/-- An arrival does not look into the items. -/
lemma Offers.map (h : Offers k a b l b') : Offers k (f a) (b.map f) (l.map f) (b'.map f) := by
  cases h with
  | late h => exact .late h
  | fresh h hl =>
    refine .fresh h ?_
    have hmap := hl.map (f := f)
    rwa [ReorderBuffer.map, Dict.mapValues_set] at hmap

end Map

/-- What is handed out, and what is left, is determined by the buffer. -/
lemma Releases.unique {l₁ l₂ : List α} {b₁ b₂ : ReorderBuffer α} (h₁ : Releases b l₁ b₁)
    (h₂ : Releases b l₂ b₂) : l₁ = l₂ ∧ b₁ = b₂ := by
  induction h₁ generalizing l₂ with
  | stop hnone =>
    cases h₂ with
    | stop _ => exact ⟨rfl, rfl⟩
    | next hsome _ => exact absurd (hnone.symm.trans hsome) (by simp)
  | next hsome _ ih =>
    cases h₂ with
    | stop hnone => exact absurd (hnone.symm.trans hsome) (by simp)
    | next hsome' hl =>
      cases Option.some.inj (hsome.symm.trans hsome')
      obtain ⟨rfl, rfl⟩ := ih hl
      exact ⟨rfl, rfl⟩

/-- **Arrivals are deterministic**: two buffers that refine the same reorder buffer hand out
the same items and stay in step. -/
theorem Offers.unique {l₁ l₂ : List α} {b₁ b₂ : ReorderBuffer α} (h₁ : Offers k a b l₁ b₁)
    (h₂ : Offers k a b l₂ b₂) : l₁ = l₂ ∧ b₁ = b₂ := by
  cases h₁ with
  | late hlt =>
    cases h₂ with
    | late _ => exact ⟨rfl, rfl⟩
    | fresh hle _ => omega
  | fresh hle hl =>
    cases h₂ with
    | late hlt => omega
    | fresh _ hl' => exact hl.unique hl'

/-! ### What is due -/

/-- The items that handing out takes from the buffer in at most the given number of
rounds. -/
def dueLoop : ℕ → ReorderBuffer α → List α
  | 0, _ => []
  | rounds + 1, b =>
    match b.pending.get? b.cursor with
    | none => []
    | some a => a :: dueLoop rounds ⟨b.cursor + 1, b.pending.erase b.cursor⟩

/-- The items that are due: the one at the cursor and its successors, as far as they are
there. -/
def due (b : ReorderBuffer α) : List α := dueLoop b.pending.size b

/-- More rounds than items make no difference. -/
lemma dueLoop_eq {rounds : ℕ} (h : b.pending.size ≤ rounds) : dueLoop rounds b = b.due := by
  suffices hall : ∀ (r r' : ℕ) (b : ReorderBuffer α), b.pending.size ≤ r → b.pending.size ≤ r' →
      dueLoop r b = dueLoop r' b from hall _ _ b h le_rfl
  intro r
  induction r with
  | zero =>
    intro r' b hr _
    have hnone := Dict.size_eq_zero.mp (Nat.le_zero.mp hr) b.cursor
    cases r' with
    | zero => rfl
    | succ r' => rw [dueLoop, dueLoop, hnone]
  | succ r ih =>
    intro r' b hr hr'
    cases r' with
    | zero =>
      have hnone := Dict.size_eq_zero.mp (Nat.le_zero.mp hr') b.cursor
      rw [dueLoop, dueLoop, hnone]
    | succ r' =>
      rw [dueLoop, dueLoop]
      cases hget : b.pending.get? b.cursor with
      | none => rfl
      | some a =>
        have hlt := Dict.size_erase_lt hget
        exact congrArg (a :: ·) (ih r' _ (by dsimp only; omega) (by dsimp only; omega))

lemma due_of_none (h : b.pending.get? b.cursor = none) : b.due = [] := by
  rw [← dueLoop_eq (Nat.le_succ _), dueLoop, h]

lemma due_of_some (h : b.pending.get? b.cursor = some a) :
    b.due = a :: due ⟨b.cursor + 1, b.pending.erase b.cursor⟩ := by
  have hlt := Dict.size_erase_lt h
  rw [← dueLoop_eq (b := b) (Nat.le_succ _), dueLoop, h]
  simp only
  rw [dueLoop_eq (by dsimp only; omega)]

/-- What is handed out is what is due. -/
lemma exists_releases_due (b : ReorderBuffer α) : ∃ b', Releases b b.due b' := by
  induction hsize : b.pending.size using Nat.strong_induction_on generalizing b with
  | _ size ih =>
    cases hget : b.pending.get? b.cursor with
    | none =>
      rw [due_of_none hget]
      exact ⟨b, .stop hget⟩
    | some a =>
      have hlt := Dict.size_erase_lt hget
      obtain ⟨b', hb'⟩ := ih _ (by rwa [← hsize]) ⟨b.cursor + 1, b.pending.erase b.cursor⟩ rfl
      rw [due_of_some hget]
      exact ⟨b', .next hget hb'⟩

/-- The item that is due at position `i` waits under the number `cursor + i`. -/
lemma get?_of_due {i : ℕ} (hi : i < b.due.length) :
    b.pending.get? (b.cursor + i) = some b.due[i] := by
  obtain ⟨b', hb'⟩ := b.exists_releases_due
  exact hb'.getElem_eq i hi

/-- Nothing waits behind what is due. -/
lemma get?_after_due : b.pending.get? (b.cursor + b.due.length) = none := by
  obtain ⟨b', hb'⟩ := b.exists_releases_due
  have hend := hb'.get?_cursor
  rwa [hb'.pending_get?, if_neg (by omega), hb'.cursor_eq] at hend

end ReorderBuffer

end QuantumFoundation
