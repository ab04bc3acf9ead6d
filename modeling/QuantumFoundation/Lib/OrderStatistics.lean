import Mathlib.Algebra.Order.BigOperators.Group.List
import Mathlib.Algebra.Order.Field.Basic
import Mathlib.Data.List.Sort

/-!
# Order statistics

The values of a list by rank: the element that stands at a position once the list is sorted.  An
element of rank `i` has more than `i` elements at or below it, and all but `i` at or above it, so
ranks bound what share of the list lies on which side.
-/

namespace QuantumFoundation

section Order

variable {α : Type*} [LinearOrder α] {l l' : List α} {i j : ℕ} {a b : α}

/-- Sorting forgets the order of a list. -/
lemma insertionSort_eq_of_perm (h : l.Perm l') :
    l.insertionSort (· ≤ ·) = l'.insertionSort (· ≤ ·) :=
  have hperm := (List.perm_insertionSort _ l).trans (h.trans (List.perm_insertionSort _ l').symm)
  hperm.eq_of_pairwise' (List.pairwise_insertionSort _ l) (List.pairwise_insertionSort _ l')

/-- `a` stands at position `i` of the sorted list. -/
def HasRank (l : List α) (i : ℕ) (a : α) : Prop := (l.insertionSort (· ≤ ·))[i]? = some a

namespace HasRank

lemma lt_length (h : HasRank l i a) : i < l.length := by
  obtain ⟨hi, -⟩ := List.getElem?_eq_some_iff.mp h
  rwa [List.length_insertionSort] at hi

lemma mem (h : HasRank l i a) : a ∈ l :=
  (List.mem_insertionSort _).mp (List.mem_of_getElem? h)

lemma of_mem (h : a ∈ l) : ∃ i, HasRank l i a :=
  List.mem_iff_getElem?.mp ((List.mem_insertionSort (· ≤ ·)).mpr h)

/-- Ranks and elements are in the same order. -/
lemma mono (h : HasRank l i a) (h' : HasRank l j b) (hij : i ≤ j) : a ≤ b := by
  obtain ⟨hi, rfl⟩ := List.getElem?_eq_some_iff.mp h
  obtain ⟨hj, rfl⟩ := List.getElem?_eq_some_iff.mp h'
  exact (List.sortedLE_iff_getElem_le_getElem_of_le.mp List.sortedLE_insertionSort) hij

/-- The element of rank zero is a least one. -/
lemma le_of_mem (h : HasRank l 0 a) (hb : b ∈ l) : a ≤ b := by
  obtain ⟨j, hj⟩ := of_mem hb
  exact h.mono hj (Nat.zero_le j)

/-- The element of the last rank is a greatest one. -/
lemma ge_of_mem (h : HasRank l (l.length - 1) a) (hb : b ∈ l) : b ≤ a := by
  obtain ⟨j, hj⟩ := of_mem hb
  exact hj.mono h (Nat.le_pred_of_lt hj.lt_length)

/-- More than `i` elements are at most the one of rank `i`. -/
lemma lt_countP_le (h : HasRank l i a) : i < l.countP (· ≤ a) := by
  obtain ⟨hi, -⟩ := List.getElem?_eq_some_iff.mp h
  set s := l.insertionSort (· ≤ ·)
  have htake : ((s.take (i + 1)).countP (· ≤ a)) = i + 1 := by
    have hall : ∀ x ∈ s.take (i + 1), decide (x ≤ a) = true := by
      intro x hx
      obtain ⟨j, hj⟩ := List.mem_iff_getElem?.mp hx
      rw [List.getElem?_take] at hj
      split at hj
      · next hlt => exact decide_eq_true (mono (l := l) hj h (Nat.le_of_lt_succ hlt))
      · exact absurd hj.symm (Option.some_ne_none x)
    rw [List.countP_eq_length.mpr hall, List.length_take, Nat.min_eq_left hi]
  have hle := (List.take_sublist (i + 1) s).countP_le (p := (· ≤ a))
  rw [htake, (List.perm_insertionSort _ l).countP_eq] at hle
  exact hle

/-- All but `i` elements are at least the one of rank `i`. -/
lemma length_le_countP_ge (h : HasRank l i a) : l.length ≤ i + l.countP (a ≤ ·) := by
  set s := l.insertionSort (· ≤ ·)
  have hlength : s.length = l.length := List.length_insertionSort _ l
  have hdrop : (s.drop i).countP (a ≤ ·) = s.length - i := by
    have hall : ∀ x ∈ s.drop i, decide (a ≤ x) = true := by
      intro x hx
      obtain ⟨j, hj⟩ := List.mem_iff_getElem?.mp hx
      rw [List.getElem?_drop] at hj
      exact decide_eq_true (mono (l := l) h hj (Nat.le_add_right i j))
    rw [List.countP_eq_length.mpr hall, List.length_drop]
  have hle := (List.drop_sublist i s).countP_le (p := (a ≤ ·))
  rw [hdrop, (List.perm_insertionSort _ l).countP_eq] at hle
  omega

end HasRank

lemma exists_hasRank (h : i < l.length) : ∃ a, HasRank l i a := by
  have hi : i < (l.insertionSort (· ≤ ·)).length := by rwa [List.length_insertionSort]
  exact ⟨_, List.getElem?_eq_getElem hi⟩

end Order

section Mean

variable {F : Type*} [Field F] [LinearOrder F] [IsStrictOrderedRing F] {l : List F} {a b : F}

/-- A bound from below on the elements is one on their mean. -/
lemma le_mean (hl : l ≠ []) (h : ∀ x ∈ l, a ≤ x) : a ≤ l.sum / l.length := by
  have hpos : (0 : F) < l.length := Nat.cast_pos.mpr (List.length_pos_iff.mpr hl)
  rw [le_div_iff₀ hpos, mul_comm, ← nsmul_eq_mul]
  exact List.card_nsmul_le_sum l a h

/-- A bound from above on the elements is one on their mean. -/
lemma mean_le (hl : l ≠ []) (h : ∀ x ∈ l, x ≤ b) : l.sum / l.length ≤ b := by
  have hpos : (0 : F) < l.length := Nat.cast_pos.mpr (List.length_pos_iff.mpr hl)
  rw [div_le_iff₀ hpos, mul_comm, ← nsmul_eq_mul]
  exact List.sum_le_card_nsmul l b h

end Mean

end QuantumFoundation
