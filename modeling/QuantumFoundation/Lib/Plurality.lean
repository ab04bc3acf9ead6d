import Mathlib.Data.List.Basic
import Mathlib.Order.Nat

/-!
# The most frequent members of a list

A member of a list is most frequent if no other occurs more often.  There may be several such
members; one that makes up more than half of the list is the only one.
-/

namespace QuantumFoundation

variable {α : Type*} [DecidableEq α] {l : List α} {a b : α}

/-- A member that occurs as often as any other. -/
def IsMostFrequent (l : List α) (a : α) : Prop := a ∈ l ∧ ∀ b ∈ l, l.count b ≤ l.count a

/-- No two members are most frequent. -/
def NoTie (l : List α) : Prop := ∀ a b, IsMostFrequent l a → IsMostFrequent l b → a = b

/-- A member that makes up more than half of the list. -/
def IsMajority (l : List α) (a : α) : Prop := l.length < 2 * l.count a

/-- Different members share the places of the list. -/
lemma count_add_count_le (h : a ≠ b) : l.count a + l.count b ≤ l.length := by
  induction l with
  | nil => simp
  | cons c l ih =>
    rw [List.count_cons, List.count_cons, List.length_cons]
    by_cases hca : c = a
    · subst hca
      simp only [BEq.rfl, if_true, beq_iff_eq, if_neg h]
      omega
    · simp only [beq_iff_eq, if_neg hca]
      split <;> omega

lemma IsMajority.count_lt (h : IsMajority l a) (hne : b ≠ a) : l.count b < l.count a := by
  have hle := count_add_count_le (l := l) hne
  rw [IsMajority] at h
  omega

lemma IsMajority.isMostFrequent (h : IsMajority l a) : IsMostFrequent l a := by
  have hpos : 0 < l.count a := by
    rw [IsMajority] at h
    omega
  refine ⟨List.count_pos_iff.mp hpos, fun b _ => ?_⟩
  rcases eq_or_ne b a with rfl | hne
  · exact le_rfl
  · exact (h.count_lt hne).le

/-- A majority leaves no room for another most frequent member. -/
lemma IsMajority.unique (h : IsMajority l a) (hb : IsMostFrequent l b) : b = a := by
  by_contra hne
  exact absurd (hb.2 a h.isMostFrequent.1) (not_le.mpr (h.count_lt hne))

end QuantumFoundation
