import Mathlib.Data.List.Basic
import Mathlib.Data.List.Nodup

/-!
# Iterating over a list that changes

An iteration goes over a list by position, while members are appended to the list and erased from
it.  As long as whatever is due stands at the position or later until it is delivered, and nowhere
there afterwards, every member that was there at first, and was not erased before its turn, is
delivered exactly once.
-/

namespace QuantumFoundation

/-- An iteration: its position, the members at first, those delivered so far, and those that were
erased before they were delivered. -/
structure Iteration (κ : Type*) where
  index : ℕ
  initial : List κ
  delivered : List κ
  excused : List κ
deriving DecidableEq

namespace Iteration

variable {κ : Type*} [DecidableEq κ]

/-- The iteration begins. -/
def start (l : List κ) : Iteration κ := ⟨0, l, [], []⟩

/-- A member is delivered. -/
def deliver (a : κ) (it : Iteration κ) : Iteration κ :=
  { it with
    index := it.index + 1
    delivered := it.delivered ++ [a] }

/-- A member is erased from the list. -/
def excuse (a : κ) (it : Iteration κ) : Iteration κ :=
  if a ∈ it.delivered then it else { it with excused := it.excused ++ [a] }

/-- A member at first that was not erased before its turn. -/
def Due (it : Iteration κ) (a : κ) : Prop := a ∈ it.initial ∧ a ∉ it.excused

instance (it : Iteration κ) (a : κ) : Decidable (it.Due a) := inferInstanceAs (Decidable (_ ∧ _))

/-- Everything that is due was delivered once. -/
def Exact (it : Iteration κ) : Prop := ∀ a ∈ it.initial, it.Due a → it.delivered.count a = 1

instance (it : Iteration κ) : Decidable it.Exact := inferInstanceAs (Decidable (∀ _ ∈ _, _))

/-- **The invariant.**  Whatever is due either waits at the position or later, or was delivered. -/
def Aligned (l : List κ) (it : Iteration κ) : Prop :=
  ∀ a, it.Due a → it.delivered.count a = if a ∈ l.drop it.index then 0 else 1

variable {l : List κ} {it : Iteration κ} {a : κ}

/-! ### Erased members -/

@[simp] lemma index_excuse : (it.excuse a).index = it.index := by
  rw [excuse]
  split_ifs <;> rfl

@[simp] lemma delivered_excuse : (it.excuse a).delivered = it.delivered := by
  rw [excuse]
  split_ifs <;> rfl

@[simp] lemma initial_excuse : (it.excuse a).initial = it.initial := by
  rw [excuse]
  split_ifs <;> rfl

/-- What is due after an erasure was due before. -/
lemma Due.of_excuse {b : κ} (h : (it.excuse a).Due b) : it.Due b := by
  have hinitial := h.1
  rw [initial_excuse] at hinitial
  refine ⟨hinitial, fun hexcused => h.2 ?_⟩
  rw [excuse]
  split_ifs
  · exact hexcused
  · exact List.mem_append_left _ hexcused

/-- An erased member that is still due was delivered. -/
lemma Due.mem_delivered (h : (it.excuse a).Due a) : a ∈ it.delivered := by
  by_contra hdelivered
  refine h.2 ?_
  rw [excuse, if_neg hdelivered]
  exact List.mem_append_right _ List.mem_cons_self

/-- What waits after the erasure of a member before the position: the next one is skipped. -/
lemma drop_erase_of_mem_take {i : ℕ} (h : a ∈ l.take i) :
    (l.erase a).drop i = l.drop (i + 1) := by
  induction l generalizing i with
  | nil => exact absurd (List.mem_of_mem_take h) List.not_mem_nil
  | cons b l ih =>
    cases i with
    | zero => exact absurd h List.not_mem_nil
    | succ i =>
      by_cases hb : b = a
      · rw [hb, List.erase_cons_head, List.drop_succ_cons]
      · rw [List.take_succ_cons, List.mem_cons] at h
        rw [List.erase_cons_tail (beq_eq_false_iff_ne.mpr hb ▸ Bool.false_ne_true),
          List.drop_succ_cons, List.drop_succ_cons]
        exact ih (h.resolve_left fun heq => hb heq.symm)

/-- What waits after the erasure of any other member. -/
lemma drop_erase_of_not_mem_take {i : ℕ} (h : a ∉ l.take i) :
    (l.erase a).drop i = (l.drop i).erase a := by
  rcases Nat.le_total l.length i with hle | hle
  · rw [List.drop_eq_nil_of_le hle, List.drop_eq_nil_of_le (Nat.le_trans List.length_erase_le hle)]
    rfl
  · conv_lhs => rw [← List.take_append_drop i l, List.erase_append_right _ h]
    exact List.drop_left' (List.length_take_of_le hle)

/-! ### The invariant -/

lemma Aligned.start (l : List κ) : (start l).Aligned l := by
  intro a hdue
  have hmem : a ∈ l := hdue.1
  rw [Iteration.start, List.drop_zero, if_pos hmem]
  exact List.count_nil

/-- A member that waits was not delivered. -/
lemma Aligned.not_mem_delivered (h : it.Aligned l) (hdue : it.Due a)
    (hwaits : a ∈ l.drop it.index) : a ∉ it.delivered := by
  have hcount := h a hdue
  rw [if_pos hwaits] at hcount
  exact List.count_eq_zero.mp hcount

/-- The member at the position is delivered. -/
lemma Aligned.deliver (h : it.Aligned l) (hnodup : l.Nodup) (ha : l[it.index]? = some a) :
    (it.deliver a).Aligned l := by
  obtain ⟨hi, hget⟩ := List.getElem?_eq_some_iff.mp ha
  have hdrop : l.drop it.index = a :: l.drop (it.index + 1) := hget ▸ List.drop_eq_getElem_cons hi
  obtain ⟨hnotmem, -⟩ := List.nodup_cons.mp (hdrop ▸ hnodup.sublist (List.drop_sublist it.index l))
  intro b hdue
  have hcount := h b hdue
  change (it.delivered ++ [a]).count b = if b ∈ l.drop (it.index + 1) then 0 else 1
  rw [List.count_append, hcount, hdrop]
  by_cases hab : b = a
  · rw [hab, if_pos List.mem_cons_self, if_neg hnotmem, List.count_singleton_self]
  · rw [List.count_eq_zero_of_not_mem (fun hmem => hab (List.mem_singleton.mp hmem)), Nat.add_zero]
    simp only [List.mem_cons, hab, false_or]

/-- A member is appended, which must not wait for a second delivery. -/
lemma Aligned.append (h : it.Aligned l) (hsafe : it.Due a → l.length < it.index) :
    it.Aligned (l ++ [a]) := by
  intro b hdue
  rw [h b hdue]
  rcases Nat.lt_or_ge l.length it.index with hlt | hge
  · have hlength : (l ++ [a]).length ≤ it.index := by
      rwa [List.length_append]
    rw [List.drop_eq_nil_of_le (Nat.le_of_lt hlt), List.drop_eq_nil_of_le hlength]
  · have hne : b ≠ a := fun heq => Nat.not_lt_of_ge hge (hsafe (heq ▸ hdue))
    rw [List.drop_append_of_le_length hge]
    simp only [List.mem_append, List.mem_singleton, hne, or_false]

/-- A member is erased, which must not stand before the position if the next one is due. -/
lemma Aligned.erase (h : it.Aligned l) (ha : a ∈ l)
    (hsafe : a ∈ l.take it.index → ∀ b ∈ l[it.index]?, ¬it.Due b) :
    (it.excuse a).Aligned (l.erase a) := by
  intro b hdue
  rw [delivered_excuse, index_excuse, h b hdue.of_excuse]
  by_cases hbefore : a ∈ l.take it.index
  · rw [drop_erase_of_mem_take hbefore]
    cases hnext : l[it.index]? with
    | none =>
      have hle : l.length ≤ it.index := List.getElem?_eq_none_iff.mp hnext
      rw [List.drop_eq_nil_of_le hle, List.drop_eq_nil_of_le (Nat.le_succ_of_le hle)]
    | some c =>
      obtain ⟨hi, hget⟩ := List.getElem?_eq_some_iff.mp hnext
      have hne : b ≠ c := fun heq => hsafe hbefore c hnext (heq ▸ hdue.of_excuse)
      rw [List.drop_eq_getElem_cons hi, hget]
      simp only [List.mem_cons, hne, false_or]
  · rw [drop_erase_of_not_mem_take hbefore]
    have hne : b ≠ a := by
      rintro rfl
      rw [← List.take_append_drop it.index l] at ha
      exact h.not_mem_delivered hdue.of_excuse ((List.mem_append.mp ha).resolve_left hbefore)
        hdue.mem_delivered
    simp only [List.mem_erase_of_ne hne]

/-- **Exactly once.**  At the end of the list everything that is due was delivered. -/
theorem Aligned.exact (h : it.Aligned l) (hend : l.length ≤ it.index) : it.Exact := by
  intro a _ hdue
  rw [h a hdue, List.drop_eq_nil_of_le hend, if_neg List.not_mem_nil]

end Iteration

end QuantumFoundation
