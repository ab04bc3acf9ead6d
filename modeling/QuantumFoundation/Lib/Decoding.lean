import Mathlib.Data.List.Infix
import Mathlib.Data.String.Basic

/-!
# Reading a text apart

What a text that is put together from parts fixes of them.  A part can be read from the left if
it is known that the other part that may stand there is the same or does not begin like it; so
the words of a code of which none is the beginning of another can be read, and so can a known
name.  From this a list of records can be read, if each of its records can.
-/

namespace QuantumFoundation

/-- If one of the texts is the beginning of the other, they are the same. -/
def Separable (s t : String) : Prop :=
  s.toList <+: t.toList ∨ t.toList <+: s.toList → s = t

/-- None of the texts is a proper beginning of another. -/
def PrefixFree (C : Set String) : Prop := ∀ s ∈ C, ∀ t ∈ C, s.toList <+: t.toList → s = t

instance (s t : String) : Decidable (Separable s t) :=
  inferInstanceAs (Decidable (s.toList <+: t.toList ∨ t.toList <+: s.toList → s = t))

lemma Separable.refl (s : String) : Separable s s := fun _ => rfl

lemma PrefixFree.separable {C : Set String} (h : PrefixFree C) {s t : String} (hs : s ∈ C)
    (ht : t ∈ C) : Separable s t := by
  rintro (hst | hts)
  · exact h s hs t ht hst
  · exact (h t ht s hs hts).symm

lemma PrefixFree.mono {C D : Set String} (h : PrefixFree D) (hCD : C ⊆ D) : PrefixFree C :=
  fun s hs t ht => h s (hCD hs) t (hCD ht)

/-- A text that begins with one of two separable texts is read in one way. -/
lemma Separable.append_inj {s t a b : String} (h : Separable s t) (heq : s ++ a = t ++ b) :
    s = t ∧ a = b := by
  have hlist : s.toList ++ a.toList = t.toList ++ b.toList := by
    rw [← String.toList_append, heq, String.toList_append]
  have hst : s = t := h (List.prefix_or_prefix_of_prefix (List.prefix_append s.toList a.toList)
    (hlist ▸ List.prefix_append t.toList b.toList))
  rw [hst] at heq
  exact ⟨hst, (String.append_right_inj _).mp heq⟩

/-- A text that begins with a number of words of a code is read in one way. -/
lemma PrefixFree.join_append_inj {C : Set String} (hC : PrefixFree C) {l m : List String}
    {a b : String} (hl : ∀ s ∈ l, s ∈ C) (hm : ∀ s ∈ m, s ∈ C) (hlen : l.length = m.length)
    (heq : String.join l ++ a = String.join m ++ b) : l = m ∧ a = b := by
  induction l generalizing m with
  | nil =>
    obtain rfl : m = [] := List.length_eq_zero_iff.mp hlen.symm
    exact ⟨rfl, (String.append_right_inj _).mp heq⟩
  | cons s l ih =>
    cases m with
    | nil => exact absurd hlen (by simp)
    | cons t m =>
      rw [String.join_cons, String.join_cons, String.append_assoc, String.append_assoc] at heq
      obtain ⟨rfl, hrest⟩ :=
        (hC.separable (hl s List.mem_cons_self) (hm t List.mem_cons_self)).append_inj heq
      obtain ⟨rfl, rfl⟩ := ih (fun s hs => hl s (List.mem_cons_of_mem _ hs))
        (fun t ht => hm t (List.mem_cons_of_mem _ ht)) (Nat.succ.inj hlen) hrest
      exact ⟨rfl, rfl⟩

/-! ### Lists of records -/

section Records

variable {α : Type*} {text : α → String} {R : α → α → Prop}

/-- The texts of two records can be told apart, up to `R`, and from what follows. -/
def ReadsAs (text : α → String) (R : α → α → Prop) (a b : α) : Prop :=
  ∀ x y, text a ++ x = text b ++ y → R a b ∧ x = y

lemma join_eq_empty {l : List α} (hl : ∀ a ∈ l, text a ≠ "")
    (h : String.join (l.map text) = "") : l = [] := by
  cases l with
  | nil => rfl
  | cons a l =>
    rw [List.map_cons, String.join_cons, String.append_eq_empty_iff] at h
    exact absurd h.1 (hl a List.mem_cons_self)

/-- **Records in a row.**  If the records at the same place can be told apart, and none of them is
empty, then the text of a list of records fixes its records, up to `R`, and their number. -/
theorem forall₂_of_join_eq {l m : List α} (hread : ∀ p ∈ l.zip m, ReadsAs text R p.1 p.2)
    (hl : ∀ a ∈ l, text a ≠ "") (hm : ∀ b ∈ m, text b ≠ "")
    (h : String.join (l.map text) = String.join (m.map text)) : List.Forall₂ R l m := by
  induction l generalizing m with
  | nil =>
    rw [join_eq_empty hm h.symm]
    exact .nil
  | cons a l ih =>
    cases m with
    | nil => exact absurd (join_eq_empty hl h) (List.cons_ne_nil a l)
    | cons b m =>
      rw [List.map_cons, List.map_cons, String.join_cons, String.join_cons] at h
      obtain ⟨hab, hrest⟩ := hread (a, b) (by simp) _ _ h
      refine .cons hab (ih (fun p hp => hread p ?_) ?_ ?_ hrest)
      · exact List.mem_cons_of_mem _ hp
      · exact fun c hc => hl c (List.mem_cons_of_mem a hc)
      · exact fun c hc => hm c (List.mem_cons_of_mem b hc)

end Records

end QuantumFoundation
