import Mathlib.Data.Finset.Basic
import Mathlib.Data.List.Nodup
import Mathlib.Data.List.Sort

/-!
# First arrivals

A receiver that drops what it has seen before, by a key, takes every item at its first arrival.
Two receivers of the same items take them in an order that may differ; they end alike if the items
first arrive in the order of a common rank, or if the effects of the items commute.
-/

namespace QuantumFoundation

variable {σ α β : Type*} [DecidableEq β] {key : α → β}

/-- The items that arrive first under their key, when some keys have been seen before. -/
def firstArrivals (key : α → β) : Finset β → List α → List α
  | _, [] => []
  | seen, a :: l =>
    if key a ∈ seen then firstArrivals key seen l
    else a :: firstArrivals key (insert (key a) seen) l

/-- A receiver takes the effect of an item unless it has seen the key. -/
def absorb (key : α → β) (effect : σ → α → σ) (s : σ × Finset β) (a : α) : σ × Finset β :=
  if key a ∈ s.2 then s else (effect s.1 a, insert (key a) s.2)

/-- **Once each.**  A receiver ends in the state to which the first arrivals lead. -/
theorem foldl_absorb (effect : σ → α → σ) (s : σ) (seen : Finset β) (l : List α) :
    (l.foldl (absorb key effect) (s, seen)).1 = (firstArrivals key seen l).foldl effect s := by
  induction l generalizing s seen with
  | nil => rfl
  | cons a l ih =>
    rw [List.foldl_cons, absorb, firstArrivals]
    split
    · exact ih s seen
    · exact ih (effect s a) (insert (key a) seen)

lemma of_mem_firstArrivals {seen : Finset β} {l : List α} {a : α}
    (h : a ∈ firstArrivals key seen l) : a ∈ l ∧ key a ∉ seen := by
  induction l generalizing seen with
  | nil => exact absurd h List.not_mem_nil
  | cons b l ih =>
    rw [firstArrivals] at h
    split at h
    · exact ⟨List.mem_cons_of_mem _ (ih h).1, (ih h).2⟩
    · next hnew =>
      rcases List.mem_cons.mp h with rfl | h
      · exact ⟨List.mem_cons_self, hnew⟩
      · exact ⟨List.mem_cons_of_mem _ (ih h).1,
          fun hseen => (ih h).2 (Finset.mem_insert_of_mem hseen)⟩

/-- No key arrives first twice. -/
lemma nodup_map_firstArrivals (key : α → β) (seen : Finset β) (l : List α) :
    ((firstArrivals key seen l).map key).Nodup := by
  induction l generalizing seen with
  | nil => exact List.nodup_nil
  | cons a l ih =>
    rw [firstArrivals]
    split
    · exact ih seen
    · rw [List.map_cons, List.nodup_cons]
      refine ⟨fun hmem => ?_, ih _⟩
      obtain ⟨b, hb, hkey⟩ := List.mem_map.mp hmem
      exact (of_mem_firstArrivals hb).2 (hkey ▸ Finset.mem_insert_self _ _)

/-- Where the keys tell the items apart, every item arrives first. -/
lemma mem_firstArrivals {seen : Finset β} {l : List α}
    (hinj : ∀ a ∈ l, ∀ b ∈ l, key a = key b → a = b) {a : α} (ha : a ∈ l) (hnew : key a ∉ seen) :
    a ∈ firstArrivals key seen l := by
  induction l generalizing seen with
  | nil => exact ha
  | cons b l ih =>
    have hinj' : ∀ a ∈ l, ∀ b ∈ l, key a = key b → a = b := fun a ha b hb =>
      hinj a (List.mem_cons_of_mem _ ha) b (List.mem_cons_of_mem _ hb)
    rw [firstArrivals]
    by_cases hab : a = b
    · rw [hab] at hnew ⊢
      rw [if_neg hnew]
      exact List.mem_cons_self
    · have hrest : a ∈ l := (List.mem_cons.mp ha).resolve_left hab
      have hkey : key a ≠ key b := fun h => hab (hinj a ha b List.mem_cons_self h)
      split
      · exact ih hinj' hrest hnew
      · refine List.mem_cons_of_mem _ (ih hinj' hrest ?_)
        rw [Finset.mem_insert]
        exact fun h => h.elim hkey hnew

section Same

variable {l l' : List α} (hsame : ∀ a, a ∈ l ↔ a ∈ l')
  (hinj : ∀ a ∈ l, ∀ b ∈ l, key a = key b → a = b)
include hsame hinj

/-- The same items arrive first, whatever the order and the duplicates. -/
lemma firstArrivals_perm : (firstArrivals key ∅ l).Perm (firstArrivals key ∅ l') := by
  have hinj' : ∀ a ∈ l', ∀ b ∈ l', key a = key b → a = b := fun a ha b hb =>
    hinj a ((hsame a).mpr ha) b ((hsame b).mpr hb)
  refine (List.perm_ext_iff_of_nodup ((nodup_map_firstArrivals key ∅ l).of_map key)
    ((nodup_map_firstArrivals key ∅ l').of_map key)).mpr fun a => ?_
  constructor
  · intro h
    exact mem_firstArrivals hinj' ((hsame a).mp (of_mem_firstArrivals h).1)
      (Finset.notMem_empty _)
  · intro h
    exact mem_firstArrivals hinj ((hsame a).mpr (of_mem_firstArrivals h).1)
      (Finset.notMem_empty _)

/-- **Ranks.**  Items that arrive in the order of their ranks arrive in the same order. -/
theorem firstArrivals_eq_of_increasing {ρ : Type*} [Preorder ρ] {rank : α → ρ}
    (h : (firstArrivals key ∅ l).Pairwise fun a b => rank a < rank b)
    (h' : (firstArrivals key ∅ l').Pairwise fun a b => rank a < rank b) :
    firstArrivals key ∅ l = firstArrivals key ∅ l' :=
  (firstArrivals_perm hsame hinj).eq_of_pairwise
    (fun _ _ _ _ hab hba => absurd hba hab.asymm) h h'

/-- **Commuting effects.**  If the effects of the items commute, the order of arrival does not
matter. -/
theorem foldl_firstArrivals_eq {effect : σ → α → σ}
    (hcomm : ∀ a ∈ l, ∀ b ∈ l, ∀ s, effect (effect s a) b = effect (effect s b) a) (s : σ) :
    (firstArrivals key ∅ l).foldl effect s = (firstArrivals key ∅ l').foldl effect s :=
  (firstArrivals_perm hsame hinj).foldl_eq' (fun a ha b hb =>
    hcomm a (of_mem_firstArrivals ha).1 b (of_mem_firstArrivals hb).1) s

end Same

end QuantumFoundation
