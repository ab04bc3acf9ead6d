import Mathlib.Algebra.BigOperators.Group.List.Basic
import Mathlib.Tactic.Abel
import QuantumFoundation.Lib.Dict

/-!
# Totals

The total of a weight over the entries of a dictionary, and what storing and removing an entry does
to it.  What a store owes, how many of its entries meet a condition, and its size are totals, and a
law of conservation is a statement on how a step changes one.
-/

namespace QuantumFoundation

namespace Dict

variable {κ υ M : Type*}

/-- The total of a weight over the entries. -/
def total [AddCommMonoid M] (f : κ → υ → M) (d : Dict κ υ) : M :=
  (d.entries.map fun p => f p.1 p.2).sum

section Monoid

variable [AddCommMonoid M] {f : κ → υ → M} {d : Dict κ υ}

@[simp] lemma total_empty : (empty : Dict κ υ).total f = 0 := rfl

/-- The size is the total of ones. -/
lemma size_eq_total (d : Dict κ υ) : d.size = d.total fun _ _ => 1 := by
  rw [size, total, List.map_const', List.sum_replicate, nsmul_one, Nat.cast_id]

variable [DecidableEq κ] {k : κ} {v w : υ}

/-- A new entry is added to the total. -/
lemma total_set_of_get?_eq_none (h : d.get? k = none) :
    (d.set k v).total f = d.total f + f k v := by
  rw [set, dif_neg (get?_eq_none.mp h), total, total, push, List.map_append, List.sum_append]
  simp

/-- One entry taken out of a list of entries with distinct keys. -/
lemma exists_split (h : d.get? k = some w) : ∃ l l', d.entries = l ++ (k, w) :: l' ∧
    (∀ p ∈ l, p.1 ≠ k) ∧ ∀ p ∈ l', p.1 ≠ k := by
  obtain ⟨l, l', hentries⟩ := List.append_of_mem (get?_eq_some.mp h)
  have hnodup := d.nodup
  rw [hentries, List.map_append, List.map_cons, List.nodup_append] at hnodup
  obtain ⟨-, htail, hdisjoint⟩ := hnodup
  refine ⟨l, l', hentries, fun p hp => ?_, fun p hp hk => ?_⟩
  · exact hdisjoint _ (List.mem_map_of_mem hp) _ List.mem_cons_self
  · exact (List.nodup_cons.mp htail).1 (List.mem_map.mpr ⟨p, hp, hk⟩)

/-- **Changing an entry** changes the total by the difference of the weights. -/
theorem total_modify (h : d.get? k = some w) (g : υ → υ) :
    (d.modify k g).total f + f k w = d.total f + f k (g w) := by
  obtain ⟨l, l', hentries, hl, hl'⟩ := exists_split h
  have hkeep : ∀ {l : List (κ × υ)}, (∀ p ∈ l, p.1 ≠ k) →
      (l.map fun p => if p.1 = k then (p.1, g p.2) else p) = l := fun hne =>
    (List.map_congr_left fun p hp => if_neg (hne p hp)).trans (List.map_id _)
  have hmodify : (d.modify k g).entries = l ++ (k, g w) :: l' := by
    show d.entries.map _ = _
    rw [hentries, List.map_append, List.map_cons, hkeep hl, hkeep hl', if_pos rfl]
  rw [total, total, hmodify, hentries]
  simp only [List.map_append, List.map_cons, List.sum_append, List.sum_cons]
  abel

/-- **Replacing an entry.** -/
theorem total_set (h : d.get? k = some w) :
    (d.set k v).total f + f k w = d.total f + f k v := by
  rw [set, dif_pos (mem_keys_of_get? h)]
  exact total_modify h _

/-- **Removing an entry.** -/
theorem total_erase (h : d.get? k = some w) : (d.erase k).total f + f k w = d.total f := by
  obtain ⟨l, l', hentries, hl, hl'⟩ := exists_split h
  have hkeep : ∀ {l : List (κ × υ)}, (∀ p ∈ l, p.1 ≠ k) →
      (l.filter fun p => p.1 ≠ k) = l := fun hne =>
    List.filter_eq_self.mpr fun p hp => decide_eq_true (hne p hp)
  have herase : (d.erase k).entries = l ++ l' := by
    show d.entries.filter _ = _
    rw [hentries, List.filter_append, List.filter_cons_of_neg (by simp), hkeep hl, hkeep hl']
  rw [total, total, herase, hentries]
  simp only [List.map_append, List.map_cons, List.sum_append, List.sum_cons]
  abel

lemma size_set_of_get?_eq_none (h : d.get? k = none) : (d.set k v).size = d.size + 1 := by
  rw [size_eq_total, size_eq_total, total_set_of_get?_eq_none h]

lemma size_set (h : d.get? k = some w) : (d.set k v).size = d.size := by
  have hsize := total_set (f := fun _ _ => 1) (v := v) h
  rw [size_eq_total, size_eq_total]
  omega

lemma size_erase (h : d.get? k = some w) : (d.erase k).size + 1 = d.size := by
  rw [size_eq_total, size_eq_total, ← total_erase h]

end Monoid

end Dict

end QuantumFoundation
