import Mathlib.Algebra.BigOperators.GroupWithZero.Finset
import Mathlib.LinearAlgebra.UnitaryGroup
import QuantumFoundation.Lib.Dict

/-!
# Sparse vectors and matrices

A dictionary of scalars stands for the function that is zero at the keys that are missing: a
vector if the keys are labels, a matrix if they are pairs of labels.  A loop over the entries that
adds to the values of another dictionary computes sums over the entries, and these are sums over
any finite set of labels that contains the support.
-/

open scoped Matrix

namespace QuantumFoundation

namespace Dict

variable {κ A B β : Type*} [DecidableEq κ]

/-! ### Coefficients -/

section Coefficients

variable [Zero A]

/-- The value under a key, zero if there is none. -/
def coeff (d : Dict κ A) (k : κ) : A := (d.get? k).getD 0

@[simp] lemma coeff_empty (k : κ) : (empty : Dict κ A).coeff k = 0 := rfl

lemma coeff_set (d : Dict κ A) (k j : κ) (a : A) :
    (d.set k a).coeff j = if j = k then a else d.coeff j := by
  rw [coeff, get?_set]
  split <;> rfl

lemma coeff_of_mem {d : Dict κ A} {k : κ} {a : A} (h : (k, a) ∈ d.entries) : d.coeff k = a := by
  rw [coeff, get?_eq_some.mpr h]
  rfl

lemma coeff_of_notMem {d : Dict κ A} {k : κ} (h : k ∉ d.keys) : d.coeff k = 0 := by
  rw [coeff, get?_eq_none.mpr h]
  rfl

lemma mem_keys_of_coeff_ne {d : Dict κ A} {k : κ} (h : d.coeff k ≠ 0) : k ∈ d.keys :=
  not_not.mp fun hk => h (coeff_of_notMem hk)

lemma mem_entries_of_coeff_ne {d : Dict κ A} {k : κ} (h : d.coeff k ≠ 0) :
    (k, d.coeff k) ∈ d.entries := by
  obtain ⟨a, ha⟩ := mem_keys.mp (mem_keys_of_coeff_ne h)
  rwa [coeff_of_mem ha]

/-- What is dropped counts as zero. -/
lemma coeff_filter_eq (d : Dict κ A) (p : κ × A → Bool) (k : κ) :
    (d.filter p).coeff k = if p (k, d.coeff k) then d.coeff k else 0 := by
  by_cases hk : k ∈ d.keys
  · obtain ⟨a, ha⟩ := mem_keys.mp hk
    rw [coeff_of_mem ha]
    split
    · next hpa => exact coeff_of_mem (List.mem_filter.mpr ⟨ha, hpa⟩)
    · next hpa =>
      refine coeff_of_notMem fun hmem => hpa ?_
      obtain ⟨b, hb⟩ := mem_keys.mp hmem
      obtain ⟨hb, hpb⟩ := List.mem_filter.mp hb
      rwa [← coeff_of_mem hb, coeff_of_mem ha] at hpb
  · rw [coeff_of_notMem hk, ite_self]
    refine coeff_of_notMem fun hmem => hk ?_
    obtain ⟨a, ha⟩ := mem_keys.mp hmem
    exact mem_keys.mpr ⟨a, (List.mem_filter.mp ha).1⟩

/-- An entry that is zero may be dropped. -/
lemma coeff_filter {d : Dict κ A} {p : κ × A → Bool} {k : κ}
    (hp : p (k, d.coeff k) = false → d.coeff k = 0) : (d.filter p).coeff k = d.coeff k := by
  rw [coeff_filter_eq]
  split
  · rfl
  · next h => exact (hp (Bool.eq_false_iff.mpr h)).symm

omit [DecidableEq κ] [Zero A] in
@[simp] lemma keys_ofKeys (d : Dict κ B) (f : κ → A) : (d.ofKeys f).keys = d.keys := by
  rw [keys, ofKeys, List.map_map]
  rfl

lemma coeff_ofKeys {d : Dict κ B} {f : κ → A} {k : κ} (hk : k ∈ d.keys) :
    (d.ofKeys f).coeff k = f k := by
  obtain ⟨b, hb⟩ := mem_keys.mp hk
  exact coeff_of_mem (List.mem_map_of_mem hb)

lemma coeff_mapValues [Zero B] {f : κ → A → B} (hf : ∀ k, f k 0 = 0) (d : Dict κ A) (k : κ) :
    (d.mapValues f).coeff k = f k (d.coeff k) := by
  rw [coeff, get?_mapValues, coeff]
  cases d.get? k with
  | none => exact (hf k).symm
  | some a => rfl

/-- A dictionary is fixed by its keys and its coefficients. -/
lemma eq_of_keys_eq {d d' : Dict κ A} (hkeys : d.keys = d'.keys)
    (h : ∀ k ∈ d.keys, d.coeff k = d'.coeff k) : d = d' := by
  have hentries : ∀ e : Dict κ A, e.entries = e.keys.map fun k => (k, e.coeff k) := fun e => by
    rw [keys, List.map_map]
    refine (List.map_id _).symm.trans (List.map_congr_left fun p hp => ?_)
    exact Prod.ext rfl (coeff_of_mem hp).symm
  apply Dict.ext
  rw [hentries d, hentries d', ← hkeys]
  exact List.map_congr_left fun k hk => Prod.ext rfl (h k hk)

end Coefficients

/-- **Accumulation.**  A loop of which each step adds to a coefficient adds their sum. -/
theorem coeff_foldl [AddMonoid A] {f : Dict κ A → β → Dict κ A} {g : β → A} {k : κ}
    (h : ∀ d b, (f d b).coeff k = d.coeff k + g b) (l : List β) (d : Dict κ A) :
    (l.foldl f d).coeff k = d.coeff k + (l.map g).sum := by
  induction l generalizing d with
  | nil => simp
  | cons b l ih => rw [List.foldl_cons, ih, h, List.map_cons, List.sum_cons, add_assoc]

/-- **Sums over the entries.**  What is summed over the entries, and vanishes at zero, may be
summed over any set that contains the support. -/
theorem sum_entries [Zero A] [AddCommMonoid B] {d : Dict κ A} {S : Finset κ}
    (hS : ∀ k ∉ S, d.coeff k = 0) {g : κ → A → B} (hg : ∀ k, g k 0 = 0) :
    (d.entries.map fun p => g p.1 p.2).sum = ∑ k ∈ S, g k (d.coeff k) := by
  have hkeys : (d.entries.map fun p => g p.1 p.2) = d.keys.map fun k => g k (d.coeff k) := by
    rw [keys, List.map_map]
    exact List.map_congr_left fun p hp => congrArg (g p.1) (coeff_of_mem hp).symm
  have hnodup : d.keys.Nodup := d.nodup
  rw [hkeys, ← List.sum_toFinset _ hnodup]
  refine Finset.sum_congr_of_eq_on_inter (fun k _ hk => ?_) (fun k _ hk => ?_) fun _ _ _ => rfl
  · rw [hS k hk, hg]
  · rw [coeff_of_notMem fun hmem => hk (List.mem_toFinset.mpr hmem), hg]

/-- **Sums over the common keys**, in any order: what vanishes where one of the two is zero may be
summed over any set that contains the support of the first one. -/
theorem sum_common {C : Type*} [Zero A] [Zero B] [AddCommMonoid C] {d : Dict κ A} {e : Dict κ B}
    {l : List κ} (hl : l.Perm (d.keys.filter fun k => e.contains k)) {S : Finset κ}
    (hS : ∀ k ∉ S, d.coeff k = 0) {g : A → B → C} (hg : ∀ b, g 0 b = 0) (hg' : ∀ a, g a 0 = 0) :
    (l.map fun k => g (d.coeff k) (e.coeff k)).sum = ∑ k ∈ S, g (d.coeff k) (e.coeff k) := by
  have hkeys : d.keys.Nodup := d.nodup
  have hnodup : (d.keys.filter fun k => e.contains k).Nodup := hkeys.filter _
  rw [(hl.map _).sum_eq, ← List.sum_toFinset _ hnodup]
  refine Finset.sum_congr_of_eq_on_inter (fun k _ hk => ?_) (fun k _ hk => ?_) fun _ _ _ => rfl
  · rw [hS k hk, hg]
  · -- one of the two does not have the key
    by_cases hd : k ∈ d.keys
    · rw [coeff_of_notMem fun he => hk <| List.mem_toFinset.mpr <|
        List.mem_filter.mpr ⟨hd, contains_eq_true.mpr he⟩, hg']
    · rw [coeff_of_notMem hd, hg]

/-- Summing over the entries at one key looks the key up. -/
lemma sum_entries_single [Zero A] [AddCommMonoid B] (d : Dict κ A) (k : κ) {g : A → B}
    (hg : g 0 = 0) : (d.entries.map fun p => if p.1 = k then g p.2 else 0).sum = g (d.coeff k) := by
  have hS : ∀ j ∉ insert k d.keys.toFinset, d.coeff j = 0 := fun j hj =>
    coeff_of_notMem fun hmem => hj (Finset.mem_insert_of_mem (List.mem_toFinset.mpr hmem))
  have hzero : ∀ j, (if j = k then g 0 else 0) = 0 := fun j => by rw [hg, ite_self]
  rw [sum_entries hS (g := fun j a => if j = k then g a else 0) hzero, Finset.sum_ite_eq',
    if_pos (Finset.mem_insert_self k _)]

omit [DecidableEq κ] in
/-- Assigning under other keys, in the order of the entries. -/
lemma entries_ofList_map {κ' : Type*} [DecidableEq κ'] (d : Dict κ A) (e : κ ≃ κ') (f : A → B) :
    (ofList (d.entries.map fun p => (e p.1, f p.2))).entries
      = d.entries.map fun p => (e p.1, f p.2) := by
  have hnodup := d.nodup.map e.injective
  refine entries_ofList ?_
  rw [List.map_map] at hnodup ⊢
  exact hnodup

/-- It moves the coefficients along. -/
lemma coeff_ofList_map [Zero A] [Zero B] {κ' : Type*} [DecidableEq κ'] (d : Dict κ A)
    (e : κ ≃ κ') {f : A → B} (hf : f 0 = 0) (k : κ') :
    (ofList (d.entries.map fun p => (e p.1, f p.2))).coeff k = f (d.coeff (e.symm k)) := by
  by_cases hk : e.symm k ∈ d.keys
  · obtain ⟨a, ha⟩ := mem_keys.mp hk
    rw [coeff_of_mem ha]
    refine coeff_of_mem ?_
    rw [entries_ofList_map]
    exact List.mem_map.mpr ⟨_, ha, by simp⟩
  · rw [coeff_of_notMem hk, hf]
    refine coeff_of_notMem fun hmem => hk ?_
    rw [mem_keys_ofList, List.map_map] at hmem
    obtain ⟨p, hp, rfl⟩ := List.mem_map.mp hmem
    exact mem_keys.mpr ⟨p.2, by simpa using hp⟩

/-! ### Vectors -/

section Vectors

variable {labels : Finset κ}

/-- The vector of the coefficients at the labels. -/
def toVec [Zero A] (labels : Finset κ) (d : Dict κ A) : labels → A := fun l => d.coeff l

/-- A dictionary whose keys are the labels is fixed by its vector. -/
lemma eq_of_toVec_eq [Zero A] {d d' : Dict κ A} (hkeys : d.keys = d'.keys)
    (hlabels : ∀ k ∈ d.keys, k ∈ labels) (h : d.toVec labels = d'.toVec labels) : d = d' :=
  eq_of_keys_eq hkeys fun k hk => congrFun h ⟨k, hlabels k hk⟩

end Vectors

/-! ### Matrices -/

section Matrices

variable {labels : Finset κ} {M N : Dict (κ × κ) A}

/-- All coefficients that are not zero stand at the labels. -/
def SupportedOn [Zero A] (labels : Finset κ) (M : Dict (κ × κ) A) : Prop :=
  ∀ i j, M.coeff (i, j) ≠ 0 → i ∈ labels ∧ j ∈ labels

/-- The matrix of the coefficients at the labels. -/
def toMatrix [Zero A] (labels : Finset κ) (M : Dict (κ × κ) A) : Matrix labels labels A :=
  Matrix.of fun i j => M.coeff (i, j)

variable [NonUnitalNonAssocSemiring A]

/-- Summing over the entries of a row, each times the coefficient of a vector at its column. -/
lemma sum_entries_row (h : M.SupportedOn labels) (v : κ → A) (i : κ) :
    (M.entries.map fun p => if p.1.1 = i then p.2 * v p.1.2 else 0).sum
      = ∑ j ∈ labels, M.coeff (i, j) * v j := by
  have hS : ∀ p ∉ insert i labels ×ˢ labels, M.coeff p = 0 := fun p hp => by
    by_contra hne
    obtain ⟨hrow, hcol⟩ := h p.1 p.2 hne
    exact hp (Finset.mem_product.mpr ⟨Finset.mem_insert_of_mem hrow, hcol⟩)
  have hzero : ∀ p : κ × κ, (if p.1 = i then (0 : A) * v p.2 else 0) = 0 := fun p => by
    rw [zero_mul, ite_self]
  rw [sum_entries hS (g := fun p a => if p.1 = i then a * v p.2 else 0) hzero,
    Finset.sum_product]
  -- only the row of `i` is left
  rw [Finset.sum_eq_single_of_mem i (Finset.mem_insert_self i labels) fun j _ hj =>
    Finset.sum_eq_zero fun c _ => if_neg hj]
  simp only [if_true]

/-- **The product with a vector**, at a label. -/
theorem mulVec_toMatrix (M : Dict (κ × κ) A) (v : κ → A) (i : labels) :
    (M.toMatrix labels).mulVec (fun j => v j) i = ∑ j ∈ labels, M.coeff (i.1, j) * v j :=
  Finset.sum_coe_sort labels fun j => M.coeff (i.1, j) * v j

/-- Outside the labels the sum over a row is zero. -/
lemma SupportedOn.sum_eq_zero (h : M.SupportedOn labels) (v : κ → A) {i : κ} (hi : i ∉ labels) :
    ∑ j ∈ labels, M.coeff (i, j) * v j = 0 := by
  refine Finset.sum_eq_zero fun j _ => ?_
  rw [not_not.mp fun hne => hi (h i j hne).1, zero_mul]

/-- **The product of two matrices**, as a sum over all pairs of entries that meet. -/
theorem sum_entries_mul (h : M.SupportedOn labels) (N : Dict (κ × κ) A) (i k : κ) :
    (M.entries.map fun p => (N.entries.map fun q =>
        if p.1.2 = q.1.1 ∧ (p.1.1, q.1.2) = (i, k) then p.2 * q.2 else 0).sum).sum
      = ∑ j ∈ labels, M.coeff (i, j) * N.coeff (j, k) := by
  rw [← sum_entries_row h]
  refine congrArg List.sum (List.map_congr_left fun p _ => ?_)
  rw [← sum_entries_single N (p.1.2, k) (g := fun a => if p.1.1 = i then p.2 * a else 0)
    (by rw [mul_zero, ite_self])]
  refine congrArg List.sum (List.map_congr_left fun q _ => ?_)
  by_cases hrow : p.1.1 = i
  · have hmeet : (p.1.2 = q.1.1 ∧ (p.1.1, q.1.2) = (i, k)) ↔ q.1 = (p.1.2, k) := by
      simp [Prod.ext_iff, hrow, eq_comm]
    simp only [hmeet, if_pos hrow]
  · rw [if_neg fun hmeet => hrow (Prod.mk.inj hmeet.2).1, if_neg hrow, ite_self]

end Matrices

end Dict

/-! ### Unitary matrices -/

section Unitary

variable {ι A : Type*} [Fintype ι] [DecidableEq ι] [CommRing A] [StarRing A]

/-- A unitary matrix keeps the product of a vector with itself. -/
lemma dotProduct_star_mulVec {U : Matrix ι ι A} (h : U ∈ Matrix.unitaryGroup ι A) (v : ι → A) :
    star (U.mulVec v) ⬝ᵥ U.mulVec v = star v ⬝ᵥ v := by
  rw [Matrix.star_mulVec, Matrix.dotProduct_mulVec, Matrix.vecMul_vecMul,
    ← Matrix.star_eq_conjTranspose, Matrix.mem_unitaryGroup_iff'.mp h, Matrix.vecMul_one]

/-- The columns of a unitary matrix are orthonormal. -/
lemma sum_star_mul_of_unitary {U : Matrix ι ι A} (h : U ∈ Matrix.unitaryGroup ι A) (i k : ι) :
    ∑ j, star (U j i) * U j k = if i = k then 1 else 0 := by
  have hentry := congrFun (congrFun (Matrix.mem_unitaryGroup_iff'.mp h) i) k
  rwa [Matrix.one_apply] at hentry

end Unitary

end QuantumFoundation
