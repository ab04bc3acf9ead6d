import QuantumFoundation.Quantum.VectorSpace

/-!
# Adjoints

The conjugate transpose of an operator is its adjoint for the inner product.  The products of the
columns of an operator say all that `U† U` says: they fix what the operator makes of the norm of a
vector, and if they are those of the identity, the conjugate transpose undoes the operator on the
vectors over its columns.
-/

namespace QuantumFoundation

namespace LinearOperator

section Definitions

variable {R : Type*} [PyFloat R]

/-- The rows in which an entry stands. -/
def rows (A : LinearOperator R) : Finset String := (A.matrix.keys.map Prod.fst).toFinset

/-- The columns in which an entry stands. -/
def columns (A : LinearOperator R) : Finset String := (A.matrix.keys.map Prod.snd).toFinset

end Definitions

variable {R : Type*} [Field R] [LinearOrder R] [MathLibrary R]

/-- The product of two columns. -/
def gram (A : LinearOperator R) (i k : String) : PyComplex R :=
  ∑ j ∈ A.rows, star (A.matrix.coeff (j, i)) * A.matrix.coeff (j, k)

lemma coeff_of_notMem_rows {A : LinearOperator R} {i : String} (hi : i ∉ A.rows) (j : String) :
    A.matrix.coeff (i, j) = 0 := by
  refine Dict.coeff_of_notMem fun hmem => hi ?_
  exact List.mem_toFinset.mpr (List.mem_map_of_mem hmem)

lemma coeff_of_notMem_columns {A : LinearOperator R} {j : String} (hj : j ∉ A.columns)
    (i : String) : A.matrix.coeff (i, j) = 0 := by
  refine Dict.coeff_of_notMem fun hmem => hj ?_
  exact List.mem_toFinset.mpr (List.mem_map_of_mem hmem)

lemma supportedOn (A : LinearOperator R) : A.matrix.SupportedOn (A.rows ∪ A.columns) := by
  intro i j hne
  constructor
  · by_contra hi
    exact hne (coeff_of_notMem_rows (fun hmem => hi (Finset.mem_union_left _ hmem)) j)
  · by_contra hj
    exact hne (coeff_of_notMem_columns (fun hmem => hj (Finset.mem_union_right _ hmem)) i)

/-- The product of the columns may be summed over any labels that contain the rows. -/
lemma gram_eq_sum {A : LinearOperator R} {labels : Finset String} (h : A.rows ⊆ labels)
    (i k : String) :
    A.gram i k = ∑ j ∈ labels, star (A.matrix.coeff (j, i)) * A.matrix.coeff (j, k) := by
  refine Finset.sum_subset h fun j _ hj => ?_
  rw [coeff_of_notMem_rows hj, star_zero, zero_mul]

lemma gram_conj (A : LinearOperator R) (i k : String) : A.gram k i = star (A.gram i k) := by
  rw [gram, gram, star_sum]
  refine Finset.sum_congr rfl fun j _ => ?_
  rw [star_mul, star_star]

lemma gram_of_notMem {A : LinearOperator R} {i : String} (hi : i ∉ A.columns) (k : String) :
    A.gram i k = 0 := by
  refine Finset.sum_eq_zero fun j _ => ?_
  rw [coeff_of_notMem_columns hi, star_zero, zero_mul]

variable [IsStrictOrderedRing R] [ExactMathLibrary R]

/-! ### Applying -/

lemma get_apply_eq_sum (A : LinearOperator R) (v : ComplexVector R) (i : String) :
    (A.apply v).get i = ∑ j ∈ A.columns, A.matrix.coeff (i, j) * v.get j := by
  rw [get_apply A.supportedOn]
  refine (Finset.sum_subset Finset.subset_union_right fun j _ hj => ?_).symm
  rw [coeff_of_notMem_columns hj, zero_mul]

lemma get_apply_of_notMem_rows {A : LinearOperator R} {i : String} (hi : i ∉ A.rows)
    (v : ComplexVector R) : (A.apply v).get i = 0 := by
  rw [get_apply_eq_sum]
  refine Finset.sum_eq_zero fun j _ => ?_
  rw [coeff_of_notMem_rows hi, zero_mul]

lemma apply_mul (A : LinearOperator R) (v : ComplexVector R) (a : PyComplex R) :
    A.apply (v.mul a) ≈ (A.apply v).mul a := by
  intro i
  rw [get_apply_eq_sum, ComplexVector.get_mul, get_apply_eq_sum, Finset.mul_sum]
  refine Finset.sum_congr rfl fun j _ => ?_
  rw [ComplexVector.get_mul, mul_left_comm]

/-! ### The conjugate transpose -/

/-- The entries of the conjugate transpose, in the order of those of the operator: nothing becomes
negligible. -/
lemma entries_dagger (A : LinearOperator R) : A.dagger.matrix.entries
    = A.matrix.entries.map fun p => ((p.1.2, p.1.1), p.2.conjugate) := by
  have hraw := Dict.entries_ofList_map A.matrix (Equiv.prodComm String String)
    (PyComplex.conjugate (R := R))
  refine (List.filter_eq_self.mpr fun p hp => ?_).trans hraw
  obtain ⟨q, hq, rfl⟩ := List.mem_map.mp (hraw ▸ hp)
  have habs : q.2.conjugate.abs = q.2.abs := PyComplex.abs_star q.2
  dsimp only
  rw [habs]
  exact decide_eq_true (A.pruned q hq)

lemma dagger_dagger (A : LinearOperator R) : A.dagger.dagger.matrix = A.matrix := by
  apply Dict.ext
  rw [entries_dagger, entries_dagger, List.map_map]
  refine (List.map_congr_left fun p _ => ?_).trans (List.map_id _)
  exact congrArg (Prod.mk p.1) (star_star p.2)

lemma rows_dagger (A : LinearOperator R) : A.dagger.rows = A.columns := by
  rw [rows, columns, Dict.keys, entries_dagger, Dict.keys, List.map_map, List.map_map,
    List.map_map]
  rfl

lemma columns_dagger (A : LinearOperator R) : A.dagger.columns = A.rows := by
  rw [rows, columns, Dict.keys, entries_dagger, Dict.keys, List.map_map, List.map_map,
    List.map_map]
  rfl

lemma supportedOn_dagger (A : LinearOperator R) :
    A.dagger.matrix.SupportedOn (A.rows ∪ A.columns) := by
  have h := A.dagger.supportedOn
  rwa [rows_dagger, columns_dagger, Finset.union_comm] at h

/-- **The adjoint.**  The two sums over the rows and the columns are exchanged. -/
theorem inner_apply (O : SetOrder) (A : LinearOperator R) (u v : ComplexVector R) :
    u.inner O (A.apply v) = (A.dagger.apply u).inner O v := by
  have hrows : ∀ l ∉ A.rows, (A.apply v).get l = 0 := fun l hl => get_apply_of_notMem_rows hl v
  have hcolumns : ∀ l ∉ A.columns, (A.dagger.apply u).get l = 0 := fun l hl =>
    get_apply_of_notMem_rows (by rwa [rows_dagger]) u
  rw [ComplexVector.inner_eq_sum_right O hrows, ComplexVector.inner_eq_sum hcolumns]
  simp only [get_apply_eq_sum, columns_dagger, coeff_dagger, star_sum, Finset.mul_sum,
    Finset.sum_mul, star_mul, star_star]
  rw [Finset.sum_comm]
  refine Finset.sum_congr rfl fun j _ => Finset.sum_congr rfl fun i _ => ?_
  ring

/-- An operator and then its conjugate transpose multiply by the products of the columns. -/
lemma get_dagger_apply_apply (A : LinearOperator R) (v : ComplexVector R) (i : String) :
    (A.dagger.apply (A.apply v)).get i = ∑ k ∈ A.columns, A.gram i k * v.get k := by
  simp only [get_apply_eq_sum, columns_dagger, coeff_dagger, gram, Finset.mul_sum, Finset.sum_mul]
  rw [Finset.sum_comm]
  refine Finset.sum_congr rfl fun k _ => Finset.sum_congr rfl fun j _ => ?_
  ring

/-- The columns are orthonormal: `U† U` is the identity on them. -/
def Orthonormal (A : LinearOperator R) : Prop :=
  ∀ i ∈ A.columns, ∀ k ∈ A.columns, A.gram i k = if i = k then 1 else 0

/-- **Undoing.** -/
theorem Orthonormal.dagger_apply_apply {A : LinearOperator R} (h : A.Orthonormal)
    {v : ComplexVector R} (hv : ∀ l ∉ A.columns, v.get l = 0) :
    A.dagger.apply (A.apply v) ≈ v := by
  intro i
  rw [get_dagger_apply_apply]
  by_cases hi : i ∈ A.columns
  · rw [Finset.sum_eq_single_of_mem i hi fun k hk hne => ?_, h i hi i hi, if_pos rfl, one_mul]
    rw [h i hi k hk, if_neg (Ne.symm hne), zero_mul]
  · rw [hv i hi]
    exact Finset.sum_eq_zero fun k _ => by rw [gram_of_notMem hi, zero_mul]

end LinearOperator

end QuantumFoundation
