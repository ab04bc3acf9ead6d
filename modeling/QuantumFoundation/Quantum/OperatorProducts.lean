import QuantumFoundation.Quantum.Projections

/-!
# Products of operators

Composing two operators against applying them one after the other.  The constructor of an operator
drops the entries that are negligible, so the product of two operators acts as one after the other
does except for what those entries would have contributed.
-/

namespace QuantumFoundation

variable {R : Type*} [Field R] [LinearOrder R] [MathLibrary R]

/-! ### The equality of vectors -/

namespace ComplexVector

variable [IsStrictOrderedRing R] [ExactMathLibrary R]

/-- Vectors are equal for the runtime if no coefficients are further apart than the tolerance. -/
lemma eq_iff (O : SetOrder) (u v : ComplexVector R) :
    u.eq O v = true ↔ ∀ k, (u.get k - v.get k).abs ≤ 1e-12 := by
  rw [eq, List.all_eq_true]
  constructor
  · intro h k
    by_cases hk : k ∈ u.amplitudes.keys ++ v.amplitudes.keys
    · simpa only [Bool.not_eq_true', decide_eq_false_iff_not, gt_iff_lt, not_lt]
        using h k (SetOrder.mem_iter.mpr hk)
    · -- a label at which neither vector has an entry
      rw [List.mem_append, not_or] at hk
      rw [show u.get k = 0 from Dict.coeff_of_notMem hk.1,
        show v.get k = 0 from Dict.coeff_of_notMem hk.2, sub_self, PyComplex.abs_eq_zero.mpr rfl]
      show (0 : R) ≤ 1e-12
      norm_num
  · intro h k _
    simpa only [Bool.not_eq_true', decide_eq_false_iff_not, gt_iff_lt, not_lt] using h k

end ComplexVector

/-! ### The product -/

namespace LinearOperator

/-- What the negligible entries in the row `i` of the product would have contributed. -/
def dropped (A B : LinearOperator R) (v : ComplexVector R) (i : String) : PyComplex R :=
  ∑ k ∈ B.columns, if (A.product B i k).abs > 1e-12 then 0 else A.product B i k * v.get k

/-- **Multiplying.**  The product keeps what is not negligible. -/
theorem coeff_mul (A B : LinearOperator R) (i k : String) :
    (A.mul B).matrix.coeff (i, k)
      = if (A.product B i k).abs > 1e-12 then A.product B i k else 0 := by
  have hsum : A.product B i k
      = ∑ j ∈ A.rows ∪ A.columns, A.matrix.coeff (i, j) * B.matrix.coeff (j, k) := by
    refine Finset.sum_subset Finset.subset_union_right fun j _ hj => ?_
    rw [coeff_of_notMem_columns hj, zero_mul]
  rw [coeff_mul_eq A.supportedOn, ← hsum]

/-- Where the second factor has no column, the product has none. -/
lemma coeff_mul_of_notMem_columns {B : LinearOperator R} {k : String} (hk : k ∉ B.columns)
    (A : LinearOperator R) (i : String) : (A.mul B).matrix.coeff (i, k) = 0 := by
  have hzero : A.product B i k = 0 := Finset.sum_eq_zero fun j _ => by
    rw [coeff_of_notMem_columns hk, mul_zero]
  rw [coeff_mul, hzero, ite_self]

variable [IsStrictOrderedRing R] [ExactMathLibrary R]

lemma get_mul_apply (A B : LinearOperator R) (v : ComplexVector R) (i : String) :
    ((A.mul B).apply v).get i = ∑ k ∈ B.columns, (A.mul B).matrix.coeff (i, k) * v.get k := by
  have hcolumns : (A.mul B).columns ⊆ (A.mul B).columns ∪ B.columns := Finset.subset_union_left
  rw [get_apply_eq_sum, Finset.sum_subset hcolumns fun k _ hk => by
    rw [coeff_of_notMem_columns hk, zero_mul]]
  refine (Finset.sum_subset Finset.subset_union_right fun k _ hk => ?_).symm
  rw [coeff_mul_of_notMem_columns hk, zero_mul]

/-- **One operator after another** does what the product does, and what the product has dropped. -/
theorem get_apply_apply_eq (A B : LinearOperator R) (v : ComplexVector R) (i : String) :
    (A.apply (B.apply v)).get i = ((A.mul B).apply v).get i + A.dropped B v i := by
  rw [get_apply_apply, get_mul_apply, dropped, ← Finset.sum_add_distrib]
  refine Finset.sum_congr rfl fun k _ => ?_
  rw [coeff_mul]
  split
  · rw [add_zero]
  · rw [zero_mul, zero_add]

omit [IsStrictOrderedRing R] [ExactMathLibrary R] in
/-- If nothing but zeros is negligible, nothing is lost. -/
lemma dropped_eq_zero {A B : LinearOperator R}
    (h : ∀ i k, A.product B i k ≠ 0 → (A.product B i k).abs > 1e-12) (v : ComplexVector R)
    (i : String) : A.dropped B v i = 0 := by
  refine Finset.sum_eq_zero fun k _ => ?_
  split
  · rfl
  · next hnegligible => rw [not_not.mp fun hne => hnegligible (h i k hne), zero_mul]

/-- Then the two do exactly the same. -/
theorem mul_apply_equiv {A B : LinearOperator R}
    (h : ∀ i k, A.product B i k ≠ 0 → (A.product B i k).abs > 1e-12) (v : ComplexVector R) :
    (A.mul B).apply v ≈ A.apply (B.apply v) := fun i => by
  rw [get_apply_apply_eq, dropped_eq_zero h, add_zero]

/-- How far the two results are apart at a label. -/
lemma abs_sub_get_apply (A B : LinearOperator R) (v : ComplexVector R) (i : String) :
    (((A.mul B).apply v).get i - (A.apply (B.apply v)).get i).abs = (A.dropped B v i).abs := by
  refine PyComplex.abs_eq_of_born_eq ?_
  rw [get_apply_apply_eq]
  simp only [PyComplex.born_eq, sub_add_cancel_left, PyComplex.re_neg, PyComplex.im_neg,
    neg_mul_neg]

/-- **Composing against applying.**  The runtime finds the two results equal exactly if what was
dropped is within its tolerance at every label. -/
theorem mul_apply_eq_iff (O : SetOrder) (A B : LinearOperator R) (v : ComplexVector R) :
    ((A.mul B).apply v).eq O (A.apply (B.apply v)) = true ↔
      ∀ i, (A.dropped B v i).abs ≤ 1e-12 := by
  rw [ComplexVector.eq_iff]
  refine forall_congr' fun i => ?_
  rw [abs_sub_get_apply]

end LinearOperator

/-! ### On one basis state -/

/-- The matrix of the single entry `a`. -/
noncomputable def scale (a : ℝ) : Dict (String × String) (PyComplex ℝ) :=
  .ofList [(("0", "0"), .ofReal a)]

section Scale

variable {a : ℝ} (ha : a > 1e-12)

include ha

lemma entries_scale :
    (LinearOperator.new (scale a)).matrix.entries = [(("0", "0"), .ofReal a)] := by
  refine LinearOperator.entries_new_single ("0", "0") ?_
  rw [PyComplex.abs_ofReal]
  exact lt_of_lt_of_le ha (le_abs_self a)

lemma columns_scale : (LinearOperator.new (scale a)).columns = {"0"} := by
  rw [LinearOperator.columns, Dict.keys, entries_scale ha]
  rfl

lemma coeff_scale (k : String × String) : (LinearOperator.new (scale a)).matrix.coeff k
    = if k = ("0", "0") then .ofReal a else 0 := by
  split
  · next h => exact h ▸ Dict.coeff_of_mem (by rw [entries_scale ha]; exact List.mem_cons_self)
  · next h =>
    refine Dict.coeff_of_notMem fun hmem => h ?_
    rw [Dict.keys, entries_scale ha] at hmem
    exact List.mem_singleton.mp hmem

/-- Scaling twice. -/
lemma product_scale (i k : String) :
    (LinearOperator.new (scale a)).product (.new (scale a)) i k
      = if (i, k) = ("0", "0") then .ofReal (a * a) else 0 := by
  have hmul : (PyComplex.ofReal a : PyComplex ℝ) * .ofReal a = .ofReal (a * a) := by
    ext <;> simp [PyComplex.ofReal]
  rw [LinearOperator.product, columns_scale ha, Finset.sum_singleton, coeff_scale ha,
    coeff_scale ha, ← hmul]
  by_cases hi : i = "0" <;> by_cases hk : k = "0" <;> simp [hi, hk]

end Scale

/-- Nothing is dropped of the product of two operators that keep a basis state. -/
theorem mul_apply_eq_scale_one :
    ((LinearOperator.mul (.new (scale 1)) (.new (scale 1))).apply (basisVector "0")).eq
      .lastInsertion ((LinearOperator.new (scale 1)).apply
        ((LinearOperator.new (scale 1)).apply (basisVector "0"))) = true := by
  have hone : (1 : ℝ) > 1e-12 := by norm_num
  refine (LinearOperator.mul_apply_eq_iff .lastInsertion _ _ _).mpr fun i => ?_
  rw [LinearOperator.dropped_eq_zero fun i k hne => ?_, PyComplex.abs_eq_zero.mpr rfl]
  · show (0 : ℝ) ≤ 1e-12
    norm_num
  · rw [product_scale hone] at hne ⊢
    split at hne
    · rw [if_pos (by assumption), mul_one, PyComplex.abs_ofReal, abs_one]
      exact hone
    · exact absurd rfl hne

/-- Two operators that scale by a millionth: their product is the zero operator, and one after the
other they are not. -/
theorem mul_apply_ne : ¬ ∀ (A B : LinearOperator ℝ) (v : ComplexVector ℝ),
    ((A.mul B).apply v).eq .lastInsertion (A.apply (B.apply v)) = true := by
  intro h
  have hmillionth : (1e-6 : ℝ) > 1e-12 := by norm_num
  have hnear := (ComplexVector.eq_iff .lastInsertion _ _).mp (h (.new (scale 1e-6))
    (.new (scale 1e-6)) ((basisVector "0").mul (.ofReal 10))) "0"
  have hdropped : LinearOperator.dropped (.new (scale 1e-6)) (.new (scale 1e-6))
      ((basisVector "0").mul (.ofReal 10)) "0" = .ofReal 1e-11 := by
    rw [LinearOperator.dropped, columns_scale hmillionth, Finset.sum_singleton,
      product_scale hmillionth, if_pos rfl, PyComplex.abs_ofReal, if_neg, ComplexVector.get_mul,
      get_basisVector, if_pos rfl, mul_one]
    · ext <;> simp [PyComplex.ofReal]
      norm_num
    · rw [not_lt, abs_of_nonneg (by norm_num)]
      show (1e-6 * 1e-6 : ℝ) ≤ 1e-12
      norm_num
  rw [LinearOperator.abs_sub_get_apply, hdropped, PyComplex.abs_ofReal] at hnear
  have hlarge : (1e-12 : ℝ) < |1e-11| := by
    rw [abs_of_nonneg (by norm_num)]
    norm_num
  exact absurd hnear (not_le.mpr hlarge)

end QuantumFoundation
