import Mathlib.Algebra.Star.Basic
import Mathlib.LinearAlgebra.UnitaryGroup
import QuantumFoundation.Lib.SparseMatrix
import QuantumFoundation.Quantum.ExactArithmetic
import QuantumFoundation.Quantum.Hilbert

/-!
# The algebra of the vectors and the operators

In exact arithmetic the complex numbers of the programs are a commutative ring with the conjugate
as its star, and the absolute value vanishes at zero only.  What the loops over sparse vectors and
operators compute are then sums over the labels.
-/

namespace QuantumFoundation

variable {R : Type*} [Field R] [LinearOrder R] [MathLibrary R]

/-! ### Complex numbers -/

namespace PyComplex

omit [Field R] [LinearOrder R] [MathLibrary R] in
@[ext] lemma ext {z w : PyComplex R} (hre : z.re = w.re) (him : z.im = w.im) : z = w := by
  cases z
  cases w
  cases hre
  cases him
  rfl

instance : Zero (PyComplex R) := ⟨.ofReal 0⟩

instance : One (PyComplex R) := ⟨.ofReal 1⟩

instance : Neg (PyComplex R) := ⟨fun z => ⟨-z.re, -z.im⟩⟩

instance : Star (PyComplex R) := ⟨conjugate⟩

@[simp] lemma re_zero : (0 : PyComplex R).re = 0 := rfl

@[simp] lemma im_zero : (0 : PyComplex R).im = 0 := rfl

@[simp] lemma re_one : (1 : PyComplex R).re = 1 := rfl

@[simp] lemma im_one : (1 : PyComplex R).im = 0 := rfl

@[simp] lemma re_add (z w : PyComplex R) : (z + w).re = z.re + w.re := rfl

@[simp] lemma im_add (z w : PyComplex R) : (z + w).im = z.im + w.im := rfl

@[simp] lemma re_neg (z : PyComplex R) : (-z).re = -z.re := rfl

@[simp] lemma im_neg (z : PyComplex R) : (-z).im = -z.im := rfl

@[simp] lemma re_mul (z w : PyComplex R) : (z * w).re = z.re * w.re - z.im * w.im := rfl

@[simp] lemma im_mul (z w : PyComplex R) : (z * w).im = z.re * w.im + z.im * w.re := rfl

@[simp] lemma re_star (z : PyComplex R) : (star z).re = z.re := rfl

@[simp] lemma im_star (z : PyComplex R) : (star z).im = -z.im := rfl

instance : CommRing (PyComplex R) where
  add_assoc z w u := by ext <;> simp <;> ring
  zero_add z := by ext <;> simp
  add_zero z := by ext <;> simp
  add_comm z w := by ext <;> simp <;> ring
  nsmul := nsmulRec
  zsmul := zsmulRec
  neg_add_cancel z := by ext <;> simp
  sub_eq_add_neg z w := by ext <;> exact sub_eq_add_neg _ _
  left_distrib z w u := by ext <;> simp <;> ring
  right_distrib z w u := by ext <;> simp <;> ring
  zero_mul z := by ext <;> simp
  mul_zero z := by ext <;> simp
  mul_assoc z w u := by ext <;> simp <;> ring
  one_mul z := by ext <;> simp
  mul_one z := by ext <;> simp
  mul_comm z w := by ext <;> simp <;> ring

instance : StarRing (PyComplex R) where
  star_involutive z := by ext <;> simp
  star_mul z w := by ext <;> simp <;> ring
  star_add z w := by
    ext
    · rfl
    · exact neg_add _ _

/-- The real numbers among them. -/
def ofRealHom : R →+ PyComplex R where
  toFun := ofReal
  map_zero' := rfl
  map_add' x y := by ext <;> simp [ofReal]

/-- The real part. -/
def reHom : PyComplex R →+ R where
  toFun := re
  map_zero' := rfl
  map_add' _ _ := rfl

lemma re_sum {ι : Type*} (s : Finset ι) (f : ι → PyComplex R) :
    (∑ i ∈ s, f i).re = ∑ i ∈ s, (f i).re := map_sum reHom f s

/-- A complex number times its conjugate is real, and is what the Born rule computes. -/
lemma star_mul_self_eq (z : PyComplex R) : star z * z = .ofReal z.born := by
  ext
  · rw [born_eq]
    simp [ofReal]
  · simp [ofReal]
    ring

lemma born_ofReal (x : R) : (ofReal x).born = x ^ 2 := by
  rw [born_eq]
  simp only [ofReal]
  ring

@[simp] lemma born_zero : (0 : PyComplex R).born = 0 := by simp [born_eq]

variable [IsStrictOrderedRing R] [ExactMathLibrary R]

omit [IsStrictOrderedRing R] in
lemma abs_nonneg (z : PyComplex R) : 0 ≤ z.abs := ExactMathLibrary.hypot_nonneg _ _

omit [IsStrictOrderedRing R] in
lemma abs_mul_self (z : PyComplex R) : z.abs * z.abs = z.born := by
  rw [born_eq]
  exact ExactMathLibrary.hypot_mul_self _ _

lemma abs_eq_of_born_eq {z w : PyComplex R} (h : z.born = w.born) : z.abs = w.abs := by
  rw [← abs_mul_self, ← abs_mul_self] at h
  exact (mul_self_inj z.abs_nonneg w.abs_nonneg).mp h

lemma abs_eq_zero {z : PyComplex R} : z.abs = 0 ↔ z = 0 := by
  rw [← mul_self_eq_zero, abs_mul_self, born_eq, mul_self_add_mul_self_eq_zero]
  exact ⟨fun h => PyComplex.ext h.1 h.2, fun h => by rw [h]; exact ⟨rfl, rfl⟩⟩

lemma abs_pos {z : PyComplex R} : z.abs > 0 ↔ z ≠ 0 := by
  rw [gt_iff_lt, z.abs_nonneg.lt_iff_ne', ne_eq, abs_eq_zero]

lemma abs_star (z : PyComplex R) : (star z).abs = z.abs :=
  abs_eq_of_born_eq (by simp [born_eq])

lemma abs_ofReal (x : R) : (ofReal x).abs = |x| := by
  refine (mul_self_inj (ofReal x).abs_nonneg (by positivity)).mp ?_
  rw [abs_mul_self, born_eq, abs_mul_abs_self]
  simp [ofReal]

lemma abs_one : (1 : PyComplex R).abs = 1 :=
  (abs_ofReal 1).trans (abs_of_pos one_pos)

end PyComplex

/-! ### Vectors -/

namespace ComplexVector

/-- The sum of the squares of the absolute values. -/
def squareNorm (v : ComplexVector R) : R := (v.amplitudes.entries.map fun p => p.2.born).sum

/-- **The inner product** of a vector with itself, in whatever order the labels are visited. -/
theorem inner_self (O : SetOrder) (v : ComplexVector R) : v.inner O v = .ofReal v.squareNorm := by
  have hall : (v.amplitudes.keys.filter fun k => v.amplitudes.contains k) = v.amplitudes.keys :=
    List.filter_eq_self.mpr fun k hk => Dict.contains_eq_true.mpr hk
  have hperm : (O.iter v.amplitudes.keys).Perm v.amplitudes.keys := by
    have hnodup : v.amplitudes.keys.Nodup := v.amplitudes.nodup
    have h := O.perm v.amplitudes.keys
    rwa [hnodup.dedup] at h
  have hfold : v.inner O v
      = ((O.iter v.amplitudes.keys).map fun k => star (v.get k) * v.get k).sum := by
    rw [inner, hall, List.sum_eq_foldl, List.foldl_map]
    rfl
  have hreal : PyComplex.ofReal v.squareNorm
      = (v.amplitudes.entries.map fun p => PyComplex.ofReal p.2.born).sum := by
    rw [squareNorm]
    refine (map_list_sum PyComplex.ofRealHom _).trans ?_
    rw [List.map_map]
    rfl
  rw [hfold, (hperm.map _).sum_eq, hreal, Dict.keys, List.map_map]
  refine congrArg List.sum (List.map_congr_left fun p hp => ?_)
  have hget : v.get p.1 = p.2 := Dict.coeff_of_mem hp
  rw [Function.comp_apply, hget, PyComplex.star_mul_self_eq]

/-- In exact arithmetic the assertion of `norm` cannot fail. -/
lemma norm_eq [IsStrictOrderedRing R] (O : SetOrder) (v : ComplexVector R) :
    v.norm O = .ok (PyFloat.sqrt v.squareNorm) := by
  rw [norm, v.inner_self O]
  refine if_pos ?_
  show |(0 : R)| < 1e-12
  rw [abs_zero]
  norm_num

/-- The sum may be taken over any labels outside of which the vector is zero. -/
lemma squareNorm_eq_sum {v : ComplexVector R} {labels : Finset String}
    (h : ∀ l ∉ labels, v.get l = 0) : v.squareNorm = ∑ l ∈ labels, (v.get l).born :=
  Dict.sum_entries h (g := fun _ z => z.born) fun _ => PyComplex.born_zero

variable [IsStrictOrderedRing R] [ExactMathLibrary R]

/-- The constructor keeps the coefficients: it drops zeros only. -/
lemma get_new (amplitudes : Dict String (PyComplex R)) (k : String) :
    (new amplitudes).get k = amplitudes.coeff k := by
  refine Dict.coeff_filter fun hz => ?_
  by_contra hne
  rw [decide_eq_false_iff_not] at hz
  exact hz (PyComplex.abs_pos.mpr hne)

end ComplexVector

/-- **States.**  A vector whose norm is close to one is a state. -/
theorem QuantumState.new_of_squareNorm [IsStrictOrderedRing R] [ExactMathLibrary R] (O : SetOrder)
    {v : ComplexVector R} (h : |PyFloat.sqrt v.squareNorm - 1| ≤ 1e-9) :
    ∃ q, QuantumState.new O v = .ok q ∧ q.vector = v := by
  have hnorm := v.norm_eq O
  have hzero : ¬v.isZero = true := by
    intro hempty
    have hentries : v.amplitudes.entries = [] :=
      List.length_eq_zero_iff.mp (of_decide_eq_true hempty)
    have hsq : PyFloat.sqrt v.squareNorm * PyFloat.sqrt v.squareNorm = (0 : R) := by
      rw [ComplexVector.squareNorm, hentries]
      exact ExactMathLibrary.sqrt_mul_self 0 le_rfl
    rw [mul_self_eq_zero.mp hsq, zero_sub, abs_neg, abs_one] at h
    exact absurd h (by norm_num)
  have hnear : ¬PyFloat.abs (PyFloat.sqrt v.squareNorm - 1) > 1e-9 := not_lt.mpr h
  refine ⟨⟨v, Bool.eq_false_iff.mpr hzero, _, hnorm, hnear⟩, ?_, rfl⟩
  rw [QuantumState.new, dif_neg hzero]
  split
  · next hraised => exact absurd (hnorm.symm.trans hraised) (by simp)
  · next n hn =>
    obtain rfl := Except.ok.inj (hnorm.symm.trans hn)
    exact dif_neg hnear

/-- The norm of a state is close to one. -/
lemma QuantumState.abs_sqrt_sub_one_le [IsStrictOrderedRing R] {O : SetOrder}
    (q : QuantumState O R) : |PyFloat.sqrt q.vector.squareNorm - 1| ≤ 1e-9 := by
  obtain ⟨n, hn, hnear⟩ := q.norm_near
  rw [q.vector.norm_eq O] at hn
  rw [Except.ok.inj hn]
  exact not_lt.mp hnear

/-- The constructor of the states looks at the norm only. -/
lemma QuantumState.exists_new_iff [IsStrictOrderedRing R] [ExactMathLibrary R] (O : SetOrder)
    {v : ComplexVector R} :
    (∃ q, QuantumState.new O v = .ok q) ↔ |PyFloat.sqrt v.squareNorm - 1| ≤ 1e-9 := by
  constructor
  · rintro ⟨q, hq⟩
    rw [← vector_of_new hq]
    exact q.abs_sqrt_sub_one_le
  · intro h
    obtain ⟨q, hq, -⟩ := new_of_squareNorm O h
    exact ⟨q, hq⟩

/-! ### Operators -/

namespace LinearOperator

variable [IsStrictOrderedRing R] [ExactMathLibrary R]

omit [IsStrictOrderedRing R] [ExactMathLibrary R] in
/-- What is negligible counts as zero. -/
lemma coeff_new_eq (M : Dict (String × String) (PyComplex R)) (k : String × String) :
    (new M).matrix.coeff k = if (M.coeff k).abs > 1e-12 then M.coeff k else 0 := by
  refine (Dict.coeff_filter_eq M _ k).trans ?_
  simp only [decide_eq_true_eq]

omit [IsStrictOrderedRing R] [ExactMathLibrary R] in
/-- The constructor keeps what is not negligible. -/
lemma coeff_new {M : Dict (String × String) (PyComplex R)} {k : String × String}
    (h : M.coeff k ≠ 0 → (M.coeff k).abs > 1e-12) : (new M).matrix.coeff k = M.coeff k := by
  rw [coeff_new_eq]
  split
  · rfl
  · next hnegligible => exact (not_not.mp fun hne => hnegligible (h hne)).symm

/-- **Applying.**  Each coefficient of the result is the sum over the row. -/
theorem get_apply {A : LinearOperator R} {labels : Finset String}
    (h : A.matrix.SupportedOn labels) (v : ComplexVector R) (i : String) :
    (A.apply v).get i = ∑ j ∈ labels, A.matrix.coeff (i, j) * v.get j := by
  rw [apply, ComplexVector.get_new, ← Dict.sum_entries_row h]
  refine (Dict.coeff_foldl (fun d p => ?_) _ _).trans (zero_add _)
  dsimp only
  split
  · rw [Dict.coeff_set]
    by_cases hi : p.1.1 = i
    · rw [if_pos hi.symm, if_pos hi, hi]
      rfl
    · rw [if_neg (Ne.symm hi), if_neg hi, add_zero]
  · next hzero =>
    rw [PyComplex.abs_pos, not_not] at hzero
    rw [hzero, mul_zero, ite_self, add_zero]

/-- The conjugate transpose. -/
lemma coeff_dagger (A : LinearOperator R) (i j : String) :
    A.dagger.matrix.coeff (i, j) = star (A.matrix.coeff (j, i)) := by
  have hraw : (Dict.ofList (A.matrix.entries.map fun p => ((p.1.2, p.1.1), p.2.conjugate))).coeff
      (i, j) = star (A.matrix.coeff (j, i)) :=
    Dict.coeff_ofList_map A.matrix (Equiv.prodComm String String) (star_zero _) (i, j)
  rw [dagger, coeff_new, hraw]
  rw [hraw]
  intro hne
  rw [PyComplex.abs_star]
  refine A.pruned _ (Dict.mem_entries_of_coeff_ne fun hzero => hne ?_)
  rw [hzero, star_zero]

omit [IsStrictOrderedRing R] [ExactMathLibrary R] in
/-- **Multiplying.**  Each coefficient of the product is the sum over the labels that meet, and
zero if the sum is negligible. -/
theorem coeff_mul_eq {A : LinearOperator R} {labels : Finset String}
    (h : A.matrix.SupportedOn labels) (B : LinearOperator R) (i k : String) :
    (A.mul B).matrix.coeff (i, k)
      = if (∑ j ∈ labels, A.matrix.coeff (i, j) * B.matrix.coeff (j, k)).abs > 1e-12 then
          ∑ j ∈ labels, A.matrix.coeff (i, j) * B.matrix.coeff (j, k)
        else 0 := by
  have hraw : (A.matrix.entries.foldl (fun newMatrix p =>
      B.matrix.entries.foldl (fun newMatrix q =>
        if p.1.2 = q.1.1 then
          newMatrix.set (p.1.1, q.1.2)
            ((newMatrix.get? (p.1.1, q.1.2)).getD (.ofReal 0) + p.2 * q.2)
        else newMatrix) newMatrix) Dict.empty).coeff (i, k)
      = ∑ j ∈ labels, A.matrix.coeff (i, j) * B.matrix.coeff (j, k) := by
    rw [← Dict.sum_entries_mul h]
    refine (Dict.coeff_foldl (fun d p => Dict.coeff_foldl (fun d q => ?_) _ d) _ _).trans
      (zero_add _)
    split
    · next hmeet =>
      rw [Dict.coeff_set]
      by_cases hi : (p.1.1, q.1.2) = (i, k)
      · rw [if_pos hi.symm, if_pos ⟨hmeet, hi⟩, hi]
        rfl
      · rw [if_neg (Ne.symm hi), if_neg fun hboth => hi hboth.2, add_zero]
    · next hmeet => rw [if_neg fun hboth => hmeet hboth.1, add_zero]
  rw [mul, coeff_new_eq, hraw]

end LinearOperator

end QuantumFoundation
