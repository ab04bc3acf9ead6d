import Mathlib.Algebra.Order.BigOperators.Ring.Finset
import Mathlib.Data.Finsupp.SMul
import QuantumFoundation.Quantum.ComplexAlgebra

/-!
# The axioms of the vectors

The operations of `complex_vector.py` that the states do not need, and the axioms that its module
claims.  A vector stands for a function of the labels that vanishes at all but finitely many of
them, and each operation for one on such functions: the linear axioms are those of the functions.
-/

namespace QuantumFoundation

/-- What the vectors use of the arithmetic of floats besides `PyFloat`. -/
class PyReciprocal (R : Type*) where
  /-- `1.0 / x`, where `x` is not zero. -/
  reciprocal : R → R

/-- Exact arithmetic. -/
instance (priority := low) exactReciprocal {R : Type*} [Field R] : PyReciprocal R where
  reciprocal x := 1 / x

/-! ### The operations -/

namespace ComplexVector

section Operations

variable {R : Type*} [PyFloat R]

/-- `__eq__`. -/
def eq (O : SetOrder) (u v : ComplexVector R) : Bool :=
  (O.iter (u.amplitudes.keys ++ v.amplitudes.keys)).all fun k =>
    !decide ((u.get k - v.get k).abs > 1e-12)

/-- `__add__`. -/
def add (u v : ComplexVector R) : ComplexVector R :=
  .new (v.amplitudes.entries.foldl (fun newAmps p =>
    newAmps.set p.1 ((newAmps.get? p.1).getD (.ofReal 0) + p.2)) u.amplitudes)

/-- `__mul__` and `__rmul__`. -/
def mul (v : ComplexVector R) (scalar : PyComplex R) : ComplexVector R :=
  if scalar.abs == 0 then .new .empty else .new (v.amplitudes.mapValues fun _ z => z * scalar)

/-- `__sub__`. -/
def sub (u v : ComplexVector R) : ComplexVector R := u.add (v.mul (.ofReal (-1)))

/-- `normalized`. -/
def normalized [PyReciprocal R] (O : SetOrder) (v : ComplexVector R) :
    Except Raised (ComplexVector R) :=
  match v.norm O with
  | .error exc => .error exc
  | .ok n =>
    if n == 0 then .error ⟨.valueError, "The zero vector cannot be normalized."⟩
    else .ok (v.mul (.ofReal (PyReciprocal.reciprocal n)))

end Operations

variable {R : Type*} [Field R] [LinearOrder R] [MathLibrary R]

/-! ### The functions they stand for -/

/-- The function of the labels that the vector stands for. -/
noncomputable def toFinsupp (v : ComplexVector R) : String →₀ PyComplex R :=
  Finsupp.onFinset v.amplitudes.keys.toFinset v.get fun _ hk =>
    List.mem_toFinset.mpr (Dict.mem_keys_of_coeff_ne hk)

/-- Vectors are equivalent if they have the same coefficients.  Their entries may have different
orders. -/
instance : Setoid (ComplexVector R) where
  r u v := ∀ k, u.get k = v.get k
  iseqv := ⟨fun _ _ => rfl, fun h k => (h k).symm, fun h h' k => (h k).trans (h' k)⟩

lemma equiv_iff {u v : ComplexVector R} : u ≈ v ↔ u.toFinsupp = v.toFinsupp :=
  ⟨fun h => Finsupp.ext h, fun h k => DFunLike.congr_fun h k⟩

lemma get_of_notMem {v : ComplexVector R} {k : String} (hk : k ∉ v.amplitudes.keys.toFinset) :
    v.get k = 0 := Dict.coeff_of_notMem fun hmem => hk (List.mem_toFinset.mpr hmem)

variable [IsStrictOrderedRing R] [ExactMathLibrary R]

/-- What a vector stores is not zero. -/
lemma ne_zero_of_mem {v : ComplexVector R} {p : String × PyComplex R}
    (hp : p ∈ v.amplitudes.entries) : p.2 ≠ 0 := PyComplex.abs_pos.mp (v.pruned p hp)

lemma get_add (u v : ComplexVector R) (k : String) : (u.add v).get k = u.get k + v.get k := by
  rw [add, get_new]
  refine (Dict.coeff_foldl (g := fun p => if p.1 = k then p.2 else 0) (fun d p => ?_) _ _).trans
    (congrArg _ (Dict.sum_entries_single v.amplitudes k (g := id) rfl))
  rw [Dict.coeff_set]
  by_cases hk : p.1 = k
  · rw [if_pos hk.symm, if_pos hk, hk]
    rfl
  · rw [if_neg (Ne.symm hk), if_neg hk, add_zero]

lemma get_mul (v : ComplexVector R) (a : PyComplex R) (k : String) :
    (v.mul a).get k = a * v.get k := by
  rw [mul]
  split
  · next h =>
    have ha : a = 0 := PyComplex.abs_eq_zero.mp (of_decide_eq_true h)
    rw [get_new, Dict.coeff_empty, ha, zero_mul]
  · rw [get_new, mul_comm]
    exact Dict.coeff_mapValues (fun _ => zero_mul a) v.amplitudes k

lemma toFinsupp_add (u v : ComplexVector R) :
    (u.add v).toFinsupp = u.toFinsupp + v.toFinsupp := Finsupp.ext (get_add u v)

lemma toFinsupp_mul (v : ComplexVector R) (a : PyComplex R) :
    (v.mul a).toFinsupp = a • v.toFinsupp := Finsupp.ext (get_mul v a)

lemma toFinsupp_sub (u v : ComplexVector R) :
    (u.sub v).toFinsupp = u.toFinsupp - v.toFinsupp := by
  have hneg : (PyComplex.ofReal (-1) : PyComplex R) = -1 := by ext <;> simp [PyComplex.ofReal]
  rw [sub, toFinsupp_add, toFinsupp_mul, hneg, neg_one_smul, sub_eq_add_neg]

/-- The zero vector is the one that stands for zero. -/
lemma isZero_iff {v : ComplexVector R} : v.isZero = true ↔ v.toFinsupp = 0 := by
  rw [isZero, decide_eq_true_iff]
  constructor
  · intro hsize
    refine Finsupp.ext fun k => get_of_notMem ?_
    rw [Dict.keys, List.length_eq_zero_iff.mp hsize]
    exact Finset.notMem_empty k
  · intro hzero
    refine List.length_eq_zero_iff.mpr (List.eq_nil_iff_forall_not_mem.mpr fun p hp => ?_)
    have hp' : v.toFinsupp p.1 = p.2 := Dict.coeff_of_mem hp
    rw [hzero] at hp'
    exact ne_zero_of_mem hp hp'.symm

/-- Equivalent vectors are equal for the runtime. -/
lemma eq_of_equiv {u v : ComplexVector R} (h : u ≈ v) (O : SetOrder) : u.eq O v = true := by
  refine List.all_eq_true.mpr fun k _ => ?_
  have hzero : (u.get k - v.get k).abs = 0 := PyComplex.abs_eq_zero.mpr
    ((congrArg (· - v.get k) (h k)).trans (sub_self _))
  rw [hzero, Bool.not_eq_true', decide_eq_false_iff_not, gt_iff_lt, not_lt]
  show (0 : R) ≤ 1e-12
  norm_num

/-! ### The inner product -/

omit [IsStrictOrderedRing R] [ExactMathLibrary R] in
/-- **The inner product** is the sum over any labels outside of which the first vector is zero, in
whatever order the labels are visited. -/
theorem inner_eq_sum {u : ComplexVector R} {labels : Finset String}
    (h : ∀ l ∉ labels, u.get l = 0) (O : SetOrder) (v : ComplexVector R) :
    u.inner O v = ∑ l ∈ labels, star (u.get l) * v.get l := by
  have hperm : (O.iter (u.amplitudes.keys.filter fun k => v.amplitudes.contains k)).Perm
      (u.amplitudes.keys.filter fun k => v.amplitudes.contains k) := by
    have hkeys : u.amplitudes.keys.Nodup := u.amplitudes.nodup
    have hdedup := O.perm (u.amplitudes.keys.filter fun k => v.amplitudes.contains k)
    rwa [(hkeys.filter _).dedup] at hdedup
  have hfold : u.inner O v = ((O.iter (u.amplitudes.keys.filter fun k =>
      v.amplitudes.contains k)).map fun k => star (u.get k) * v.get k).sum := by
    rw [inner, List.sum_eq_foldl, List.foldl_map]
    rfl
  rw [hfold]
  exact Dict.sum_common hperm h (g := fun z w => star z * w) (fun _ => by rw [star_zero, zero_mul])
    fun _ => mul_zero _

variable (O : SetOrder)

omit [IsStrictOrderedRing R] [ExactMathLibrary R] in
/-- It is conjugate symmetric. -/
lemma inner_conj (u v : ComplexVector R) : v.inner O u = star (u.inner O v) := by
  have hu : ∀ l ∉ u.amplitudes.keys.toFinset ∪ v.amplitudes.keys.toFinset, u.get l = 0 :=
    fun l hl => get_of_notMem fun hmem => hl (Finset.mem_union_left _ hmem)
  have hv : ∀ l ∉ u.amplitudes.keys.toFinset ∪ v.amplitudes.keys.toFinset, v.get l = 0 :=
    fun l hl => get_of_notMem fun hmem => hl (Finset.mem_union_right _ hmem)
  rw [inner_eq_sum hu, inner_eq_sum hv, star_sum]
  refine Finset.sum_congr rfl fun l _ => ?_
  rw [star_mul, star_star]

omit [IsStrictOrderedRing R] [ExactMathLibrary R] in
/-- The sum may also be taken over labels outside of which the second vector is zero. -/
lemma inner_eq_sum_right {v : ComplexVector R} {labels : Finset String}
    (h : ∀ l ∉ labels, v.get l = 0) (u : ComplexVector R) :
    u.inner O v = ∑ l ∈ labels, star (u.get l) * v.get l := by
  rw [inner_conj, inner_eq_sum h, star_sum]
  refine Finset.sum_congr rfl fun l _ => ?_
  rw [star_mul, star_star]

lemma inner_add (u v w : ComplexVector R) :
    u.inner O (v.add w) = u.inner O v + u.inner O w := by
  have hu : ∀ l ∉ u.amplitudes.keys.toFinset, u.get l = 0 := fun _ => get_of_notMem
  rw [inner_eq_sum hu, inner_eq_sum hu, inner_eq_sum hu, ← Finset.sum_add_distrib]
  refine Finset.sum_congr rfl fun l _ => ?_
  rw [get_add, mul_add]

lemma inner_mul (u v : ComplexVector R) (a : PyComplex R) :
    u.inner O (v.mul a) = a * u.inner O v := by
  have hu : ∀ l ∉ u.amplitudes.keys.toFinset, u.get l = 0 := fun _ => get_of_notMem
  rw [inner_eq_sum hu, inner_eq_sum hu, Finset.mul_sum]
  refine Finset.sum_congr rfl fun l _ => ?_
  rw [get_mul, mul_left_comm]

lemma add_inner (u v w : ComplexVector R) :
    (u.add v).inner O w = u.inner O w + v.inner O w := by
  rw [inner_conj, inner_add, star_add, ← inner_conj, ← inner_conj]

lemma mul_inner (u v : ComplexVector R) (a : PyComplex R) :
    (u.mul a).inner O v = star a * u.inner O v := by
  rw [inner_conj, inner_mul, star_mul, ← inner_conj, mul_comm]

omit [IsStrictOrderedRing R] [ExactMathLibrary R] in
/-- The inner product sees the coefficients only. -/
lemma inner_congr {u u' v v' : ComplexVector R} (hu : u ≈ u') (hv : v ≈ v') :
    u.inner O v = u'.inner O v' := by
  have hout : ∀ l ∉ u.amplitudes.keys.toFinset, u.get l = 0 := fun _ => get_of_notMem
  have hout' : ∀ l ∉ u.amplitudes.keys.toFinset, u'.get l = 0 := fun l hl =>
    (hu l).symm.trans (hout l hl)
  rw [inner_eq_sum hout, inner_eq_sum hout']
  refine Finset.sum_congr rfl fun l _ => ?_
  rw [hu l, hv l]

/-! ### The norm -/

omit [ExactMathLibrary R] in
lemma squareNorm_nonneg (v : ComplexVector R) : 0 ≤ v.squareNorm := by
  refine List.sum_nonneg fun x hx => ?_
  obtain ⟨p, -, rfl⟩ := List.mem_map.mp hx
  exact p.2.born_nonneg

/-- It vanishes at the zero vector only. -/
lemma squareNorm_eq_zero {v : ComplexVector R} : v.squareNorm = 0 ↔ v.isZero = true := by
  rw [isZero_iff, squareNorm_eq_sum fun _ => get_of_notMem,
    Finset.sum_eq_zero_iff_of_nonneg fun l _ => (v.get l).born_nonneg]
  have hborn : ∀ z : PyComplex R, z.born = 0 ↔ z = 0 := fun z => by
    rw [← PyComplex.abs_mul_self, mul_self_eq_zero, PyComplex.abs_eq_zero]
  constructor
  · intro h
    refine Finsupp.ext fun k => ?_
    by_cases hk : k ∈ v.amplitudes.keys.toFinset
    · exact (hborn _).mp (h k hk)
    · exact get_of_notMem hk
  · intro h k _
    exact (hborn _).mpr (DFunLike.congr_fun h k)

omit [IsStrictOrderedRing R] [ExactMathLibrary R] in
lemma squareNorm_eq_re (v : ComplexVector R) : v.squareNorm = (v.inner O v).re := by
  rw [inner_self]
  rfl

/-- The square of the norm of a sum. -/
lemma squareNorm_add (u v : ComplexVector R) :
    (u.add v).squareNorm = u.squareNorm + 2 * (u.inner O v).re + v.squareNorm := by
  rw [squareNorm_eq_re O, squareNorm_eq_re O u, squareNorm_eq_re O v, inner_add, add_inner,
    add_inner, inner_conj O u v]
  simp only [PyComplex.re_add, PyComplex.re_star]
  ring

omit [ExactMathLibrary R] in
/-- **The inequality of Cauchy and Schwarz**, for the real part: that of the sums over the real and
the imaginary parts together. -/
theorem re_inner_sq_le (u v : ComplexVector R) :
    (u.inner O v).re ^ 2 ≤ u.squareNorm * v.squareNorm := by
  let labels := u.amplitudes.keys.toFinset ∪ v.amplitudes.keys.toFinset
  have hu : ∀ l ∉ labels, u.get l = 0 := fun l hl =>
    get_of_notMem fun hmem => hl (Finset.mem_union_left _ hmem)
  have hv : ∀ l ∉ labels, v.get l = 0 := fun l hl =>
    get_of_notMem fun hmem => hl (Finset.mem_union_right _ hmem)
  let parts : ComplexVector R → String ⊕ String → R := fun w =>
    Sum.elim (fun l => (w.get l).re) (fun l => (w.get l).im)
  have hborn : ∀ w : ComplexVector R, (∀ l ∉ labels, w.get l = 0) →
      w.squareNorm = ∑ x ∈ labels.disjSum labels, parts w x ^ 2 := fun w hw => by
    rw [squareNorm_eq_sum hw, Finset.sum_disjSum, ← Finset.sum_add_distrib]
    refine Finset.sum_congr rfl fun l _ => ?_
    rw [PyComplex.born_eq, sq, sq]
    rfl
  have hinner : (u.inner O v).re = ∑ x ∈ labels.disjSum labels, parts u x * parts v x := by
    rw [inner_eq_sum hu, PyComplex.re_sum, Finset.sum_disjSum, ← Finset.sum_add_distrib]
    refine Finset.sum_congr rfl fun l _ => ?_
    rw [PyComplex.re_mul, PyComplex.re_star, PyComplex.im_star, neg_mul, sub_neg_eq_add]
    rfl
  rw [hborn u hu, hborn v hv, hinner]
  exact Finset.sum_mul_sq_le_sq_mul_sq _ _ _

/-- **The triangle inequality.** -/
theorem sqrt_squareNorm_add_le (u v : ComplexVector R) :
    PyFloat.sqrt (u.add v).squareNorm
      ≤ PyFloat.sqrt u.squareNorm + PyFloat.sqrt v.squareNorm := by
  have hnonneg : ∀ w : ComplexVector R, 0 ≤ PyFloat.sqrt w.squareNorm := fun w =>
    ExactMathLibrary.sqrt_nonneg _
  have hself : ∀ w : ComplexVector R,
      PyFloat.sqrt w.squareNorm * PyFloat.sqrt w.squareNorm = w.squareNorm := fun w =>
    ExactMathLibrary.sqrt_mul_self _ w.squareNorm_nonneg
  have hcs : (u.inner .lastInsertion v).re
      ≤ PyFloat.sqrt u.squareNorm * PyFloat.sqrt v.squareNorm := by
    refine le_of_sq_le_sq ?_ (mul_nonneg (hnonneg u) (hnonneg v))
    refine (re_inner_sq_le .lastInsertion u v).trans_eq ?_
    rw [mul_pow, sq, sq, hself, hself]
  refine (mul_self_le_mul_self_iff (hnonneg _) (add_nonneg (hnonneg u) (hnonneg v))).mpr ?_
  calc PyFloat.sqrt (u.add v).squareNorm * PyFloat.sqrt (u.add v).squareNorm
      = u.squareNorm + 2 * (u.inner .lastInsertion v).re + v.squareNorm := by
        rw [hself, squareNorm_add .lastInsertion]
    _ ≤ u.squareNorm + 2 * (PyFloat.sqrt u.squareNorm * PyFloat.sqrt v.squareNorm)
          + v.squareNorm := by linarith
    _ = (PyFloat.sqrt u.squareNorm + PyFloat.sqrt v.squareNorm)
          * (PyFloat.sqrt u.squareNorm + PyFloat.sqrt v.squareNorm) := by
        linear_combination -(hself u) - hself v

lemma squareNorm_mul (v : ComplexVector R) (a : PyComplex R) :
    (v.mul a).squareNorm = a.born * v.squareNorm := by
  have hv : ∀ l ∉ v.amplitudes.keys.toFinset, v.get l = 0 := fun _ => get_of_notMem
  have hmul : ∀ l ∉ v.amplitudes.keys.toFinset, (v.mul a).get l = 0 := fun l hl => by
    rw [get_mul, hv l hl, mul_zero]
  rw [squareNorm_eq_sum hv, squareNorm_eq_sum hmul, Finset.mul_sum]
  refine Finset.sum_congr rfl fun l _ => ?_
  rw [get_mul, PyComplex.born_mul]

omit [IsStrictOrderedRing R] in
/-- What renormalising by the root of a probability does to the square of a norm. -/
lemma born_reciprocal_sqrt {p : R} (hpos : 0 < p) :
    (PyComplex.ofReal (PyReciprocal.reciprocal (PyFloat.sqrt p))).born = 1 / p := by
  have hself : PyFloat.sqrt p * PyFloat.sqrt p = p := ExactMathLibrary.sqrt_mul_self _ hpos.le
  have hsqrt : PyFloat.sqrt p ≠ 0 := fun hzero => by
    rw [hzero, mul_zero] at hself
    exact hpos.ne hself
  rw [PyComplex.born_eq]
  refine Eq.trans ?_ (congrArg (1 / ·) hself)
  show 1 / PyFloat.sqrt p * (1 / PyFloat.sqrt p) + 0 * 0 = 1 / (PyFloat.sqrt p * PyFloat.sqrt p)
  field_simp
  ring

/-! ### The axioms -/

/-- The axioms that the module of the vectors claims.  A sum that is said to be another one has the
same coefficients, and then the runtime finds the two equal. -/
structure Axioms (O : SetOrder) (R : Type*) [Field R] [LinearOrder R] [MathLibrary R] : Prop where
  eq_of_equiv : ∀ u v : ComplexVector R, u ≈ v → u.eq O v = true
  add_comm : ∀ u v : ComplexVector R, u.add v ≈ v.add u
  add_assoc : ∀ u v w : ComplexVector R, (u.add v).add w ≈ u.add (v.add w)
  add_mul : ∀ (u v : ComplexVector R) (a : PyComplex R), (u.add v).mul a ≈ (u.mul a).add (v.mul a)
  mul_add : ∀ (u : ComplexVector R) (a b : PyComplex R), u.mul (a + b) ≈ (u.mul a).add (u.mul b)
  sub_self : ∀ u : ComplexVector R, (u.sub u).isZero = true
  mul_zero : ∀ u : ComplexVector R, (u.mul (.ofReal 0)).isZero = true
  inner_conj : ∀ u v : ComplexVector R, v.inner O u = (u.inner O v).conjugate
  inner_add : ∀ u v w : ComplexVector R, u.inner O (v.add w) = u.inner O v + u.inner O w
  inner_mul : ∀ (u v : ComplexVector R) (a : PyComplex R), u.inner O (v.mul a) = a * u.inner O v
  add_inner : ∀ u v w : ComplexVector R, (u.add v).inner O w = u.inner O w + v.inner O w
  mul_inner : ∀ (u v : ComplexVector R) (a : PyComplex R),
    (u.mul a).inner O v = a.conjugate * u.inner O v
  inner_self_nonneg : ∀ u : ComplexVector R, (u.inner O u).im = 0 ∧ 0 ≤ (u.inner O u).re
  inner_self_eq_zero : ∀ u : ComplexVector R, u.inner O u = .ofReal 0 ↔ u.isZero = true
  norm_eq_zero : ∀ u : ComplexVector R, ∃ n, u.norm O = .ok n ∧ 0 ≤ n ∧ (n = 0 ↔ u.isZero = true)
  norm_add_le : ∀ u v : ComplexVector R, ∃ m n s, u.norm O = .ok m ∧ v.norm O = .ok n ∧
    (u.add v).norm O = .ok s ∧ s ≤ m + n
  ne_zero : ∀ (u : ComplexVector R), ∀ p ∈ u.amplitudes.entries, p.2 ≠ .ofReal 0

/-- **The axioms hold**, in exact arithmetic, of all vectors over any labels and of all complex
scalars. -/
theorem axioms : Axioms O R where
  eq_of_equiv u v h := eq_of_equiv h O
  add_comm u v := equiv_iff.mpr (by rw [toFinsupp_add, toFinsupp_add, add_comm])
  add_assoc u v w := equiv_iff.mpr (by simp only [toFinsupp_add, add_assoc])
  add_mul u v a := equiv_iff.mpr (by simp only [toFinsupp_add, toFinsupp_mul, smul_add])
  mul_add u a b := equiv_iff.mpr (by simp only [toFinsupp_add, toFinsupp_mul, add_smul])
  sub_self u := isZero_iff.mpr (by rw [toFinsupp_sub, sub_self])
  mul_zero u := isZero_iff.mpr ((u.toFinsupp_mul 0).trans (zero_smul _ _))
  inner_conj := inner_conj O
  inner_add := inner_add O
  inner_mul := inner_mul O
  add_inner := add_inner O
  mul_inner := mul_inner O
  inner_self_nonneg u := by
    rw [inner_self]
    exact ⟨rfl, u.squareNorm_nonneg⟩
  inner_self_eq_zero u := by
    rw [inner_self, ← squareNorm_eq_zero]
    exact ⟨congrArg PyComplex.re, congrArg PyComplex.ofReal⟩
  norm_eq_zero u := by
    have hself : PyFloat.sqrt u.squareNorm * PyFloat.sqrt u.squareNorm = u.squareNorm :=
      ExactMathLibrary.sqrt_mul_self _ u.squareNorm_nonneg
    refine ⟨_, u.norm_eq O, ExactMathLibrary.sqrt_nonneg _, ?_⟩
    rw [← squareNorm_eq_zero, ← mul_self_eq_zero, hself]
  norm_add_le u v :=
    ⟨_, _, _, u.norm_eq O, v.norm_eq O, (u.add v).norm_eq O, sqrt_squareNorm_add_le u v⟩
  ne_zero _ _ hp := ne_zero_of_mem hp

/-- Over the real numbers. -/
theorem axioms_real : Axioms .lastInsertion ℝ := axioms .lastInsertion

end ComplexVector

end QuantumFoundation
