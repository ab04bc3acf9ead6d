import QuantumFoundation.Quantum.Adjoint

/-!
# Sealed operators

The seal of the unitary operators accepts an operator exactly if the products of its columns differ
from those of the identity by the tolerance at most.  What it drops as negligible makes no
difference, and columns that do not occur are not looked at.
-/

namespace QuantumFoundation

variable {R : Type*} [Field R] [LinearOrder R] [MathLibrary R]

namespace LinearOperator

/-- The distance of the product of two columns from that of the identity. -/
def deviation (A : LinearOperator R) (i k : String) : PyComplex R :=
  A.gram i k - if i = k then 1 else 0

/-- The columns are orthonormal up to the tolerance. -/
def NearlyOrthonormal (A : LinearOperator R) : Prop :=
  ∀ i ∈ A.columns, ∀ k ∈ A.columns, (A.deviation i k).abs ≤ 1e-9

lemma gram_self (A : LinearOperator R) (i : String) :
    A.gram i i = .ofReal (∑ j ∈ A.rows, (A.matrix.coeff (j, i)).born) := by
  refine Eq.trans ?_ (map_sum PyComplex.ofRealHom _ A.rows).symm
  exact Finset.sum_congr rfl fun j _ => PyComplex.star_mul_self_eq _

lemma deviation_self (A : LinearOperator R) (i : String) :
    A.deviation i i = .ofReal ((∑ j ∈ A.rows, (A.matrix.coeff (j, i)).born) - 1) := by
  rw [deviation, if_pos rfl, gram_self]
  ext
  · rfl
  · exact sub_self 0

lemma deviation_of_ne (A : LinearOperator R) {i k : String} (h : i ≠ k) :
    A.deviation i k = A.gram i k := by
  rw [deviation, if_neg h, sub_zero]

lemma mem_columns_of_gram_ne {A : LinearOperator R} {i k : String} (h : A.gram i k ≠ 0) :
    i ∈ A.columns ∧ k ∈ A.columns := by
  constructor
  · exact not_not.mp fun hi => h (gram_of_notMem hi k)
  · refine not_not.mp fun hk => h ?_
    rw [gram_conj, gram_of_notMem hk, star_zero]

/-! ### The loops -/

lemma entryLoop_ok_iff {l : List ((String × String) × PyComplex R)} :
    entryLoop l = .ok () ↔
      ∀ p ∈ l, (p.2 - if p.1.1 = p.1.2 then 1 else 0).abs ≤ 1e-9 := by
  induction l with
  | nil => exact iff_of_true rfl fun p hp => absurd hp List.not_mem_nil
  | cons p l ih =>
    obtain ⟨⟨row, col⟩, val⟩ := p
    rw [List.forall_mem_cons, ← ih, entryLoop]
    by_cases hdiag : row = col
    · rw [if_pos hdiag, if_pos hdiag]
      split
      · next hfar => exact iff_of_false (by simp) fun h => absurd h.1 (not_le.mpr hfar)
      · next hnear => exact (and_iff_right (not_lt.mp hnear)).symm
    · rw [if_neg hdiag, if_neg hdiag, sub_zero]
      split
      · next hfar => exact iff_of_false (by simp) fun h => absurd h.1 (not_le.mpr hfar)
      · next hnear => exact (and_iff_right (not_lt.mp hnear)).symm

lemma coverageLoop_ok_iff {identityTest : LinearOperator R} {l : List String} :
    coverageLoop identityTest l = .ok () ↔
      ∀ basis ∈ l, (identityTest.matrix.coeff (basis, basis) - 1).abs ≤ 1e-9 := by
  induction l with
  | nil => exact iff_of_true rfl fun basis hbasis => absurd hbasis List.not_mem_nil
  | cons basis l ih =>
    rw [List.forall_mem_cons, ← ih, coverageLoop]
    split
    · next hfar => exact iff_of_false (by simp) fun h => absurd h.1 (not_le.mpr hfar)
    · next hnear => exact (and_iff_right (not_lt.mp hnear)).symm

/-! ### The seal -/

variable [IsStrictOrderedRing R] [ExactMathLibrary R]

/-- What an operator stores is not zero. -/
lemma ne_zero_of_mem {A : LinearOperator R} {p : (String × String) × PyComplex R}
    (hp : p ∈ A.matrix.entries) : p.2 ≠ 0 := by
  refine PyComplex.abs_pos.mp (lt_trans ?_ (A.pruned p hp))
  show (0 : R) < 1e-12
  norm_num

/-- What the seal computes of two columns: their product, or zero if it is negligible. -/
lemma coeff_dagger_mul_self (A : LinearOperator R) (i k : String) :
    (A.dagger.mul A).matrix.coeff (i, k)
      = if (A.gram i k).abs > 1e-12 then A.gram i k else 0 := by
  rw [coeff_mul_eq A.supportedOn_dagger,
    gram_eq_sum (Finset.subset_union_left : A.rows ⊆ A.rows ∪ A.columns)]
  simp only [coeff_dagger]

/-- A product that is far from zero on the diagonal is not negligible. -/
lemma not_negligible {A : LinearOperator R} {i : String} (h : (A.deviation i i).abs ≤ 1e-9) :
    (A.gram i i).abs > 1e-12 := by
  rw [deviation_self, PyComplex.abs_ofReal] at h
  rw [gram_self, PyComplex.abs_ofReal, gt_iff_lt]
  have hnear := (abs_le.mp h).1
  refine lt_of_lt_of_le ?_ (le_abs_self _)
  linarith [show (1e-12 : R) < 1 - 1e-9 by norm_num]

/-- **The seal.** -/
theorem sealUnitarityInvariant_iff (O : SetOrder) (A : LinearOperator R) :
    A.sealUnitarityInvariant O = .ok () ↔ A.NearlyOrthonormal := by
  have hcolumns : ∀ basis, basis ∈ O.iter (A.matrix.keys.map Prod.snd) ↔ basis ∈ A.columns :=
    fun basis => by rw [(O.perm _).mem_iff, List.mem_dedup, columns, List.mem_toFinset]
  have hseal : A.sealUnitarityInvariant O = .ok () ↔
      entryLoop (A.dagger.mul A).matrix.entries = .ok () ∧
        coverageLoop (A.dagger.mul A) (O.iter (A.matrix.keys.map Prod.snd)) = .ok () := by
    rw [sealUnitarityInvariant]
    split
    · next exc hraised => exact iff_of_false (by simp) fun h => by simp [hraised] at h
    · next hok => exact (and_iff_right hok).symm
  rw [hseal, entryLoop_ok_iff, coverageLoop_ok_iff]
  constructor
  · rintro ⟨hentries, hcoverage⟩ i hi k hk
    by_cases hnegligible : (A.gram i k).abs > 1e-12
    · have hcoeff := (A.coeff_dagger_mul_self i k).trans (if_pos hnegligible)
      have hne : (A.dagger.mul A).matrix.coeff (i, k) ≠ 0 := by
        rw [hcoeff]
        exact PyComplex.abs_pos.mp (lt_trans (show (0 : R) < 1e-12 by norm_num) hnegligible)
      have hentry := hentries _ (Dict.mem_entries_of_coeff_ne hne)
      rwa [hcoeff] at hentry
    · have hcoeff := (A.coeff_dagger_mul_self i k).trans (if_neg hnegligible)
      by_cases hik : i = k
      · -- a missing entry of the diagonal does not pass the loop over the columns
        subst hik
        have hmissing := hcoverage i ((hcolumns i).mpr hi)
        have hone : (0 - 1 : PyComplex R) = .ofReal (-1) :=
          PyComplex.ext (zero_sub 1) (sub_self 0)
        rw [hcoeff, hone, PyComplex.abs_ofReal, abs_neg, abs_one] at hmissing
        exact absurd hmissing (by norm_num)
      · rw [A.deviation_of_ne hik]
        exact (not_lt.mp hnegligible).trans (show (1e-12 : R) ≤ 1e-9 by norm_num)
  · intro h
    constructor
    · intro p hp
      have hcoeff := A.coeff_dagger_mul_self p.1.1 p.1.2
      rw [Dict.coeff_of_mem hp] at hcoeff
      split at hcoeff
      · next hkept =>
        rw [hcoeff]
        obtain ⟨hi, hk⟩ := mem_columns_of_gram_ne
          (PyComplex.abs_pos.mp (lt_trans (show (0 : R) < 1e-12 by norm_num) hkept))
        exact h _ hi _ hk
      · exact absurd hcoeff (ne_zero_of_mem hp)
    · intro basis hbasis
      have hi := (hcolumns basis).mp hbasis
      have hnear := h basis hi basis hi
      rw [coeff_dagger_mul_self, if_pos (not_negligible hnear)]
      rwa [deviation, if_pos rfl] at hnear

end LinearOperator

lemma UnitaryOperator.operator_of_new {O : SetOrder} {u : UnitaryOperator O R}
    {matrix : Dict (String × String) (PyComplex R)} (h : UnitaryOperator.new O matrix = .ok u) :
    u.toLinearOperator = .new matrix := by
  rw [UnitaryOperator.new] at h
  split at h
  · exact absurd h (by simp)
  · rw [← Except.ok.inj h]

/-- **The constructor** makes an operator of the matrices that pass. -/
theorem UnitaryOperator.exists_new_iff [IsStrictOrderedRing R] [ExactMathLibrary R] (O : SetOrder)
    (matrix : Dict (String × String) (PyComplex R)) :
    (∃ u, UnitaryOperator.new O matrix = .ok u ∧ u.toLinearOperator = .new matrix) ↔
      (LinearOperator.new matrix).NearlyOrthonormal := by
  rw [← LinearOperator.sealUnitarityInvariant_iff O]
  constructor
  · rintro ⟨u, -, hu⟩
    exact hu ▸ u.unitarity
  · intro hseal
    refine ⟨⟨.new matrix, hseal⟩, ?_, rfl⟩
    rw [UnitaryOperator.new]
    split
    · next hraised => exact absurd (hseal.symm.trans hraised) (by simp)
    · rfl

/-- Orthonormal columns pass. -/
lemma LinearOperator.Orthonormal.nearlyOrthonormal [IsStrictOrderedRing R] [ExactMathLibrary R]
    {A : LinearOperator R} (h : A.Orthonormal) : A.NearlyOrthonormal := by
  intro i hi k hk
  rw [LinearOperator.deviation, h i hi k hk, sub_self, PyComplex.abs_eq_zero.mpr rfl]
  norm_num

/-! ### The laws of the adjoint -/

/-- **The laws of the adjoint**, in exact arithmetic: `dagger` is the adjoint for the inner product
and undoes itself, and where the columns of a unitary operator are orthonormal it undoes the
operator on the vectors over them. -/
theorem adjoint_laws [IsStrictOrderedRing R] [ExactMathLibrary R] (O : SetOrder) :
    (∀ (A : LinearOperator R) (u v : ComplexVector R),
        u.inner O (A.apply v) = (A.dagger.apply u).inner O v) ∧
      (∀ A : LinearOperator R, A.dagger.dagger.matrix = A.matrix) ∧
      ∀ u : UnitaryOperator O R, u.toLinearOperator.Orthonormal →
        ∀ v : ComplexVector R, (∀ l ∉ u.columns, v.get l = 0) →
          u.dagger.apply (u.apply v) ≈ v :=
  ⟨LinearOperator.inner_apply O, LinearOperator.dagger_dagger, fun _ h _ hv =>
    h.dagger_apply_apply hv⟩

/-- The matrix that keeps one basis state, and has no other column. -/
noncomputable def keep (l : String) : Dict (String × String) (PyComplex ℝ) := .ofList [((l, l), 1)]

/-- An operator of one entry that is not negligible. -/
lemma LinearOperator.entries_new_single (k : String × String) {z : PyComplex ℝ}
    (hz : z.abs > 1e-12) : (LinearOperator.new (.ofList [(k, z)])).matrix.entries = [(k, z)] := by
  have hraw : (Dict.ofList [(k, z)]).entries = [(k, z)] :=
    Dict.entries_ofList (List.nodup_singleton _)
  refine Eq.trans ?_ hraw
  refine List.filter_eq_self.mpr fun p hp => decide_eq_true ?_
  rw [hraw] at hp
  rwa [List.mem_singleton.mp hp]

lemma entries_keep (l : String) :
    (LinearOperator.new (keep l)).matrix.entries = [((l, l), 1)] := by
  refine LinearOperator.entries_new_single (l, l) ?_
  rw [PyComplex.abs_one]
  show (1e-12 : ℝ) < 1
  norm_num

lemma rows_keep (l : String) : (LinearOperator.new (keep l)).rows = {l} := by
  rw [LinearOperator.rows, Dict.keys, entries_keep]
  rfl

lemma columns_keep (l : String) : (LinearOperator.new (keep l)).columns = {l} := by
  rw [LinearOperator.columns, Dict.keys, entries_keep]
  rfl

lemma coeff_keep (l : String) : (LinearOperator.new (keep l)).matrix.coeff (l, l) = 1 :=
  Dict.coeff_of_mem (by rw [entries_keep]; exact List.mem_cons_self)

lemma orthonormal_keep (l : String) : (LinearOperator.new (keep l)).Orthonormal := by
  rw [LinearOperator.Orthonormal, columns_keep]
  intro i hi k hk
  rw [Finset.mem_singleton.mp hi, Finset.mem_singleton.mp hk, if_pos rfl, LinearOperator.gram,
    rows_keep, Finset.sum_singleton, coeff_keep, star_one, mul_one]

lemma exists_keep (l : String) : ∃ u : UnitaryOperator .lastInsertion ℝ,
    UnitaryOperator.new .lastInsertion (keep l) = .ok u ∧ u.toLinearOperator = .new (keep l) :=
  (UnitaryOperator.exists_new_iff .lastInsertion (keep l)).mpr
    (orthonormal_keep l).nearlyOrthonormal

/-- The vector of one basis state. -/
noncomputable def basisVector (l : String) : ComplexVector ℝ := .new (.ofList [(l, 1)])

lemma get_basisVector (l k : String) : (basisVector l).get k = if k = l then 1 else 0 := by
  rw [basisVector, ComplexVector.get_new, Dict.ofList, List.foldl_cons, List.foldl_nil,
    Dict.coeff_set, Dict.coeff_empty]

/-- The conjugate transpose of the matrix undoes it on the basis state. -/
theorem adjoint_laws_keep :
    ∃ u : UnitaryOperator .lastInsertion ℝ, UnitaryOperator.new .lastInsertion (keep "0") = .ok u ∧
      u.dagger.apply (u.apply (basisVector "0")) ≈ basisVector "0" := by
  obtain ⟨u, hu, hoperator⟩ := exists_keep "0"
  refine ⟨u, hu, (adjoint_laws .lastInsertion).2.2 u (hoperator ▸ orthonormal_keep "0") _ ?_⟩
  intro l hl
  rw [hoperator, columns_keep, Finset.mem_singleton] at hl
  rw [get_basisVector, if_neg hl]

/-! ### Evolving -/

namespace LinearOperator

variable [IsStrictOrderedRing R] [ExactMathLibrary R]

omit [IsStrictOrderedRing R] [ExactMathLibrary R] in
/-- The probability that a vector has over the columns. -/
def retained (A : LinearOperator R) (v : ComplexVector R) : R :=
  ∑ l ∈ A.columns, (v.get l).born

omit [IsStrictOrderedRing R] [ExactMathLibrary R] in
/-- What the deviations from the identity add to it. -/
def distortion (A : LinearOperator R) (v : ComplexVector R) : R :=
  (∑ i ∈ A.columns, star (v.get i) * ∑ k ∈ A.columns, A.deviation i k * v.get k).re

/-- **The norm** after applying. -/
theorem squareNorm_apply_eq (A : LinearOperator R) (v : ComplexVector R) :
    (A.apply v).squareNorm = A.retained v + A.distortion v := by
  have hcolumns : ∀ l ∉ A.columns, (A.dagger.apply (A.apply v)).get l = 0 := fun l hl =>
    get_apply_of_notMem_rows (by rwa [rows_dagger]) _
  have hrow : ∀ i ∈ A.columns, ∑ k ∈ A.columns, A.gram i k * v.get k
      = v.get i + ∑ k ∈ A.columns, A.deviation i k * v.get k := by
    intro i hi
    have hidentity : ∑ k ∈ A.columns, (if i = k then (1 : PyComplex R) else 0) * v.get k
        = v.get i := by
      simp only [ite_mul, one_mul, zero_mul, Finset.sum_ite_eq, if_pos hi]
    rw [← hidentity, ← Finset.sum_add_distrib]
    refine Finset.sum_congr rfl fun k _ => ?_
    rw [deviation, sub_mul, add_sub_cancel]
  have hretained : A.retained v = (∑ i ∈ A.columns, star (v.get i) * v.get i).re := by
    rw [PyComplex.re_sum]
    exact Finset.sum_congr rfl fun i _ =>
      (congrArg PyComplex.re (PyComplex.star_mul_self_eq _)).symm
  rw [ComplexVector.squareNorm_eq_re .lastInsertion, inner_apply, ComplexVector.inner_conj,
    PyComplex.re_star, ComplexVector.inner_eq_sum_right _ hcolumns, hretained, distortion,
    ← PyComplex.re_add, ← Finset.sum_add_distrib]
  refine congrArg PyComplex.re (Finset.sum_congr rfl fun i hi => ?_)
  rw [get_dagger_apply_apply, hrow i hi, mul_add]

omit [IsStrictOrderedRing R] [ExactMathLibrary R] in
/-- Orthonormal columns keep what the vector has over them. -/
lemma Orthonormal.distortion_eq_zero {A : LinearOperator R} (h : A.Orthonormal)
    (v : ComplexVector R) : A.distortion v = 0 := by
  have hzero : ∑ i ∈ A.columns, star (v.get i) * ∑ k ∈ A.columns, A.deviation i k * v.get k
      = 0 := by
    refine Finset.sum_eq_zero fun i hi => ?_
    rw [Finset.sum_eq_zero fun k hk => ?_, mul_zero]
    rw [deviation, h i hi k hk, sub_self, zero_mul]
  rw [distortion, hzero]
  rfl

end LinearOperator

namespace UnitaryOperator

variable [IsStrictOrderedRing R] [ExactMathLibrary R] {O : SetOrder}

/-- The basis states are states. -/
lemma exists_basisState (l : String) : ∃ state : QuantumState .lastInsertion ℝ,
    QuantumState.fromDict .lastInsertion (.ofList [(l, 1)]) = .ok state ∧
      state.vector = basisVector l := by
  refine QuantumState.new_of_squareNorm .lastInsertion ?_
  have hout : ∀ k ∉ ({l} : Finset String), (basisVector l).get k = 0 := fun k hk => by
    rw [get_basisVector, if_neg (Finset.notMem_singleton.mp hk)]
  have hone : (basisVector l).squareNorm = 1 := by
    rw [ComplexVector.squareNorm_eq_sum hout, Finset.sum_singleton, get_basisVector, if_pos rfl]
    simp [PyComplex.born_eq]
  rw [basisVector] at hone
  rw [hone]
  exact (abs_sqrt_sub_one_le_iff zero_le_one (by norm_num) (by norm_num)).mpr (by norm_num)

/-- The amplitudes of a state over two labels. -/
noncomputable def threeFourAmplitudes : Dict String (PyComplex ℝ) :=
  .ofList [("0", .ofReal (3 / 5)), ("1", .ofReal (4 / 5))]

lemma get_threeFour (l : String) : (ComplexVector.new threeFourAmplitudes).get l
    = if l = "1" then .ofReal (4 / 5) else if l = "0" then .ofReal (3 / 5) else 0 := by
  rw [ComplexVector.get_new, threeFourAmplitudes, Dict.ofList, List.foldl_cons, List.foldl_cons,
    List.foldl_nil, Dict.coeff_set, Dict.coeff_set, Dict.coeff_empty]

/-- The state with these amplitudes. -/
lemma exists_threeFour : ∃ state : QuantumState .lastInsertion ℝ,
    QuantumState.fromDict .lastInsertion threeFourAmplitudes = .ok state ∧
      state.vector = .new threeFourAmplitudes := by
  refine QuantumState.new_of_squareNorm .lastInsertion ?_
  have hout : ∀ l ∉ ({"0", "1"} : Finset String),
      (ComplexVector.new threeFourAmplitudes).get l = 0 := by
    intro l hl
    rw [Finset.mem_insert, Finset.mem_singleton, not_or] at hl
    rw [get_threeFour, if_neg hl.2, if_neg hl.1]
  have hone : (ComplexVector.new threeFourAmplitudes).squareNorm = 1 := by
    rw [ComplexVector.squareNorm_eq_sum hout, Finset.sum_pair (by decide), get_threeFour,
      get_threeFour]
    simp only [reduceIte, PyComplex.born_ofReal, show ("0" : String) ≠ "1" by decide]
    norm_num
  rw [hone]
  exact (abs_sqrt_sub_one_le_iff zero_le_one (by norm_num) (by norm_num)).mpr (by norm_num)

/-- A state over the columns evolves, if they are orthonormal. -/
theorem evolve_of_orthonormal {u : UnitaryOperator O R} (h : u.Orthonormal)
    {state : QuantumState O R} (hstate : ∀ l ∉ u.columns, state.vector.get l = 0) :
    ∃ q, u.evolve state = .ok q ∧ q.vector.squareNorm = state.vector.squareNorm := by
  have hnorm : (u.apply state.vector).squareNorm = state.vector.squareNorm := by
    rw [LinearOperator.squareNorm_apply_eq, h.distortion_eq_zero, add_zero,
      ComplexVector.squareNorm_eq_sum hstate]
    rfl
  have hnear := state.abs_sqrt_sub_one_le
  rw [← hnorm] at hnear
  obtain ⟨q, hq, hvector⟩ := QuantumState.new_of_squareNorm O hnear
  exact ⟨q, hq, hvector ▸ hnorm⟩

end UnitaryOperator

end QuantumFoundation
