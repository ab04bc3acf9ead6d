import Mathlib.Analysis.SpecialFunctions.Log.Base
import Mathlib.Analysis.SpecialFunctions.Trigonometric.Basic
import QuantumFoundation.Quantum.BasisStates

/-!
# Exact arithmetic

Libraries whose square roots are exact, of which the real numbers are one.  There the sum of the
probabilities of a state is the square of its norm, and its distance from one is the distance of
the norm from one, times the norm and one.
-/

namespace QuantumFoundation

/-- What the documentation says of `math.sqrt`, and of `math.hypot` and so of the absolute value of
a complex number, in exact arithmetic. -/
class ExactMathLibrary (R : Type*) [Field R] [LinearOrder R] [MathLibrary R] : Prop
    extends LawfulMathLibrary R where
  sqrt_nonneg : ∀ x : R, 0 ≤ MathLibrary.sqrt x
  sqrt_mul_self : ∀ x : R, 0 ≤ x → MathLibrary.sqrt x * MathLibrary.sqrt x = x
  hypot_nonneg : ∀ x y : R, 0 ≤ MathLibrary.hypot x y
  hypot_mul_self : ∀ x y : R, MathLibrary.hypot x y * MathLibrary.hypot x y = x * x + y * y

/-! ### The real numbers -/

/-- The functions of the libraries over the real numbers.  A seed stands for its own digest, and
what the programs print is left out. -/
noncomputable instance realLibrary : MathLibrary ℝ where
  sqrt := Real.sqrt
  log2 := Real.logb 2
  hypot x y := Real.sqrt (x * x + y * y)
  expI x := (Real.cos x, Real.sin x)
  digest64 seed _ := Fin.ofNat _ seed.toNat
  fixed _ _ := ""
  scientific2 _ := ""
  fixedComplex4 _ _ := ""
  str _ := ""
  strComplex _ _ := ""

instance : ExactMathLibrary ℝ where
  log2_one := Real.logb_one
  expI_unit x := by
    have h := Real.cos_sq_add_sin_sq x
    rwa [sq, sq] at h
  sqrt_nonneg := Real.sqrt_nonneg
  sqrt_mul_self _ := Real.mul_self_sqrt
  hypot_nonneg _ _ := Real.sqrt_nonneg _
  hypot_mul_self x y := Real.mul_self_sqrt (add_nonneg (mul_self_nonneg x) (mul_self_nonneg y))

/-! ### Norms -/

variable {R : Type*} [Field R] [LinearOrder R] [MathLibrary R]

lemma pySum_eq_sum (l : List R) : pySum l = l.sum := (List.sum_eq_foldl).symm

namespace PyComplex

variable [IsStrictOrderedRing R]

lemma born_nonneg (z : PyComplex R) : 0 ≤ z.born := by
  rw [born_eq]
  exact add_nonneg (mul_self_nonneg _) (mul_self_nonneg _)

end PyComplex

/-- A root is close to one exactly if what it is the root of lies between two squares. -/
lemma abs_sqrt_sub_one_le_iff [IsStrictOrderedRing R] [ExactMathLibrary R] {x ε : R} (hx : 0 ≤ x)
    (hε : 0 ≤ ε) (hε' : ε ≤ 1) :
    |PyFloat.sqrt x - 1| ≤ ε ↔ (1 - ε) ^ 2 ≤ x ∧ x ≤ (1 + ε) ^ 2 := by
  have hs : 0 ≤ PyFloat.sqrt x := ExactMathLibrary.sqrt_nonneg x
  have hself : PyFloat.sqrt x * PyFloat.sqrt x = x := ExactMathLibrary.sqrt_mul_self x hx
  have hlower : (1 - ε) ^ 2 ≤ x ↔ 1 - ε ≤ PyFloat.sqrt x := by
    rw [mul_self_le_mul_self_iff (sub_nonneg.mpr hε') hs, hself, sq]
  have hupper : x ≤ (1 + ε) ^ 2 ↔ PyFloat.sqrt x ≤ 1 + ε := by
    rw [mul_self_le_mul_self_iff hs (add_nonneg zero_le_one hε), hself, sq]
  rw [hlower, hupper, abs_le]
  constructor
  · rintro ⟨hl, hu⟩
    constructor <;> linarith
  · rintro ⟨hl, hu⟩
    constructor <;> linarith

lemma sqrt_one [IsStrictOrderedRing R] [ExactMathLibrary R] : PyFloat.sqrt (1 : R) = 1 := by
  rcases mul_self_eq_one_iff.mp (ExactMathLibrary.sqrt_mul_self (1 : R) zero_le_one) with h | h
  · exact h
  · have hnonneg := ExactMathLibrary.sqrt_nonneg (1 : R)
    rw [h] at hnonneg
    exact absurd hnonneg (by norm_num)

/-- The sum of the probabilities of amplitudes. -/
def totalProbability (amplitudes : List (Amplitude R)) : R :=
  (amplitudes.map Amplitude.probability).sum

lemma computeNorm_eq (amplitudes : List (Amplitude R)) :
    computeNorm amplitudes = PyFloat.sqrt (totalProbability amplitudes) := by
  rw [computeNorm, pySum_eq_sum]
  rfl

section Ordered

variable [IsStrictOrderedRing R]

lemma totalProbability_nonneg (amplitudes : List (Amplitude R)) :
    0 ≤ totalProbability amplitudes := by
  refine List.sum_nonneg fun p hp => ?_
  obtain ⟨a, -, rfl⟩ := List.mem_map.mp hp
  exact a.value.born_nonneg

variable [ExactMathLibrary R]

omit [IsStrictOrderedRing R] in
lemma computeNorm_nonneg (amplitudes : List (Amplitude R)) : 0 ≤ computeNorm amplitudes :=
  ExactMathLibrary.sqrt_nonneg _

/-- **The norm.**  Its square is the sum of the probabilities. -/
theorem computeNorm_mul_self (amplitudes : List (Amplitude R)) :
    computeNorm amplitudes * computeNorm amplitudes = totalProbability amplitudes := by
  rw [computeNorm_eq]
  exact ExactMathLibrary.sqrt_mul_self _ (totalProbability_nonneg amplitudes)

/-- The distance of the sum from one, by the distance of the norm from one. -/
lemma abs_totalProbability_sub_one (amplitudes : List (Amplitude R)) :
    |totalProbability amplitudes - 1|
      = |computeNorm amplitudes - 1| * (computeNorm amplitudes + 1) := by
  have hfactors : totalProbability amplitudes - 1
      = (computeNorm amplitudes - 1) * (computeNorm amplitudes + 1) := by
    rw [← computeNorm_mul_self]
    ring
  have hpos : 0 ≤ computeNorm amplitudes + 1 :=
    add_nonneg (computeNorm_nonneg amplitudes) zero_le_one
  rw [hfactors, abs_mul, abs_of_nonneg hpos]

/-- Amplitudes with the total probability one have the norm one. -/
lemma computeNorm_eq_one {amplitudes : List (Amplitude R)}
    (h : totalProbability amplitudes = 1) : computeNorm amplitudes = 1 := by
  rw [computeNorm_eq, h, sqrt_one]

/-- Amplitudes with the total probability one pass the check of the norm. -/
lemma norm_near_of_totalProbability {amplitudes : List (Amplitude R)}
    (h : totalProbability amplitudes = 1) : ¬PyFloat.abs (computeNorm amplitudes - 1) > 1e-10 := by
  rw [computeNorm_eq_one h, sub_self, gt_iff_lt, not_lt]
  show |(0 : R)| ≤ 1e-10
  norm_num

end Ordered

end QuantumFoundation
