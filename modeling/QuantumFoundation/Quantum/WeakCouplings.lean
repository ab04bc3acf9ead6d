import QuantumFoundation.Lib.Entropy
import QuantumFoundation.Quantum.WeakEntropy

/-!
# Which outcomes lose entropy

Boosting an outcome lowers the entropy for every coupling strength exactly if the surprisal of the
outcome is at most the entropy of the measured state; an outcome that is less probable than that
raises it for all small coupling strengths.  The probabilities that are too small to count for the
entropy enter through their sum.
-/

namespace QuantumFoundation

namespace WeakMeasurementPolicy

variable {R : Type*} [Field R] [LinearOrder R] [MathLibrary R] [IsStrictOrderedRing R]
  [ExactMathLibrary R] {w : WeakMeasurementPolicy R} {s t : StateVector R} {a : Amplitude R} {κ : R}

/-! ### What the others lose -/

/-- The probabilities of the other labels. -/
def rest (s : StateVector R) (a : Amplitude R) : List R :=
  (s.others a).map Amplitude.probability

omit [IsStrictOrderedRing R] [ExactMathLibrary R] in
/-- A sum over the probabilities, with the one of the outcome in front. -/
lemma sum_map_probabilities (ha : a ∈ s.amplitudes) (f : R → R) :
    (s.probabilities.map f).sum = ((a.probability :: rest s a).map f).sum := by
  have hsum := sum_single_out s.labels_nodup ha (fun b => f b.probability)
    fun b => f b.probability
  simp only [ite_self] at hsum
  rw [StateVector.probabilities, rest, List.map_cons, List.sum_cons, List.map_map, List.map_map]
  exact hsum

omit [ExactMathLibrary R] in
lemma rest_nonneg : ∀ q ∈ rest s a, 0 ≤ q := by
  intro q hq
  obtain ⟨b, -, rfl⟩ := List.mem_map.mp hq
  exact b.value.born_nonneg

section Normalised

variable (ha : a ∈ s.amplitudes) (hnorm : totalProbability s.amplitudes = 1)
include ha hnorm

omit [IsStrictOrderedRing R] [ExactMathLibrary R] in
lemma probability_add_rest : a.probability + (rest s a).sum = 1 := by
  rw [← hnorm, StateVector.totalProbability_eq_add ha]
  rfl

omit [ExactMathLibrary R] in
lemma probability_le_one : a.probability ≤ 1 := by
  have hrest : 0 ≤ (rest s a).sum := List.sum_nonneg rest_nonneg
  have htotal := probability_add_rest ha hnorm
  linarith

omit [IsStrictOrderedRing R] in
/-- The square of the norm that is divided out, beyond what the others keep. -/
lemma rawTotal_eq : w.rawTotal s a
    = (1 - w.alpha) ^ 2 + (2 * w.alpha * (1 - w.alpha) * a.value.abs + w.alpha ^ 2) := by
  have hsq : a.value.abs * a.value.abs = a.probability := a.value.abs_mul_self
  have htotal : totalProbability (s.others a) = 1 - a.value.abs * a.value.abs := by
    rw [hsq, ← probability_add_rest ha hnorm]
    exact (add_sub_cancel_left _ _).symm
  rw [rawTotal, boosted, htotal]
  ring

lemma raised_eq : w.raised s a = 1 - w.damping s a * (1 - a.probability) := by
  have hpos : 0 < w.rawTotal s a := lt_of_lt_of_le (by norm_num) (rawTotal_ge ha)
  have htotal : totalProbability (s.others a) = 1 - a.probability := by
    rw [← probability_add_rest ha hnorm]
    exact (add_sub_cancel_left _ _).symm
  have hboosted : w.boosted a ^ 2
      = w.rawTotal s a - (1 - w.alpha) ^ 2 * (1 - a.probability) := by
    rw [rawTotal, htotal]
    ring
  rw [raised, damping, hboosted]
  field_simp

/-- The others always lose something, -/
lemma damping_lt_one : w.damping s a < 1 := by
  have hpos : 0 < w.rawTotal s a := lt_of_lt_of_le (by norm_num) (rawTotal_ge ha)
  obtain ⟨hα, hα'⟩ := w.alpha_mem
  have hmixed : 0 ≤ 2 * w.alpha * (1 - w.alpha) * a.value.abs :=
    mul_nonneg (mul_nonneg (by linarith) (by linarith)) a.value.abs_nonneg
  rw [damping, div_lt_one hpos, rawTotal_eq ha hnorm]
  linarith [pow_pos hα 2]

/-- but not much if the coupling strength is small. -/
lemma exists_damping_gt {δ : R} (hδ : 0 < δ) (hδ' : δ ≤ 1) :
    ∃ w : WeakMeasurementPolicy R, 1 - δ < w.damping s a := by
  let w : WeakMeasurementPolicy R := ⟨δ / 13, div_pos hδ (by norm_num), by linarith⟩
  refine ⟨w, ?_⟩
  have hge : 1 / 4 ≤ w.rawTotal s a := rawTotal_ge ha
  have hrawTotal : w.rawTotal s a
      = (1 - δ / 13) ^ 2 + (2 * (δ / 13) * (1 - δ / 13) * a.value.abs + (δ / 13) ^ 2) :=
    rawTotal_eq ha hnorm
  have habs : a.value.abs ≤ 1 := by
    have hsq : a.value.abs * a.value.abs = a.probability := a.value.abs_mul_self
    rw [← pow_le_one_iff_of_nonneg a.value.abs_nonneg two_ne_zero, sq, hsq]
    exact probability_le_one ha hnorm
  -- what is added to the norm is of the order of the coupling strength
  have hadded : 2 * (δ / 13) * (1 - δ / 13) * a.value.abs + (δ / 13) ^ 2 ≤ 3 * (δ / 13) := by
    have hmixed : (1 - δ / 13) * a.value.abs ≤ 1 :=
      mul_le_one₀ (by linarith) a.value.abs_nonneg habs
    have hlinear := mul_le_mul_of_nonneg_left hmixed (show 0 ≤ 2 * (δ / 13) by linarith)
    have hsquare := mul_le_mul_of_nonneg_left (show δ / 13 ≤ 1 by linarith)
      (show 0 ≤ δ / 13 by linarith)
    linarith
  show 1 - δ < (1 - δ / 13) ^ 2 / w.rawTotal s a
  rw [lt_div_iff₀ (by linarith)]
  have hshare := mul_le_mul_of_nonneg_left hge hδ.le
  linarith

end Normalised

/-! ### The entropies -/

omit [IsStrictOrderedRing R] [ExactMathLibrary R] in
lemma vonNeumannEntropy_eq_probabilities (s : StateVector R) :
    vonNeumannEntropy s = entropySum PyFloat.log2 1e-15 s.probabilities := by
  rw [vonNeumannEntropy_eq_sum, StateVector.asDict, List.map_map, entropySum,
    StateVector.probabilities, List.map_map]
  rfl

omit [IsStrictOrderedRing R] [ExactMathLibrary R] in
lemma vonNeumannEntropy_eq_entropySum (ha : a ∈ s.amplitudes) :
    vonNeumannEntropy s = entropySum PyFloat.log2 1e-15 (a.probability :: rest s a) :=
  (vonNeumannEntropy_eq_probabilities s).trans (sum_map_probabilities ha _)

lemma vonNeumannEntropy_eq_boosted (ha : a ∈ s.amplitudes)
    (hnorm : totalProbability s.amplitudes = 1) (ht : t.asDict = w.postAmplitudes s a) :
    vonNeumannEntropy t = entropySum PyFloat.log2 1e-15
      ((1 - w.damping s a * (1 - a.probability)) :: (rest s a).map (w.damping s a * ·)) := by
  rw [vonNeumannEntropy_postState_eq_sum ha ht, raised_eq ha hnorm, entropySum_cons, entropySum,
    rest, List.map_map, List.map_map]
  rfl

omit [IsStrictOrderedRing R] [ExactMathLibrary R] in
/-- The outcome itself is not negligible. -/
lemma negligibleSum_probabilities (ha : a ∈ s.amplitudes) (hp : 1e-15 < a.probability) :
    negligibleSum 1e-15 s.probabilities = negligibleSum 1e-15 (rest s a) := by
  have hall := sum_map_probabilities ha id
  have hcounted := sum_map_probabilities ha (countedPart 1e-15)
  rw [List.map_id, List.map_id, List.sum_cons] at hall
  rw [List.map_cons, List.sum_cons, countedPart, if_pos hp] at hcounted
  rw [negligibleSum, negligibleSum, hall, hcounted]
  ring

section Surprisal

variable (hκ : IsLogarithm PyFloat.log2 κ) (ha : a ∈ s.amplitudes)
  (hnorm : totalProbability s.amplitudes = 1) (hp : 1e-15 < a.probability)
include hκ ha hnorm hp

/-- **Probable outcomes.**  If the surprisal is at most the entropy, no coupling strength raises the
entropy. -/
theorem vonNeumannEntropy_le_of_surprisal_le (hle : -PyFloat.log2 a.probability
      ≤ vonNeumannEntropy s + κ * negligibleSum 1e-15 s.probabilities)
    (ht : t.asDict = w.postAmplitudes s a) : vonNeumannEntropy t ≤ vonNeumannEntropy s := by
  have hpos : 0 < w.rawTotal s a := lt_of_lt_of_le (by norm_num) (rawTotal_ge ha)
  have hdamping : 0 ≤ w.damping s a := div_nonneg (sq_nonneg _) hpos.le
  have hlt := damping_lt_one (w := w) ha hnorm
  have hboosted := entropySum_boosted_le hκ (by norm_num) hp rest_nonneg
    (probability_add_rest ha hnorm) hdamping hlt.le
  rw [negligibleSum_probabilities ha hp, vonNeumannEntropy_eq_entropySum ha] at hle
  rw [vonNeumannEntropy_eq_boosted ha hnorm ht, vonNeumannEntropy_eq_entropySum ha]
  refine hboosted.trans (add_le_of_nonpos_right ?_)
  exact mul_nonpos_of_nonneg_of_nonpos (sub_nonneg.mpr hlt.le) (by linarith)

/-- **Improbable outcomes.**  If the surprisal exceeds the entropy, some coupling strength raises
the entropy. -/
theorem exists_vonNeumannEntropy_lt (hlt : vonNeumannEntropy s
      + κ * negligibleSum 1e-15 s.probabilities < -PyFloat.log2 a.probability) :
    ∃ w : WeakMeasurementPolicy R, ∀ t : StateVector R, t.asDict = w.postAmplitudes s a →
      vonNeumannEntropy s < vonNeumannEntropy t := by
  rw [negligibleSum_probabilities ha hp, vonNeumannEntropy_eq_entropySum ha] at hlt
  obtain ⟨δ, hδ, hδ', hrises⟩ := exists_lt_entropySum_boosted hκ (by norm_num) hp rest_nonneg
    (probability_add_rest ha hnorm) hlt
  obtain ⟨w, hnear⟩ := exists_damping_gt ha hnorm hδ hδ'
  refine ⟨w, fun t ht => ?_⟩
  rw [vonNeumannEntropy_eq_boosted ha hnorm ht, vonNeumannEntropy_eq_entropySum ha]
  exact hrises _ hnear (damping_lt_one ha hnorm)

/-- **All coupling strengths.**  Entropy is lost with every one exactly if the seed fits, no label
is empty, and the surprisal of the outcome is at most the entropy. -/
theorem forall_losesEntropy_iff {seed : ℤ} (hfalls : s.FallsOn seed a) :
    (∀ w : WeakMeasurementPolicy R, w.LosesEntropy s seed) ↔
      Fits64 seed ∧ "" ∉ s.amplitudes.map (·.basisLabel) ∧ -PyFloat.log2 a.probability
        ≤ vonNeumannEntropy s + κ * negligibleSum 1e-15 s.probabilities := by
  have : LogarithmLaw R := ⟨hκ.map_mul⟩
  constructor
  · intro h
    obtain ⟨hseed, hempty, -⟩ := (losesEntropy_iff ⟨1, one_pos, le_rfl⟩ s seed).mp (h _)
    refine ⟨hseed, hempty, not_lt.mp fun hlt => ?_⟩
    obtain ⟨w, hrises⟩ := exists_vonNeumannEntropy_lt hκ ha hnorm hp hlt
    obtain ⟨result, hmeasure, -, hle, -⟩ := h w
    rcases measure_cases (w := w) hseed hfalls with ⟨-, exc, hraised⟩ | ⟨result', -, hok, hpost, -⟩
    · exact absurd (hraised.symm.trans hmeasure) (by simp)
    · obtain rfl := Except.ok.inj (hok.symm.trans hmeasure)
      exact absurd (hrises _ hpost) (not_lt.mpr hle)
  · rintro ⟨hseed, hempty, hle⟩ w
    have hprobability : a.probability ≤ 1 + 1e-10 :=
      (probability_le_one ha hnorm).trans (by norm_num)
    rcases measure_cases (w := w) hseed hfalls with ⟨hrefused, -⟩ | ⟨result, -, -, hpost, -⟩
    · exact absurd ⟨hempty, hprobability⟩ hrefused
    · have hfalls' := vonNeumannEntropy_le_of_surprisal_le hκ ha hnorm hp hle hpost
      exact (losesEntropy_iff w s seed).mpr ⟨hseed, hempty, a, hfalls, hprobability,
        (vonNeumannEntropy_le_iff ha hpost).mp hfalls'⟩

end Surprisal

/-- **Information is lost** with one coupling strength exactly if the seed fits, no label is empty,
the outcome is not too probable, and the measured state has the entropy that boosting the outcome
needs; and, if the probabilities of the state sum to one and the outcome counts for the entropy,
with every coupling strength exactly if the surprisal of the outcome is at most the entropy. -/
theorem loses_entropy_iff (hκ : IsLogarithm PyFloat.log2 κ) (s : StateVector R) (seed : ℤ) :
    (∀ w : WeakMeasurementPolicy R, w.LosesEntropy s seed ↔
        Fits64 seed ∧ "" ∉ s.amplitudes.map (·.basisLabel) ∧
          ∃ a, s.FallsOn seed a ∧ a.probability ≤ 1 + 1e-10 ∧ w.EntropyReaches s a) ∧
      (totalProbability s.amplitudes = 1 → ∀ a, s.FallsOn seed a → 1e-15 < a.probability →
        ((∀ w : WeakMeasurementPolicy R, w.LosesEntropy s seed) ↔
          Fits64 seed ∧ "" ∉ s.amplitudes.map (·.basisLabel) ∧ -PyFloat.log2 a.probability
            ≤ vonNeumannEntropy s + κ * negligibleSum 1e-15 s.probabilities)) := by
  have : LogarithmLaw R := ⟨hκ.map_mul⟩
  exact ⟨fun w => losesEntropy_iff w s seed, fun hnorm a hfalls hp =>
    forall_losesEntropy_iff hκ hfalls.mem hnorm hp hfalls⟩

lemma isLogarithm_logb : IsLogarithm (PyFloat.log2 : ℝ → ℝ) (1 / Real.log 2) where
  slope_pos := one_div_pos.mpr (Real.log_pos one_lt_two)
  map_mul _ _ hx hy := Real.logb_mul hx.ne' hy.ne'
  le_tangent x hx := by
    show Real.log x / Real.log 2 ≤ 1 / Real.log 2 * (x - 1)
    rw [div_eq_mul_one_div, mul_comm]
    exact mul_le_mul_of_nonneg_left (Real.log_le_sub_one_of_pos hx)
      (one_div_pos.mpr (Real.log_pos one_lt_two)).le

open ProjectiveMeasurementPolicy (threeFour)

lemma probabilities_threeFour : threeFour.probabilities = [9 / 25, 16 / 25] := by
  simp only [StateVector.probabilities, threeFour, List.map_cons, List.map_nil,
    Amplitude.probability_ofReal]
  norm_num

/-- The seed whose draw is three eighths. -/
lemma draw_threeFour : draw (6 * 16 ^ 15) threeFour.probabilities = 3 / 8 := by
  show (((6 * 16 ^ 15 : ℕ) % 16 ^ 16 : ℕ) : ℝ) / ((16 ^ 16 : ℕ) : ℝ) = 3 / 8
  norm_num

lemma fallsOn_threeFour : threeFour.FallsOn (6 * 16 ^ 15) ⟨"1", .ofReal (4 / 5)⟩ := by
  refine ⟨1, rfl, (fallsAt_iff threeFour.probability_nonneg ?_).mpr ?_⟩
  · rw [draw_threeFour]
    norm_num
  · rw [draw_threeFour, probabilities_threeFour]
    norm_num

/-- The surprisal of the more probable one of two outcomes is less than the entropy. -/
lemma surprisal_threeFour : -PyFloat.log2 (16 / 25 : ℝ)
    ≤ vonNeumannEntropy threeFour
      + 1 / Real.log 2 * negligibleSum 1e-15 threeFour.probabilities := by
  have hentropy : vonNeumannEntropy threeFour
      = -(9 / 25 * Real.logb 2 (9 / 25)) + -(16 / 25 * Real.logb 2 (16 / 25)) := by
    rw [vonNeumannEntropy_eq_probabilities, probabilities_threeFour, entropySum_cons,
      entropySum_cons, entropyPart_of_lt (by norm_num), entropyPart_of_lt (by norm_num)]
    exact congrArg (_ + ·) (add_zero _)
  have hnegligible : negligibleSum 1e-15 threeFour.probabilities = 0 := by
    rw [negligibleSum, probabilities_threeFour]
    norm_num [countedPart]
  have hlog : Real.logb 2 (9 / 25) ≤ Real.logb 2 (16 / 25) :=
    Real.logb_le_logb_of_le one_lt_two (by norm_num) (by norm_num)
  have hsurprisal : PyFloat.log2 (16 / 25 : ℝ) = Real.logb 2 (16 / 25) := rfl
  rw [hentropy, hnegligible, hsurprisal]
  linarith

/-- The more probable one of two outcomes loses entropy. -/
theorem threeFour_loses_entropy :
    ∃ w : WeakMeasurementPolicy ℝ, new (1 / 4) = .ok w ∧
      w.LosesEntropy threeFour (6 * 16 ^ 15) := by
  have hprobability : (⟨"1", .ofReal (4 / 5)⟩ : Amplitude ℝ).probability = 16 / 25 := by
    rw [Amplitude.probability_ofReal]
    norm_num
  have hnorm : totalProbability threeFour.amplitudes = 1 := by
    show threeFour.probabilities.sum = 1
    rw [probabilities_threeFour]
    norm_num
  refine ⟨⟨1 / 4, by norm_num⟩, dif_pos (by norm_num), ?_⟩
  refine ((loses_entropy_iff isLogarithm_logb threeFour _).2 hnorm _ fallsOn_threeFour ?_).mpr
    ⟨by decide, by simp [threeFour], ?_⟩ _
  · rw [hprobability]
    norm_num
  · rw [hprobability]
    exact surprisal_threeFour

end WeakMeasurementPolicy

end QuantumFoundation
