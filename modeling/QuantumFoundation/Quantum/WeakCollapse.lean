import QuantumFoundation.Quantum.ComplexAlgebra
import QuantumFoundation.Quantum.Tolerance
import QuantumFoundation.Quantum.WeakMeasurement

/-!
# What a weak measurement leaves

In exact arithmetic a weak measurement boosts the selected amplitude, damps the others by one
factor, and divides by the norm, so the state that is left has the norm one.  What a policy returns
is known from the amplitudes that it leaves.  With the coupling strength one these are the ones that
the projective policy leaves, but for the phase of the selected amplitude.
-/

namespace QuantumFoundation

variable {R : Type*} [Field R] [LinearOrder R] [MathLibrary R]

/-! ### Sums over the labels -/

/-- A sum of which one summand is singled out by its key. -/
lemma sum_single_out {α κ M : Type*} [DecidableEq κ] [AddCommMonoid M] {key : α → κ}
    {l : List α} (hl : (l.map key).Nodup) {a : α} (ha : a ∈ l) (f g : α → M) :
    (l.map fun b => if key b = key a then f b else g b).sum
      = f a + ((l.filter fun b => decide (key b ≠ key a)).map g).sum := by
  induction l with
  | nil => exact absurd ha List.not_mem_nil
  | cons b l ih =>
    rw [List.map_cons, List.nodup_cons] at hl
    rw [List.map_cons, List.sum_cons]
    by_cases hlabel : key b = key a
    · -- the label does not occur again
      have hrest : ∀ b' ∈ l, key b' ≠ key a := fun b' hb' heq =>
        hl.1 (hlabel ▸ heq ▸ List.mem_map_of_mem hb')
      have hab : b = a := by
        rcases List.mem_cons.mp ha with rfl | hmem
        · rfl
        · exact absurd rfl (hrest a hmem)
      have hsum : (l.map fun b' => if key b' = key a then f b' else g b')
          = l.map g := List.map_congr_left fun b' hb' => if_neg (hrest b' hb')
      have hfilter : (l.filter fun b' => decide (key b' ≠ key a)) = l :=
        List.filter_eq_self.mpr fun b' hb' => decide_eq_true (hrest b' hb')
      rw [hsum, List.filter_cons_of_neg (by simpa using hlabel), hfilter, if_pos hlabel, hab]
    · have hmem : a ∈ l := (List.mem_cons.mp ha).resolve_left fun heq => hlabel (heq ▸ rfl)
      rw [ih hl.2 hmem, if_neg hlabel, List.filter_cons_of_pos (by simpa using hlabel),
        List.map_cons, List.sum_cons, add_left_comm]

lemma Amplitude.probability_ofReal (l : String) (x : R) :
    (⟨l, .ofReal x⟩ : Amplitude R).probability = x ^ 2 :=
  PyComplex.born_ofReal x

namespace StateVector

/-- The amplitudes of the other labels. -/
def others (s : StateVector R) (a : Amplitude R) : List (Amplitude R) :=
  s.amplitudes.filter fun b => decide (b.basisLabel ≠ a.basisLabel)

lemma totalProbability_eq_add {s : StateVector R} {a : Amplitude R} (ha : a ∈ s.amplitudes) :
    totalProbability s.amplitudes = a.probability + totalProbability (s.others a) := by
  refine Eq.trans ?_ (sum_single_out s.labels_nodup ha Amplitude.probability Amplitude.probability)
  simp only [ite_self]
  rfl

end StateVector

/-! ### The amplitudes -/

namespace WeakMeasurementPolicy

/-- What the magnitude of the selected amplitude is boosted to. -/
def boosted (w : WeakMeasurementPolicy R) (a : Amplitude R) : R :=
  a.value.abs + w.alpha * (1 - a.value.abs)

/-- The square of the norm that is divided out. -/
def rawTotal (w : WeakMeasurementPolicy R) (s : StateVector R) (a : Amplitude R) : R :=
  w.boosted a ^ 2 + (1 - w.alpha) ^ 2 * totalProbability (s.others a)

/-- The probability of the outcome in the state that is left. -/
def raised (w : WeakMeasurementPolicy R) (s : StateVector R) (a : Amplitude R) : R :=
  w.boosted a ^ 2 / w.rawTotal s a

/-- The factor by which the other probabilities are scaled. -/
def damping (w : WeakMeasurementPolicy R) (s : StateVector R) (a : Amplitude R) : R :=
  (1 - w.alpha) ^ 2 / w.rawTotal s a

/-- The amplitudes that are left if the label of the amplitude is selected. -/
def postAmplitudes (w : WeakMeasurementPolicy R) (s : StateVector R) (a : Amplitude R) :
    Dict String (PyComplex R) :=
  .ofList ((w.postAmpsRaw s a.basisLabel).entries.map fun p =>
    (p.1, PyQuotient.divReal p.2 (PyFloat.sqrt (w.rawTotal s a))))

variable {w : WeakMeasurementPolicy R} {s : StateVector R} {seed : ℤ} {a b : Amplitude R}

lemma entries_postAmpsRaw (label : String) : (w.postAmpsRaw s label).entries
    = s.amplitudes.map fun b => (b.basisLabel, w.nudged label b.basisLabel b.value) := by
  rw [postAmpsRaw, Dict.entries_ofList]
  · rw [StateVector.asDict, List.map_map]
    rfl
  · rw [List.map_map]
    exact s.asDict.nodup

lemma entries_postAmplitudes : (w.postAmplitudes s a).entries
    = s.amplitudes.map fun b => (b.basisLabel, PyQuotient.divReal
      (w.nudged a.basisLabel b.basisLabel b.value) (PyFloat.sqrt (w.rawTotal s a))) := by
  rw [postAmplitudes, Dict.entries_ofList]
  · rw [entries_postAmpsRaw, List.map_map]
    rfl
  · rw [List.map_map]
    exact (w.postAmpsRaw s a.basisLabel).nodup

lemma entries_postAmplitudes_ne : (w.postAmplitudes s a).entries ≠ [] := by
  rw [entries_postAmplitudes]
  exact List.map_eq_nil_iff.not.mpr s.amplitudes_ne

lemma keys_postAmplitudes :
    (w.postAmplitudes s a).keys = s.amplitudes.map (·.basisLabel) := by
  rw [Dict.keys, entries_postAmplitudes, List.map_map]
  rfl

lemma born_nudged_of_ne (h : b.basisLabel ≠ a.basisLabel) :
    (w.nudged a.basisLabel b.basisLabel b.value).born = (1 - w.alpha) ^ 2 * b.probability := by
  rw [nudged, if_neg h, PyComplex.born_mul, PyComplex.born_eq (.ofReal _), Amplitude.probability]
  simp only [PyComplex.ofReal]
  ring

lemma born_divReal (z : PyComplex R) (x : R) :
    (PyQuotient.divReal z x).born = z.born / (x * x) := by
  rw [PyComplex.born_eq, PyComplex.born_eq]
  show z.re / x * (z.re / x) + z.im / x * (z.im / x) = _
  rw [div_mul_div_comm, div_mul_div_comm, add_div]

variable [IsStrictOrderedRing R] [ExactMathLibrary R]

/-- The phase is kept, and has the absolute value one. -/
lemma born_nudged_self : (w.nudged a.basisLabel a.basisLabel a.value).born
    = w.boosted a ^ 2 := by
  have hphase : (if a.value.abs > 1e-15 then PyQuotient.divReal a.value a.value.abs
      else PyComplex.ofReal 1).born = 1 := by
    split
    · next hlarge =>
      have hpos : 0 < a.value.abs := lt_trans (show (0 : R) < 1e-15 by norm_num) hlarge
      rw [born_divReal, PyComplex.abs_mul_self, div_self]
      rw [← PyComplex.abs_mul_self]
      exact (mul_pos hpos hpos).ne'
    · rw [PyComplex.born_eq]
      simp [PyComplex.ofReal]
  rw [nudged, if_pos rfl, PyComplex.born_mul, PyComplex.born_eq (.ofReal _)]
  refine (congrArg (_ * ·) hphase).trans ?_
  simp only [PyComplex.ofReal, boosted]
  ring

/-- The squares of the absolute values before the division. -/
lemma sum_born_nudged (ha : a ∈ s.amplitudes) :
    (s.amplitudes.map fun b => (w.nudged a.basisLabel b.basisLabel b.value).born).sum
      = w.rawTotal s a := by
  have hsingle := sum_single_out s.labels_nodup ha (fun _ => w.boosted a ^ 2)
    fun b => (1 - w.alpha) ^ 2 * b.probability
  rw [List.sum_map_mul_left] at hsingle
  refine Eq.trans (congrArg List.sum (List.map_congr_left fun b hb => ?_)) hsingle
  by_cases hlabel : b.basisLabel = a.basisLabel
  · obtain rfl : b = a := List.inj_on_of_nodup_map s.labels_nodup hb ha hlabel
    rw [if_pos rfl, born_nudged_self]
  · rw [if_neg hlabel, born_nudged_of_ne hlabel]

/-- The norm is not close to zero. -/
lemma rawTotal_ge (ha : a ∈ s.amplitudes) : 1 / 4 ≤ w.rawTotal s a := by
  obtain ⟨hα, hα'⟩ := w.alpha_mem
  have habs := a.value.abs_nonneg
  have hsq : a.value.abs * a.value.abs = a.probability := a.value.abs_mul_self
  have htotal := StateVector.totalProbability_eq_add ha
  have hnorm : 1 / 2 ≤ totalProbability s.amplitudes := by
    have hnear := (abs_sqrt_sub_one_le_iff (totalProbability_nonneg s.amplitudes)
      (by norm_num : (0 : R) ≤ 1e-10) (by norm_num)).mp
      (computeNorm_eq s.amplitudes ▸ not_lt.mp s.norm_near)
    exact le_trans (by norm_num) hnear.1
  have hboosted : w.boosted a ^ 2 = (1 - w.alpha) ^ 2 * a.probability
      + 2 * w.alpha * (1 - w.alpha) * a.value.abs + w.alpha ^ 2 := by
    rw [← hsq, boosted]
    ring
  have hmixed : 0 ≤ 2 * w.alpha * (1 - w.alpha) * a.value.abs :=
    mul_nonneg (mul_nonneg (by linarith) (by linarith)) habs
  calc (1 / 4 : R) ≤ (1 - w.alpha) ^ 2 * (1 / 2) + w.alpha ^ 2 := by
        linarith [sq_nonneg (3 * w.alpha - 1)]
    _ ≤ (1 - w.alpha) ^ 2 * totalProbability s.amplitudes + w.alpha ^ 2 := by gcongr
    _ ≤ w.rawTotal s a := by
      rw [rawTotal, hboosted, htotal]
      linarith

lemma sqrt_rawTotal_mul_self (ha : a ∈ s.amplitudes) :
    PyFloat.sqrt (w.rawTotal s a) * PyFloat.sqrt (w.rawTotal s a) = w.rawTotal s a :=
  ExactMathLibrary.sqrt_mul_self _ (le_trans (by norm_num) (rawTotal_ge ha))

/-- The probabilities that are left. -/
lemma map_born_postAmplitudes (ha : a ∈ s.amplitudes) :
    ((w.postAmplitudes s a).entries.map fun p => (p.1, p.2.born))
      = s.amplitudes.map fun b => (b.basisLabel, if b.basisLabel = a.basisLabel then w.raised s a
        else w.damping s a * b.probability) := by
  rw [entries_postAmplitudes, List.map_map]
  refine List.map_congr_left fun b hb => Prod.ext rfl ?_
  dsimp only [Function.comp_apply]
  rw [born_divReal, sqrt_rawTotal_mul_self ha]
  by_cases hlabel : b.basisLabel = a.basisLabel
  · obtain rfl : b = a := List.inj_on_of_nodup_map s.labels_nodup hb ha hlabel
    rw [if_pos rfl, born_nudged_self, raised]
  · rw [if_neg hlabel, born_nudged_of_ne hlabel, damping, div_mul_eq_mul_div]

/-- The state that is left has the norm one. -/
lemma totalProbability_postAmplitudes (ha : a ∈ s.amplitudes) :
    totalProbability ((w.postAmplitudes s a).entries.map fun p => (⟨p.1, p.2⟩ : Amplitude R))
      = 1 := by
  have hne : w.rawTotal s a ≠ 0 := (lt_of_lt_of_le (by norm_num) (rawTotal_ge ha)).ne'
  have hborn : ((w.postAmplitudes s a).entries.map fun p => p.2.born)
      = s.amplitudes.map fun b =>
        (w.nudged a.basisLabel b.basisLabel b.value).born * (w.rawTotal s a)⁻¹ := by
    rw [entries_postAmplitudes, List.map_map]
    refine List.map_congr_left fun b _ => ?_
    rw [Function.comp_apply, born_divReal, sqrt_rawTotal_mul_self ha, div_eq_mul_inv]
  rw [totalProbability, List.map_map]
  refine Eq.trans (congrArg List.sum hborn) ?_
  rw [List.sum_map_mul_right, sum_born_nudged ha, mul_inv_cancel₀ hne]

end WeakMeasurementPolicy

/-! ### What a policy returns -/

lemma StateVector.entries_collapsedAmplitudes_ne (s : StateVector R) (label : String) :
    (collapsedAmplitudes (R := R) (s.amplitudes.map (·.basisLabel)) label).entries ≠ [] := by
  rw [s.entries_collapsedAmplitudes]
  exact List.map_eq_nil_iff.not.mpr s.amplitudes_ne

lemma StateVector.totalProbability_collapsedAmplitudes {s : StateVector R} {a : Amplitude R}
    (ha : a ∈ s.amplitudes) : totalProbability ((collapsedAmplitudes (R := R)
      (s.amplitudes.map (·.basisLabel)) a.basisLabel).entries.map fun p => ⟨p.1, p.2⟩) = 1 := by
  rw [s.entries_collapsedAmplitudes, List.map_map]
  exact totalProbability_collapsed ha

/-- What a policy returns once it has selected an amplitude: the result with the state that is
left. -/
def conclude (post : Dict String (PyComplex R)) (loss : StateVector R → R) (a : Amplitude R)
    (seed : ℤ) (policyName : String) : Except Raised (MeasurementResult R) :=
  match StateVector.new post with
  | .error exc => .error exc
  | .ok postState =>
    MeasurementResult.new a.basisLabel a.probability (loss postState) postState seed policyName

/-- What is raised for a seed that cannot be packed. -/
lemma ProjectiveMeasurementPolicy.measure_of_not_fits64 {s : StateVector R} {seed : ℤ}
    (hseed : ¬Fits64 seed) : measure s seed = .error ⟨.structError,
      "'q' format requires -9223372036854775808 <= number <= 9223372036854775807"⟩ := by
  have hsample : seededSample (s.amplitudes.map Amplitude.probability) seed = .error _ :=
    if_neg hseed
  simp only [measure, hsample]
  rfl

lemma WeakMeasurementPolicy.measure_of_not_fits64 {w : WeakMeasurementPolicy R}
    {s : StateVector R} {seed : ℤ} (hseed : ¬Fits64 seed) :
    w.measure s seed = .error ⟨.structError,
      "'q' format requires -9223372036854775808 <= number <= 9223372036854775807"⟩ := by
  have hsample : seededSample (s.amplitudes.map Amplitude.probability) seed = .error _ :=
    if_neg hseed
  simp only [measure, hsample]
  rfl

lemma ProjectiveMeasurementPolicy.measure_of_fallsOn {s : StateVector R} {seed : ℤ}
    {a : Amplitude R} (hseed : Fits64 seed) (hfalls : s.FallsOn seed a) :
    measure s seed = conclude (collapsedAmplitudes (s.amplitudes.map (·.basisLabel)) a.basisLabel)
      (fun postState => pyMax 0 (informationLossAfterCollapse s postState)) a seed name := by
  obtain ⟨idx, ha, hat⟩ := hfalls
  have hidx := (seededSample_eq_ok_iff s.probabilities_ne).mpr ⟨hseed, hat⟩
  rw [StateVector.probabilities] at hidx
  simp only [measure, hidx, ha, conclude]
  cases StateVector.new
      (collapsedAmplitudes (R := R) (s.amplitudes.map (·.basisLabel)) a.basisLabel) with
  | error exc => rfl
  | ok postState => rfl

lemma WeakMeasurementPolicy.measure_of_fallsOn [IsStrictOrderedRing R] [ExactMathLibrary R]
    {w : WeakMeasurementPolicy R} {s : StateVector R} {seed : ℤ} {a : Amplitude R}
    (hseed : Fits64 seed) (hfalls : s.FallsOn seed a) :
    w.measure s seed = conclude (w.postAmplitudes s a)
      (fun postState => pyMax 0 (w.alpha * informationLossAfterCollapse s postState)) a seed
      w.name := by
  have hmem := hfalls.mem
  obtain ⟨idx, ha, hat⟩ := hfalls
  have hidx := (seededSample_eq_ok_iff s.probabilities_ne).mpr ⟨hseed, hat⟩
  rw [StateVector.probabilities] at hidx
  have hsquare : ((w.postAmpsRaw s a.basisLabel).values.map fun v => PyQuotient.square v.abs)
      = s.amplitudes.map fun b => (w.nudged a.basisLabel b.basisLabel b.value).born := by
    rw [Dict.values, entries_postAmpsRaw, List.map_map, List.map_map]
    refine List.map_congr_left fun b _ => ?_
    exact (sq _).trans (PyComplex.abs_mul_self _)
  have hnorm : pySum ((w.postAmpsRaw s a.basisLabel).values.map fun v => PyQuotient.square v.abs)
      = w.rawTotal s a := by
    rw [hsquare, pySum_eq_sum, sum_born_nudged hmem]
  -- the norm is never so small that the measurement is refused
  have hlarge : ¬PyFloat.sqrt (w.rawTotal s a) < 1e-15 := by
    intro hsmall
    have hnonneg : 0 ≤ PyFloat.sqrt (w.rawTotal s a) := ExactMathLibrary.sqrt_nonneg _
    have hsq := sqrt_rawTotal_mul_self (w := w) hmem
    have hlt := mul_self_lt_mul_self hnonneg hsmall
    rw [hsq] at hlt
    exact absurd (hlt.trans_le (le_trans (by norm_num) (rawTotal_ge hmem))) (lt_irrefl _)
  simp only [measure, hidx, ha, hnorm, if_neg hlarge, conclude]
  rw [← postAmplitudes]
  cases StateVector.new (w.postAmplitudes s a) with
  | error exc => rfl
  | ok postState => rfl

/-- **What a policy returns**, if the amplitudes that are left have the norm one: it raises if a
label is empty, or if the probability is too large, and otherwise returns the state with them. -/
theorem conclude_cases [IsStrictOrderedRing R] [ExactMathLibrary R]
    {post : Dict String (PyComplex R)} (hne : post.entries ≠ [])
    (htotal : totalProbability (post.entries.map fun p => (⟨p.1, p.2⟩ : Amplitude R)) = 1)
    {loss : StateVector R → R} (hloss : ∀ t, 0 ≤ loss t) (a : Amplitude R) (seed : ℤ)
    (policyName : String) :
    ("" ∈ post.keys ∧ conclude post loss a seed policyName
        = .error ⟨.valueError, "[FORBIDDEN STATE] Basis label must be non-empty"⟩) ∨
    (¬a.probability ≤ 1 + 1e-10 ∧ "" ∉ post.keys ∧ conclude post loss a seed policyName
        = .error ⟨.valueError, "confidence must be in [0, 1], got "
          ++ PyFloat.fixed 8 a.probability⟩) ∨
    ∃ result, ("" ∉ post.keys ∧ a.probability ≤ 1 + 1e-10) ∧
      conclude post loss a seed policyName = .ok result ∧ result.postState.asDict = post ∧
      result.outcome = a.basisLabel ∧ result.confidence = a.probability ∧
      result.informationLossDeclared = loss result.postState := by
  by_cases hempty : "" ∈ post.keys
  · refine Or.inl ⟨hempty, ?_⟩
    rw [conclude, StateVector.new, dif_neg hne, if_pos (Dict.contains_eq_true.mpr hempty)]
  · obtain ⟨postState, hpost⟩ :=
      StateVector.exists_new_iff.mpr ⟨hne, hempty, norm_near_of_totalProbability htotal⟩
    have hnonneg : 0 ≤ a.probability := a.value.born_nonneg
    have hdeclared : ¬loss postState < -1e-10 :=
      not_lt.mpr (le_trans (by norm_num) (hloss postState))
    by_cases hle : a.probability ≤ 1 + 1e-10
    · have hconclude : conclude post loss a seed policyName = .ok ⟨a.basisLabel, a.probability,
          loss postState, postState, seed, policyName, ⟨hnonneg, hle⟩, hdeclared⟩ := by
        simp only [conclude, hpost, MeasurementResult.new, dif_neg hdeclared]
        exact dif_pos ⟨hnonneg, hle⟩
      exact Or.inr (Or.inr ⟨_, ⟨hempty, hle⟩, hconclude, StateVector.asDict_of_new hpost, rfl, rfl,
        rfl⟩)
    · refine Or.inr (Or.inl ⟨hle, hempty, ?_⟩)
      simp only [conclude, hpost, MeasurementResult.new]
      exact dif_neg fun hmem => hle hmem.2

/-- Two policies that leave the same labels, after draws of the same probability, raise the same, or
both return. -/
lemma conclude_both [IsStrictOrderedRing R] [ExactMathLibrary R]
    {post post' : Dict String (PyComplex R)} (hkeys : post.keys = post'.keys)
    (hne : post.entries ≠ [])
    (htotal : totalProbability (post.entries.map fun p => (⟨p.1, p.2⟩ : Amplitude R)) = 1)
    (htotal' : totalProbability (post'.entries.map fun p => (⟨p.1, p.2⟩ : Amplitude R)) = 1)
    {loss loss' : StateVector R → R} (hloss : ∀ t, 0 ≤ loss t) (hloss' : ∀ t, 0 ≤ loss' t)
    {a b : Amplitude R} (hprobability : b.probability = a.probability) (seed : ℤ)
    (policyName policyName' : String) :
    (¬("" ∉ post.keys ∧ a.probability ≤ 1 + 1e-10) ∧ ∃ exc,
      conclude post loss a seed policyName = .error exc ∧
      conclude post' loss' b seed policyName' = .error exc) ∨
    ("" ∉ post.keys ∧ a.probability ≤ 1 + 1e-10) ∧ ∃ result result',
      conclude post loss a seed policyName = .ok result ∧
      conclude post' loss' b seed policyName' = .ok result' ∧
      (result.postState.asDict = post ∧ result.outcome = a.basisLabel ∧
        result.confidence = a.probability ∧
        result.informationLossDeclared = loss result.postState) ∧
      result'.postState.asDict = post' ∧ result'.outcome = b.basisLabel ∧
        result'.confidence = b.probability ∧
        result'.informationLossDeclared = loss' result'.postState := by
  have hne' : post'.entries ≠ [] := fun hnil => by
    rw [Dict.keys, Dict.keys, hnil] at hkeys
    exact hne (List.map_eq_nil_iff.mp hkeys)
  have hcases' := conclude_cases hne' htotal' hloss' b seed policyName'
  rw [← hkeys, hprobability] at hcases'
  rcases conclude_cases hne htotal hloss a seed policyName with
    ⟨hempty, hraised⟩ | ⟨hlarge, hempty, hraised⟩ | ⟨result, ⟨hempty, hle⟩, hok, hresult⟩
  · rcases hcases' with ⟨-, hraised'⟩ | ⟨-, hempty', -⟩ | ⟨-, ⟨hempty', -⟩, -⟩
    · exact Or.inl ⟨fun h => h.1 hempty, _, hraised, hraised'⟩
    · exact absurd hempty hempty'
    · exact absurd hempty hempty'
  · rcases hcases' with ⟨hempty', -⟩ | ⟨-, -, hraised'⟩ | ⟨-, ⟨-, hle'⟩, -⟩
    · exact absurd hempty' hempty
    · exact Or.inl ⟨fun h => hlarge h.2, _, hraised, hraised'⟩
    · exact absurd hle' hlarge
  · rcases hcases' with ⟨hempty', -⟩ | ⟨hlarge', -, -⟩ | ⟨result', -, hok', hresult'⟩
    · exact absurd hempty' hempty
    · exact absurd hle hlarge'
    · rw [← hprobability] at hresult'
      exact Or.inr ⟨⟨hempty, hle⟩, result, result', hok, hok', hresult, hresult'⟩

/-! ### Full coupling -/

/-- What of a result does not depend on the name of the policy. -/
def MeasurementResult.observed (result : MeasurementResult R) : String × R × R × StateVector R :=
  (result.outcome, result.confidence, result.informationLossDeclared, result.postState)

/-- Two policies that declare the loss in the same way return the same exactly if they raise, or
leave the same amplitudes. -/
lemma conclude_observed_eq_iff [IsStrictOrderedRing R] [ExactMathLibrary R]
    {post post' : Dict String (PyComplex R)} (hkeys : post.keys = post'.keys)
    (hne : post.entries ≠ [])
    (htotal : totalProbability (post.entries.map fun p => (⟨p.1, p.2⟩ : Amplitude R)) = 1)
    (htotal' : totalProbability (post'.entries.map fun p => (⟨p.1, p.2⟩ : Amplitude R)) = 1)
    {loss : StateVector R → R} (hloss : ∀ t, 0 ≤ loss t) (a : Amplitude R) (seed : ℤ)
    (policyName policyName' : String) :
    (conclude post loss a seed policyName).map MeasurementResult.observed
        = (conclude post' loss a seed policyName').map MeasurementResult.observed ↔
      ("" ∉ post.keys → a.probability ≤ 1 + 1e-10 → post = post') := by
  rcases conclude_both hkeys hne htotal htotal' hloss hloss rfl seed policyName policyName' with
    ⟨hrefused, exc, hraised, hraised'⟩ | ⟨⟨hempty, hle⟩, result, result', hok, hok',
      ⟨hpost, houtcome, hconfidence, hdeclared⟩, hpost', houtcome', hconfidence', hdeclared'⟩
  · rw [hraised, hraised']
    exact iff_of_true rfl fun hempty hle => absurd ⟨hempty, hle⟩ hrefused
  · rw [hok, hok']
    constructor
    · intro h _ _
      have hstate := congrArg (fun o => o.2.2.2) (Except.ok.inj h)
      rw [← hpost, ← hpost']
      exact congrArg StateVector.asDict hstate
    · intro h
      have hstate : result.postState = result'.postState :=
        StateVector.ext (by rw [StateVector.amplitudes_eq, hpost, h hempty hle, ← hpost',
          ← StateVector.amplitudes_eq])
      refine congrArg Except.ok ?_
      rw [MeasurementResult.observed, MeasurementResult.observed, houtcome, houtcome',
        hconfidence, hconfidence', hdeclared, hdeclared', hstate]

namespace WeakMeasurementPolicy

variable [IsStrictOrderedRing R] [ExactMathLibrary R] {w : WeakMeasurementPolicy R}
  {s : StateVector R} {a : Amplitude R}

omit [ExactMathLibrary R] in
/-- What the policy makes of the selected amplitude is one, unless there is a phase. -/
lemma nudged_self_eq_one_iff (hboosted : w.boosted a = 1) :
    w.nudged a.basisLabel a.basisLabel a.value = .ofReal 1 ↔
      a.value.abs ≤ 1e-15 ∨ a.value = .ofReal a.value.abs := by
  have hnudged : w.nudged a.basisLabel a.basisLabel a.value
      = if a.value.abs > 1e-15 then PyQuotient.divReal a.value a.value.abs else .ofReal 1 := by
    rw [nudged, if_pos rfl]
    exact (congrArg (PyComplex.ofReal · * _) hboosted).trans (one_mul _)
  rw [hnudged]
  by_cases hlarge : a.value.abs > 1e-15
  · have hpos : 0 < a.value.abs := lt_trans (show (0 : R) < 1e-15 by norm_num) hlarge
    rw [if_pos hlarge, or_iff_right (not_le.mpr hlarge)]
    constructor
    · intro h
      have hre : a.value.re / a.value.abs = 1 := congrArg PyComplex.re h
      have him : a.value.im / a.value.abs = 0 := congrArg PyComplex.im h
      exact PyComplex.ext ((div_eq_one_iff_eq hpos.ne').mp hre)
        ((div_eq_zero_iff.mp him).resolve_right hpos.ne')
    · intro h
      have hre : a.value.re = a.value.abs := congrArg PyComplex.re h
      have him : a.value.im = 0 := congrArg PyComplex.im h
      refine PyComplex.ext ?_ ?_
      · show a.value.re / a.value.abs = 1
        rw [hre, div_self hpos.ne']
      · show a.value.im / a.value.abs = 0
        rw [him, zero_div]
  · rw [if_neg hlarge]
    exact iff_of_true rfl (Or.inl (not_lt.mp hlarge))

/-- With the coupling strength one the phase of the selected amplitude is all that is left. -/
lemma postAmplitudes_eq_collapsed_iff (hw : w.alpha = 1) (ha : a ∈ s.amplitudes) :
    w.postAmplitudes s a = collapsedAmplitudes (s.amplitudes.map (·.basisLabel)) a.basisLabel ↔
      a.value.abs ≤ 1e-15 ∨ a.value = .ofReal a.value.abs := by
  have hboosted : w.boosted a = 1 := by
    rw [boosted, hw, one_mul, add_sub_cancel]
  have hsqrt : PyFloat.sqrt (w.rawTotal s a) = 1 := by
    rw [rawTotal, hboosted, hw, sub_self, one_pow, zero_pow two_ne_zero, zero_mul, add_zero,
      sqrt_one]
  have hdiv : ∀ z : PyComplex R, PyQuotient.divReal z 1 = z := fun z =>
    PyComplex.ext (div_one _) (div_one _)
  have hother : ∀ b : Amplitude R, b.basisLabel ≠ a.basisLabel →
      w.nudged a.basisLabel b.basisLabel b.value = .ofReal 0 := fun b hb => by
    rw [nudged, if_neg hb, hw, sub_self]
    exact mul_zero b.value
  have hiff : w.postAmplitudes s a
      = collapsedAmplitudes (s.amplitudes.map (·.basisLabel)) a.basisLabel ↔
        ∀ b ∈ s.amplitudes, w.nudged a.basisLabel b.basisLabel b.value
          = if b.basisLabel = a.basisLabel then .ofReal 1 else .ofReal 0 := by
    rw [Dict.ext_iff, entries_postAmplitudes, s.entries_collapsedAmplitudes, List.map_inj_left]
    simp only [hsqrt, hdiv, Prod.mk.injEq, true_and]
  rw [hiff, ← nudged_self_eq_one_iff hboosted]
  constructor
  · intro h
    exact (h a ha).trans (if_pos rfl)
  · intro h b hb
    by_cases hlabel : b.basisLabel = a.basisLabel
    · obtain rfl : b = a := List.inj_on_of_nodup_map s.labels_nodup hb ha hlabel
      rw [if_pos rfl, h]
    · rw [if_neg hlabel, hother b hlabel]

/-- On which amplitude the draw falls decides whether the two policies agree. -/
lemma agrees_iff_of_fallsOn (hw : w.alpha = 1) {seed : ℤ} (hseed : Fits64 seed)
    (hfalls : s.FallsOn seed a) :
    (w.measure s seed).map MeasurementResult.observed
        = (ProjectiveMeasurementPolicy.measure s seed).map MeasurementResult.observed ↔
      ("" ∉ s.amplitudes.map (·.basisLabel) → a.probability ≤ 1 + 1e-10 →
        a.value.abs ≤ 1e-15 ∨ a.value = .ofReal a.value.abs) := by
  have hloss : (fun postState => pyMax 0 (w.alpha * informationLossAfterCollapse s postState))
      = fun postState => pyMax 0 (informationLossAfterCollapse s postState) := by
    funext postState
    rw [hw, one_mul]
  have hkeys : (w.postAmplitudes s a).keys = (collapsedAmplitudes (R := R)
      (s.amplitudes.map (·.basisLabel)) a.basisLabel).keys := by
    rw [keys_postAmplitudes, Dict.keys, s.entries_collapsedAmplitudes, List.map_map]
    rfl
  rw [measure_of_fallsOn hseed hfalls,
    ProjectiveMeasurementPolicy.measure_of_fallsOn hseed hfalls, hloss,
    conclude_observed_eq_iff hkeys entries_postAmplitudes_ne
      (totalProbability_postAmplitudes hfalls.mem)
      (StateVector.totalProbability_collapsedAmplitudes hfalls.mem)
      (fun t => pyMax_zero_nonneg _) a seed, keys_postAmplitudes,
    postAmplitudes_eq_collapsed_iff hw hfalls.mem]

/-- **Full coupling.**  With the coupling strength one the policy returns what the projective policy
returns, and raises what it raises, exactly if the projective policy raises, or the amplitude on
which the draw falls is its own absolute value, or counts as zero. -/
theorem agrees_iff (hw : w.alpha = 1) (s : StateVector R) (seed : ℤ) :
    (w.measure s seed).map MeasurementResult.observed
        = (ProjectiveMeasurementPolicy.measure s seed).map MeasurementResult.observed ↔
      (Fits64 seed → "" ∉ s.amplitudes.map (·.basisLabel) →
        ∀ a, s.FallsOn seed a → a.probability ≤ 1 + 1e-10 →
          a.value.abs ≤ 1e-15 ∨ a.value = .ofReal a.value.abs) := by
  by_cases hseed : Fits64 seed
  · obtain ⟨a, hfalls⟩ := s.exists_fallsOn hseed
    rw [agrees_iff_of_fallsOn hw hseed hfalls]
    constructor
    · intro h _ hempty b hb hle
      rw [← hfalls.unique hb] at hle ⊢
      exact h hempty hle
    · intro h hempty hle
      exact h hseed hempty a hfalls hle
  · refine iff_of_true ?_ fun h => absurd h hseed
    rw [measure_of_not_fits64 hseed, ProjectiveMeasurementPolicy.measure_of_not_fits64 hseed]

/-- A state with a positive amplitude. -/
theorem agrees_realKet :
    ∃ w : WeakMeasurementPolicy ℝ, new 1 = .ok w ∧ ∀ seed,
      (w.measure ProjectiveMeasurementPolicy.realKet seed).map MeasurementResult.observed
        = (ProjectiveMeasurementPolicy.measure ProjectiveMeasurementPolicy.realKet seed).map
          MeasurementResult.observed := by
  refine ⟨⟨1, one_pos, le_rfl⟩, dif_pos ⟨one_pos, le_rfl⟩, fun seed => ?_⟩
  refine (agrees_iff rfl ProjectiveMeasurementPolicy.realKet seed).mpr fun _ _ a ha _ => Or.inr ?_
  rw [List.mem_singleton.mp ha.mem]
  show (1 : PyComplex ℝ) = .ofReal (1 : PyComplex ℝ).abs
  rw [PyComplex.abs_one]
  rfl

/-- A basis state with a phase. -/
noncomputable def ketMinus : StateVector ℝ where
  amplitudes := [⟨"0", .ofReal (-1)⟩]
  amplitudes_ne := List.cons_ne_nil _ _
  labels_nodup := List.nodup_singleton _
  norm_near := norm_near_of_totalProbability (by
    simp [totalProbability, Amplitude.probability_ofReal])

/-- The policy leaves the phase, and the projective policy does not. -/
theorem phase_is_left :
    ∃ w : WeakMeasurementPolicy ℝ, new 1 = .ok w ∧ ∀ seed, Fits64 seed →
      (w.measure ketMinus seed).map MeasurementResult.observed
        ≠ (ProjectiveMeasurementPolicy.measure ketMinus seed).map MeasurementResult.observed := by
  refine ⟨⟨1, one_pos, le_rfl⟩, dif_pos ⟨one_pos, le_rfl⟩, fun seed hseed heq => ?_⟩
  obtain ⟨a, hfalls⟩ := ketMinus.exists_fallsOn hseed
  obtain rfl := List.mem_singleton.mp hfalls.mem
  have habs : (PyComplex.ofReal (-1 : ℝ)).abs = 1 := by
    rw [PyComplex.abs_ofReal, abs_neg, abs_one]
  rcases (agrees_iff_of_fallsOn rfl hseed hfalls).mp heq (by simp [ketMinus])
    (by norm_num [Amplitude.probability_ofReal]) with hsmall | hphase
  · rw [habs] at hsmall
    norm_num at hsmall
  · rw [habs] at hphase
    have hre : (-1 : ℝ) = 1 := congrArg PyComplex.re hphase
    norm_num at hre

end WeakMeasurementPolicy

end QuantumFoundation
