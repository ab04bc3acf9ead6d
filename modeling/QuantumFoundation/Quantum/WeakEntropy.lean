import QuantumFoundation.Quantum.WeakCollapse

/-!
# The entropy that a weak measurement leaves

The entropy of a state is a sum over its probabilities, of which one is boosted and the others are
scaled by one factor.  So how much entropy the measured state needs, for the measurement not to
leave more, is known from the probability of the outcome and the coupling strength.  If it has less,
the loss that is declared is cut off at zero.
-/

namespace QuantumFoundation

variable {R : Type*} [Field R] [LinearOrder R] [MathLibrary R]

/-- What the documentation says of `math.log2` at products, in exact arithmetic. -/
class LogarithmLaw (R : Type*) [Field R] [LinearOrder R] [MathLibrary R] : Prop where
  log2_mul : ∀ x y : R, 0 < x → 0 < y →
    MathLibrary.log2 (x * y) = MathLibrary.log2 x + MathLibrary.log2 y

instance : LogarithmLaw ℝ where
  log2_mul _ _ hx hy := Real.logb_mul hx.ne' hy.ne'

/-! ### The entropy as a sum -/

/-- What a probability adds to the entropy. -/
def entropyTerm (p : R) : R := if p > 1e-15 then -(p * PyFloat.log2 p) else 0

/-- What the probabilities of amplitudes add to the entropy, if none of them is too small. -/
def entropyOf (l : List (Amplitude R)) : R :=
  (l.map fun b => -(b.probability * PyFloat.log2 b.probability)).sum

/-- The amplitudes whose probabilities count when they are scaled. -/
def counted (c : R) (l : List (Amplitude R)) : List (Amplitude R) :=
  l.filter fun b => decide (c * b.probability > 1e-15)

lemma vonNeumannEntropy_eq_sum (s : StateVector R) :
    vonNeumannEntropy s = (s.asDict.entries.map fun p => entropyTerm p.2.born).sum := by
  rw [vonNeumannEntropy, List.sum_eq_foldl, StateVector.asDict, List.map_map, List.foldl_map]
  congr 1
  funext entropy a
  show _ = entropy + entropyTerm a.probability
  by_cases hp : a.probability > 1e-15
  · simp only [entropyTerm, if_pos hp, sub_eq_add_neg]
  · simp only [entropyTerm, if_neg hp, add_zero]

/-- **Scaling.**  The entropy of scaled probabilities, by the entropy and the sum of those that
count. -/
theorem sum_entropyTerm_scaled [IsStrictOrderedRing R] [LogarithmLaw R] {c : R} (hc : 0 ≤ c)
    (l : List (Amplitude R)) :
    (l.map fun b => entropyTerm (c * b.probability)).sum
      = c * entropyOf (counted c l)
        - c * PyFloat.log2 c * totalProbability (counted c l) := by
  induction l with
  | nil => simp [counted, entropyOf, totalProbability]
  | cons b l ih =>
    rw [List.map_cons, List.sum_cons, ih]
    by_cases hcounts : c * b.probability > 1e-15
    · have hpos : 0 < c * b.probability := lt_trans (show (0 : R) < 1e-15 by norm_num) hcounts
      have hp : 0 < b.probability := pos_of_mul_pos_right hpos hc
      have hc' : 0 < c := pos_of_mul_pos_left hpos hp.le
      have hlog : PyFloat.log2 (c * b.probability) = PyFloat.log2 c + PyFloat.log2 b.probability :=
        LogarithmLaw.log2_mul c b.probability hc' hp
      have hcons : counted c (b :: l) = b :: counted c l := by
        rw [counted, List.filter_cons, if_pos (decide_eq_true hcounts)]
        rfl
      simp only [hcons, entropyTerm, if_pos hcounts, hlog, entropyOf, totalProbability,
        List.map_cons, List.sum_cons]
      ring
    · have hcons : counted c (b :: l) = counted c l := by
        rw [counted, List.filter_cons, if_neg (by rwa [decide_eq_true_eq])]
        rfl
      rw [hcons, entropyTerm, if_neg hcounts, zero_add]

lemma pyMax_zero_of_nonneg {x : R} (hx : 0 ≤ x) : pyMax 0 x = x := by
  rw [pyMax]
  split
  · rfl
  · next hpos => exact le_antisymm hx (not_lt.mp hpos)

namespace WeakMeasurementPolicy

/-- The entropy that the measured state needs, times what the others lose.  The probabilities of the
others only enter through the sum of those that count afterwards. -/
def entropyNeeded (w : WeakMeasurementPolicy R) (s : StateVector R) (a : Amplitude R) : R :=
  entropyTerm (w.raised s a) - w.damping s a * entropyTerm a.probability
    - w.damping s a * PyFloat.log2 (w.damping s a)
      * totalProbability (counted (w.damping s a) (s.others a))

/-- The entropy of the probabilities that count in the measured state, but not afterwards. -/
def entropyCutOff (w : WeakMeasurementPolicy R) (s : StateVector R) (a : Amplitude R) : R :=
  entropyOf (counted 1 (s.others a)) - entropyOf (counted (w.damping s a) (s.others a))

/-- The measured state has the entropy that boosting the outcome needs. -/
def EntropyReaches (w : WeakMeasurementPolicy R) (s : StateVector R) (a : Amplitude R) : Prop :=
  w.entropyNeeded s a
    ≤ (1 - w.damping s a) * vonNeumannEntropy s + w.damping s a * w.entropyCutOff s a

/-- The policy returns, the state that is left has the norm one and no larger entropy, and the loss
that is declared is not cut off. -/
def LosesEntropy (w : WeakMeasurementPolicy R) (s : StateVector R) (seed : ℤ) : Prop :=
  ∃ result, w.measure s seed = .ok result ∧ computeNorm result.postState.amplitudes = 1 ∧
    vonNeumannEntropy result.postState ≤ vonNeumannEntropy s ∧
    result.informationLossDeclared
      = w.alpha * (vonNeumannEntropy s - vonNeumannEntropy result.postState)

variable [IsStrictOrderedRing R] [ExactMathLibrary R] [LogarithmLaw R]
  {w : WeakMeasurementPolicy R} {s t : StateVector R} {a : Amplitude R}

/-- The entropy of the measured state. -/
lemma vonNeumannEntropy_eq (ha : a ∈ s.amplitudes) :
    vonNeumannEntropy s = entropyTerm a.probability + entropyOf (counted 1 (s.others a)) := by
  have hlog : PyFloat.log2 (1 : R) = 0 := LawfulMathLibrary.log2_one
  have hscaled := sum_entropyTerm_scaled (zero_le_one (α := R)) (s.others a)
  rw [hlog, mul_zero, zero_mul, sub_zero, one_mul] at hscaled
  simp only [one_mul] at hscaled
  have hsum := sum_single_out s.labels_nodup ha (fun b => entropyTerm b.probability)
    fun b => entropyTerm b.probability
  simp only [ite_self] at hsum
  rw [← hscaled, vonNeumannEntropy_eq_sum, StateVector.asDict, List.map_map]
  exact hsum

omit [LogarithmLaw R] in
/-- The entropy that is left, as a sum. -/
lemma vonNeumannEntropy_postState_eq_sum (ha : a ∈ s.amplitudes)
    (ht : t.asDict = w.postAmplitudes s a) :
    vonNeumannEntropy t = entropyTerm (w.raised s a)
      + ((s.others a).map fun b => entropyTerm (w.damping s a * b.probability)).sum := by
  have hterms : (t.asDict.entries.map fun p => entropyTerm p.2.born)
      = s.amplitudes.map fun b => if b.basisLabel = a.basisLabel then entropyTerm (w.raised s a)
        else entropyTerm (w.damping s a * b.probability) := by
    have hborn := congrArg (List.map fun p => entropyTerm p.2) (map_born_postAmplitudes (w := w) ha)
    rw [List.map_map, List.map_map] at hborn
    rw [ht]
    refine hborn.trans (List.map_congr_left fun b _ => ?_)
    exact apply_ite entropyTerm _ _ _
  rw [vonNeumannEntropy_eq_sum, hterms]
  exact sum_single_out s.labels_nodup ha (fun _ => entropyTerm (w.raised s a))
    fun b => entropyTerm (w.damping s a * b.probability)

/-- **The entropy falls** exactly if the measured state has the entropy that boosting needs. -/
theorem vonNeumannEntropy_le_iff (ha : a ∈ s.amplitudes) (ht : t.asDict = w.postAmplitudes s a) :
    vonNeumannEntropy t ≤ vonNeumannEntropy s ↔ w.EntropyReaches s a := by
  have hpos : 0 < w.rawTotal s a := lt_of_lt_of_le (by norm_num) (rawTotal_ge ha)
  have hdamping : 0 ≤ w.damping s a := div_nonneg (sq_nonneg _) hpos.le
  rw [EntropyReaches, entropyNeeded, entropyCutOff, vonNeumannEntropy_postState_eq_sum ha ht,
    sum_entropyTerm_scaled hdamping, vonNeumannEntropy_eq ha, ← sub_nonneg]
  refine Iff.trans (iff_of_eq (congrArg (0 ≤ ·) ?_)) sub_nonneg
  ring

omit [LogarithmLaw R] in
/-- What a weak measurement returns, where the draw falls. -/
lemma measure_cases {seed : ℤ} (hseed : Fits64 seed) (hfalls : s.FallsOn seed a) :
    (¬("" ∉ s.amplitudes.map (·.basisLabel) ∧ a.probability ≤ 1 + 1e-10) ∧
      ∃ exc, w.measure s seed = .error exc) ∨
    ∃ result, ("" ∉ s.amplitudes.map (·.basisLabel) ∧ a.probability ≤ 1 + 1e-10) ∧
      w.measure s seed = .ok result ∧ result.postState.asDict = w.postAmplitudes s a ∧
      result.informationLossDeclared
        = pyMax 0 (w.alpha * informationLossAfterCollapse s result.postState) := by
  rw [measure_of_fallsOn hseed hfalls, ← keys_postAmplitudes (w := w) (a := a)]
  rcases conclude_cases entries_postAmplitudes_ne (totalProbability_postAmplitudes hfalls.mem)
      (fun t => pyMax_zero_nonneg (w.alpha * informationLossAfterCollapse s t)) a seed w.name with
    ⟨hempty, hraised⟩ | ⟨hlarge, -, hraised⟩ | ⟨result, haccepted, hok, hpost, -, -, hdeclared⟩
  · exact Or.inl ⟨fun h => h.1 hempty, _, hraised⟩
  · exact Or.inl ⟨fun h => hlarge h.2, _, hraised⟩
  · exact Or.inr ⟨result, haccepted, hok, hpost, hdeclared⟩

/-- **One coupling strength.**  Entropy is lost exactly if the seed fits, no label is empty, the
outcome is not too probable, and the measured state has the entropy that boosting it needs. -/
theorem losesEntropy_iff (w : WeakMeasurementPolicy R) (s : StateVector R) (seed : ℤ) :
    w.LosesEntropy s seed ↔
      Fits64 seed ∧ "" ∉ s.amplitudes.map (·.basisLabel) ∧
        ∃ a, s.FallsOn seed a ∧ a.probability ≤ 1 + 1e-10 ∧ w.EntropyReaches s a := by
  by_cases hseed : Fits64 seed
  · obtain ⟨a, hfalls⟩ := s.exists_fallsOn hseed
    rcases measure_cases (w := w) hseed hfalls with
      ⟨hrefused, exc, hraised⟩ | ⟨result, ⟨hempty, hle⟩, hok, hpost, hdeclared⟩
    · refine iff_of_false (fun ⟨result, hok, _⟩ => ?_) fun ⟨_, hempty, b, hb, hle, _⟩ => ?_
      · exact absurd (hraised.symm.trans hok) (by simp)
      · exact hrefused ⟨hempty, hfalls.unique hb ▸ hle⟩
    · have hentropy := vonNeumannEntropy_le_iff hfalls.mem hpost
      constructor
      · rintro ⟨result', hok', -, hfalls', -⟩
        obtain rfl := Except.ok.inj (hok.symm.trans hok')
        exact ⟨hseed, hempty, a, hfalls, hle, hentropy.mp hfalls'⟩
      · rintro ⟨-, -, b, hb, -, hdecreases⟩
        rw [← hfalls.unique hb] at hdecreases
        have hleft := hentropy.mpr hdecreases
        have hnorm : computeNorm result.postState.amplitudes = 1 := by
          have htotal := totalProbability_postAmplitudes (w := w) hfalls.mem
          rw [← hpost, StateVector.asDict, List.map_map] at htotal
          exact computeNorm_eq_one ((congrArg totalProbability (List.map_id _)).symm.trans htotal)
        refine ⟨result, hok, hnorm, hleft, ?_⟩
        have hnonneg : 0 ≤ w.alpha * informationLossAfterCollapse s result.postState :=
          mul_nonneg w.alpha_mem.1.le (sub_nonneg.mpr hleft)
        rw [hdeclared, pyMax_zero_of_nonneg hnonneg]
        rfl
  · refine iff_of_false (fun ⟨result, hok, _⟩ => ?_) fun h => hseed h.1
    rw [measure_of_not_fits64 hseed] at hok
    exact absurd hok (by simp)

/-- A state of the real numbers with the probabilities 1/9, 4/9 and 4/9. -/
noncomputable def oneTwoTwo : StateVector ℝ where
  amplitudes := [⟨"0", .ofReal (1 / 3)⟩, ⟨"1", .ofReal (2 / 3)⟩, ⟨"2", .ofReal (2 / 3)⟩]
  amplitudes_ne := List.cons_ne_nil _ _
  labels_nodup := by simp
  norm_near := by
    have htotal : totalProbability [(⟨"0", .ofReal (1 / 3)⟩ : Amplitude ℝ),
        ⟨"1", .ofReal (2 / 3)⟩, ⟨"2", .ofReal (2 / 3)⟩] = 1 := by
      simp only [totalProbability, Amplitude.probability_ofReal, List.map_cons, List.map_nil,
        List.sum_cons, List.sum_nil]
      norm_num
    exact norm_near_of_totalProbability htotal

/-- The logarithm of three is less than sixteen ninths. -/
lemma logb_three_lt : Real.logb 2 3 < 16 / 9 := by
  have hlt : Real.logb 2 (3 ^ 9) < Real.logb 2 (2 ^ 16) :=
    Real.logb_lt_logb one_lt_two (by norm_num) (by norm_num)
  rw [Real.logb_pow, Real.logb_pow, Real.logb_self_eq_one one_lt_two] at hlt
  norm_num at hlt
  linarith

lemma others_oneTwoTwo : oneTwoTwo.others ⟨"0", .ofReal (1 / 3)⟩
    = [⟨"1", .ofReal (2 / 3)⟩, ⟨"2", .ofReal (2 / 3)⟩] := by
  simp [StateVector.others, oneTwoTwo]

/-- Boosted by a quarter, the improbable amplitude is as large as the others. -/
lemma boosted_oneTwoTwo {w : WeakMeasurementPolicy ℝ} (hw : w.alpha = 1 / 4) :
    w.raised oneTwoTwo ⟨"0", .ofReal (1 / 3)⟩ = 1 / 3 ∧
      w.damping oneTwoTwo ⟨"0", .ofReal (1 / 3)⟩ = 3 / 4 := by
  have hboosted : w.boosted ⟨"0", .ofReal (1 / 3)⟩ = 1 / 2 := by
    rw [boosted, hw, PyComplex.abs_ofReal, abs_of_pos (by norm_num)]
    norm_num
  have hraw : w.rawTotal oneTwoTwo ⟨"0", .ofReal (1 / 3)⟩ = 3 / 4 := by
    rw [rawTotal, hboosted, hw, others_oneTwoTwo]
    simp only [totalProbability, List.map_cons, List.map_nil, List.sum_cons, List.sum_nil,
      Amplitude.probability_ofReal]
    norm_num
  constructor
  · rw [raised, hboosted, hraw]
    norm_num
  · rw [damping, hw, hraw]
    norm_num

/-- The uniform distribution that is left has more entropy. -/
lemma not_entropyReaches_oneTwoTwo {w : WeakMeasurementPolicy ℝ} (hw : w.alpha = 1 / 4) :
    ¬w.EntropyReaches oneTwoTwo ⟨"0", .ofReal (1 / 3)⟩ := by
  obtain ⟨hraised, hdamping⟩ := boosted_oneTwoTwo hw
  have hcounted : ∀ c : ℝ, c * (2 / 3) ^ 2 > 1e-15 → counted c
      [(⟨"1", .ofReal (2 / 3)⟩ : Amplitude ℝ), ⟨"2", .ofReal (2 / 3)⟩]
        = [⟨"1", .ofReal (2 / 3)⟩, ⟨"2", .ofReal (2 / 3)⟩] := by
    intro c hc
    refine List.filter_eq_self.mpr fun b hb => decide_eq_true ?_
    rcases List.mem_pair.mp hb with rfl | rfl
    · rwa [Amplitude.probability_ofReal]
    · rwa [Amplitude.probability_ofReal]
  have hterm : ∀ p : ℝ, p > 1e-15 → entropyTerm p = -(p * Real.logb 2 p) := fun p hp => if_pos hp
  have hlog : ∀ x : ℝ, PyFloat.log2 x = Real.logb 2 x := fun _ => rfl
  have hthird : Real.logb 2 (1 / 3) = -Real.logb 2 3 := by
    rw [one_div, Real.logb_inv]
  have hninth : Real.logb 2 ((1 / 3) ^ 2) = -(2 * Real.logb 2 3) := by
    rw [Real.logb_pow, hthird]
    push_cast
    ring
  have hfour : Real.logb 2 ((2 / 3) ^ 2) = 2 - 2 * Real.logb 2 3 := by
    rw [Real.logb_pow, Real.logb_div two_ne_zero three_ne_zero,
      Real.logb_self_eq_one one_lt_two]
    push_cast
    ring
  have hthree : Real.logb 2 (3 / 4) = Real.logb 2 3 - 2 := by
    rw [show (3 / 4 : ℝ) = 3 / 2 ^ 2 by norm_num, Real.logb_div three_ne_zero (by norm_num),
      Real.logb_pow, Real.logb_self_eq_one one_lt_two]
    push_cast
    ring
  have hmem : (⟨"0", .ofReal (1 / 3)⟩ : Amplitude ℝ) ∈ oneTwoTwo.amplitudes := List.mem_cons_self
  rw [EntropyReaches, entropyNeeded, entropyCutOff, vonNeumannEntropy_eq hmem, hraised, hdamping,
    others_oneTwoTwo, hcounted (3 / 4) (by norm_num), hcounted 1 (by norm_num),
    Amplitude.probability_ofReal, hterm (1 / 3) (by norm_num), hterm ((1 / 3) ^ 2) (by norm_num),
    hthird, hninth]
  simp only [entropyOf, totalProbability, List.map_cons, List.map_nil, List.sum_cons,
    List.sum_nil, Amplitude.probability_ofReal, hlog, hfour, hthree]
  have hlt := logb_three_lt
  intro hle
  linarith

/-- A measurement that boosts an improbable outcome leaves a state with more entropy, and declares
no loss. -/
theorem oneTwoTwo_gains_entropy :
    ∃ w : WeakMeasurementPolicy ℝ, new (1 / 4) = .ok w ∧ ∃ result,
      w.measure oneTwoTwo 0 = .ok result ∧
        vonNeumannEntropy oneTwoTwo < vonNeumannEntropy result.postState ∧
        result.informationLossDeclared = 0 := by
  have hmem : (0 : ℝ) < 1 / 4 ∧ (1 / 4 : ℝ) ≤ 1 := by norm_num
  have hzero : draw 0 oneTwoTwo.probabilities = 0 := by
    show ((0 : ℕ) : ℝ) / _ = 0
    rw [Nat.cast_zero, zero_div]
  have hfalls : oneTwoTwo.FallsOn 0 ⟨"0", .ofReal (1 / 3)⟩ := by
    refine ⟨0, rfl, (fallsAt_iff oneTwoTwo.probability_nonneg hzero.ge).mpr ⟨?_, ?_, Or.inl ?_⟩⟩
    · simp [StateVector.probabilities, oneTwoTwo]
    · simp [hzero]
    · rw [hzero]
      simp [StateVector.probabilities, oneTwoTwo, Amplitude.probability, PyComplex.born_eq,
        PyComplex.ofReal]
  rcases measure_cases (w := ⟨1 / 4, hmem⟩) (show Fits64 0 by decide) hfalls with
    ⟨hrefused, -⟩ | ⟨result, -, hok, hpost, hdeclared⟩
  · refine absurd ⟨by simp [oneTwoTwo], ?_⟩ hrefused
    norm_num [Amplitude.probability, PyComplex.born_eq, PyComplex.ofReal]
  · have hgains : vonNeumannEntropy oneTwoTwo < vonNeumannEntropy result.postState := by
      rw [← not_le, vonNeumannEntropy_le_iff hfalls.mem hpost]
      exact not_entropyReaches_oneTwoTwo rfl
    refine ⟨⟨1 / 4, hmem⟩, dif_pos hmem, result, hok, hgains, ?_⟩
    have hnegative : 1 / 4 * informationLossAfterCollapse oneTwoTwo result.postState ≤ 0 :=
      mul_nonpos_of_nonneg_of_nonpos (by norm_num) (sub_nonpos.mpr hgains.le)
    rw [hdeclared]
    exact if_neg (not_lt.mpr hnegative)

end WeakMeasurementPolicy

end QuantumFoundation
