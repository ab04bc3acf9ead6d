import Mathlib.Algebra.Order.BigOperators.Group.List
import QuantumFoundation.Quantum.Audit
import QuantumFoundation.Quantum.ExactArithmetic
import QuantumFoundation.Quantum.Sampling

/-!
# States with a tolerance

A state is accepted if its norm is close to one; the checks, and the constructor of a result, look
at the squares.  Close to the border a state is therefore accepted, and then found to violate an
invariant, or cannot be measured; and a draw close to one may fall behind all labels, on the last
one, however improbable it is.
-/

namespace QuantumFoundation

variable {R : Type*} [Field R] [LinearOrder R] [MathLibrary R] [IsStrictOrderedRing R]

/-! ### Where a draw falls -/

section Draws

variable {r : R} {l : List R} {j k : ℕ}

lemma sum_take_le_sum_take (hl : ∀ p ∈ l, 0 ≤ p) (hjk : j ≤ k) :
    (l.take j).sum ≤ (l.take k).sum :=
  List.Sublist.sum_le_sum (List.take_sublist_take_left hjk) fun p hp =>
    hl p (List.mem_of_mem_take hp)

lemma sum_take_le_sum (hl : ∀ p ∈ l, 0 ≤ p) (j : ℕ) : (l.take j).sum ≤ l.sum :=
  List.Sublist.sum_le_sum (List.take_sublist j l) hl

/-- **Intervals.**  The draw falls on the position in whose interval it lies: the intervals are as
long as the probabilities, one behind the other, and the last one has no end. -/
theorem fallsAt_iff (hl : ∀ p ∈ l, 0 ≤ p) (hr : 0 ≤ r) :
    FallsAt r l j ↔
      j < l.length ∧ (l.take j).sum ≤ r ∧ (r < (l.take (j + 1)).sum ∨ j + 1 = l.length) := by
  have hbefore : (∀ i < j, ¬r < pySum (l.take (i + 1))) → (l.take j).sum ≤ r := by
    intro h
    cases j with
    | zero => simpa using hr
    | succ j => simpa [pySum_eq_sum] using h j (Nat.lt_succ_self j)
  constructor
  · rintro (h | ⟨hnever, hlast⟩)
    · have habove := h.above
      rw [pySum_eq_sum] at habove
      exact ⟨h.lt_length, hbefore h.before, Or.inl habove⟩
    · have hj : j < l.length := hlast.le
      exact ⟨hj, hbefore fun i hi => hnever i (hi.trans hj), Or.inr hlast⟩
  · rintro ⟨hj, hle, hend⟩
    by_cases habove : r < (l.take (j + 1)).sum
    · refine Or.inl ⟨hj, by rwa [pySum_eq_sum], fun i hi => ?_⟩
      rw [pySum_eq_sum, not_lt]
      exact (sum_take_le_sum_take hl hi).trans hle
    · have hlast := hend.resolve_left habove
      refine Or.inr ⟨fun i hi => ?_, hlast⟩
      rw [pySum_eq_sum, not_lt]
      exact (sum_take_le_sum_take hl (by omega)).trans (not_lt.mp habove)

/-- A draw that falls on a position is in front of the end of the sum, or the position is the last
one. -/
lemma FallsAt.pos_iff (hl : ∀ p ∈ l, 0 ≤ p) (hr : 0 ≤ r) (h : FallsAt r l j)
    (hj : j < l.length) : 0 < l[j] ↔ r < l.sum ∨ 0 < l.getLast (List.ne_nil_of_length_pos
      (Nat.zero_lt_of_lt hj)) := by
  obtain ⟨-, hle, hend⟩ := (fallsAt_iff hl hr).mp h
  have hsum := List.sum_take_succ l j hj
  by_cases habove : r < (l.take (j + 1)).sum
  · refine iff_of_true ?_ (Or.inl (habove.trans_le (sum_take_le_sum hl _)))
    linarith
  · have hlast := hend.resolve_left habove
    rw [hlast, List.take_length] at habove
    have hget : l[j] = l.getLast (List.ne_nil_of_length_pos (Nat.zero_lt_of_lt hj)) := by
      rw [List.getLast_eq_getElem]
      congr 1
      omega
    rw [or_iff_right habove, hget]

/-- A position that is longer than one draws nothing exactly if the draw falls in front of it. -/
lemma FallsAt.le_iff (hl : ∀ p ∈ l, 0 ≤ p) (hr : 0 ≤ r) (h : FallsAt r l j)
    (hj : j < l.length) {c : R} (hc : r < c) :
    l[j] ≤ c ↔ ∀ (k : ℕ) (hk : k < l.length), c < l[k] → r < (l.take k).sum := by
  obtain ⟨-, hle, hend⟩ := (fallsAt_iff hl hr).mp h
  constructor
  · intro hjc k hk hkc
    have hsum := List.sum_take_succ l k hk
    have hnonneg : 0 ≤ (l.take k).sum := by
      have := sum_take_le_sum_take hl (Nat.zero_le k)
      simpa using this
    -- the sum exceeds the draw at the long position at the latest
    have habove : r < (l.take (k + 1)).sum := by linarith
    rcases Nat.lt_trichotomy j k with hlt | heq | hgt
    · rcases hend with hend | hend
      · exact hend.trans_le (sum_take_le_sum_take hl hlt)
      · omega
    · subst heq
      exact absurd hkc (not_lt.mpr hjc)
    · exact absurd (habove.trans_le (sum_take_le_sum_take hl hgt)) (not_lt.mpr hle)
  · intro h
    by_contra hjc
    exact absurd (h j hj (not_le.mp hjc)) (not_lt.mpr hle)

end Draws

/-! ### What the constructors accept -/

/-- In exact arithmetic, only the square root of one is left to the library. -/
lemma UnitArithmetic.of_sqrt_one (h : PyFloat.sqrt (1 : R) = 1) : UnitArithmetic R where
  born_one := by ring
  born_zero := by ring
  zero_add_zero := add_zero 0
  zero_add_one := zero_add 1
  one_add_zero := add_zero 1
  sqrt_one := h
  abs_one_sub_one_le := by
    rw [sub_self, gt_iff_lt, not_lt]
    show |(0 : R)| ≤ 1e-10
    norm_num
  zero_not_lt := not_lt.mpr (by norm_num)
  pos_not_lt x hx := not_lt.mpr (le_trans (by norm_num) hx.le)

instance ExactMathLibrary.unitArithmetic [ExactMathLibrary R] : UnitArithmetic R :=
  .of_sqrt_one sqrt_one

namespace StateVector

variable {s : StateVector R} {a : Amplitude R}

lemma probability_nonneg : ∀ p ∈ s.probabilities, 0 ≤ p := by
  intro p hp
  obtain ⟨a, -, rfl⟩ := List.mem_map.mp hp
  exact a.value.born_nonneg

omit [IsStrictOrderedRing R] in
/-- A collapsed state has the norm one. -/
lemma totalProbability_collapsed (ha : a ∈ s.amplitudes) :
    totalProbability (s.amplitudes.map fun b => (⟨b.basisLabel,
      if b.basisLabel = a.basisLabel then PyComplex.ofReal 1 else .ofReal 0⟩ : Amplitude R))
      = 1 := by
  have hborn : ∀ label : String, Amplitude.probability (⟨label,
      if label = a.basisLabel then PyComplex.ofReal 1 else .ofReal 0⟩ : Amplitude R)
      = if label = a.basisLabel then 1 else 0 := by
    intro label
    rw [Amplitude.probability, PyComplex.born_eq]
    split <;> simp [PyComplex.ofReal]
  have hsum : ((s.amplitudes.map (·.basisLabel)).map fun label =>
      if label = a.basisLabel then (1 : R) else 0).sum = 1 := by
    rw [← List.sum_toFinset _ s.labels_nodup, Finset.sum_ite_eq', if_pos]
    exact List.mem_toFinset.mpr (List.mem_map_of_mem ha)
  rw [List.map_map] at hsum
  rw [totalProbability, List.map_map]
  refine Eq.trans (congrArg List.sum (List.map_congr_left fun b _ => ?_)) hsum
  exact hborn b.basisLabel

/-- **What the constructors accept**: every collapsed state without an empty label, and every
result with a probability up to the tolerance. -/
theorem accepts_iff [ExactMathLibrary R] (ha : a ∈ s.amplitudes) :
    s.Accepts a ↔ "" ∉ s.amplitudes.map (·.basisLabel) ∧ a.probability ≤ 1 + 1e-10 := by
  have hnonneg : 0 ≤ a.probability := a.value.born_nonneg
  rw [accepts_iff_declarable ha, Amplitude.Declarable, and_iff_right hnonneg]

end StateVector

/-! ### Measurements -/

namespace ProjectiveMeasurementPolicy

variable [ExactMathLibrary R] {s : StateVector R} {seed : ℤ}

/-- **Returning.**  A measurement returns if the seed fits, no label is empty, and the label where
the draw falls does not have too large a probability. -/
theorem measure_returns_iff :
    (∃ result, measure s seed = .ok result) ↔
      Fits64 seed ∧ "" ∉ s.amplitudes.map (·.basisLabel) ∧
        ∃ a, s.FallsOn seed a ∧ a.probability ≤ 1 + 1e-10 := by
  constructor
  · rintro ⟨result, h⟩
    obtain ⟨hseed, a, hfalls, haccepts, -⟩ := of_measure_ok h
    obtain ⟨hempty, hle⟩ := (StateVector.accepts_iff hfalls.mem).mp haccepts
    exact ⟨hseed, hempty, a, hfalls, hle⟩
  · rintro ⟨hseed, hempty, a, hfalls, hle⟩
    obtain ⟨result, h, -⟩ :=
      measure_ok hseed hfalls ((StateVector.accepts_iff hfalls.mem).mpr ⟨hempty, hle⟩)
    exact ⟨result, h⟩

/-- **Admission.**  A state that the constructor accepts passes the checks of the norm and can be
measured with the seed exactly if the distance of its norm from one, times the norm and one, is
within the tolerance, the seed fits, and no label is empty. -/
theorem admitted_iff (s : StateVector R) (seed : ℤ) :
    (checkNormConservation s = .ok () ∧ checkProbabilityNormalization s = .ok () ∧
        ∃ result, measure s seed = .ok result) ↔
      Fits64 seed ∧ "" ∉ s.amplitudes.map (·.basisLabel) ∧
        |computeNorm s.amplitudes - 1| * (computeNorm s.amplitudes + 1) ≤ 1e-10 := by
  have htotal : pySum (s.amplitudes.map Amplitude.probability) = totalProbability s.amplitudes :=
    pySum_eq_sum _
  rw [← abs_totalProbability_sub_one, measure_returns_iff, checkNormConservation,
    checkProbabilityNormalization, htotal]
  constructor
  · rintro ⟨hnorm, -, hseed, hempty, -⟩
    refine ⟨hseed, hempty, ?_⟩
    by_contra hnear
    have hfar : PyFloat.abs (totalProbability s.amplitudes - 1) > 1e-10 := not_le.mp hnear
    rw [if_pos hfar] at hnorm
    exact absurd hnorm (by simp)
  · rintro ⟨hseed, hempty, hnear⟩
    obtain ⟨a, hfalls⟩ := s.exists_fallsOn hseed
    refine ⟨if_neg (not_lt.mpr hnear), if_neg (not_lt.mpr hnear), hseed, hempty, a, hfalls, ?_⟩
    -- no probability is larger than their sum
    have hle : a.probability ≤ totalProbability s.amplitudes :=
      List.single_le_sum s.probability_nonneg _ (List.mem_map_of_mem hfalls.mem)
    have habs := (abs_le.mp hnear).2
    linarith

/-- A state of the real numbers with one label. -/
noncomputable def realKet : StateVector ℝ where
  amplitudes := [⟨"0", ⟨1, 0⟩⟩]
  amplitudes_ne := List.cons_ne_nil _ _
  labels_nodup := List.nodup_singleton _
  norm_near := by
    have htotal : totalProbability [(⟨"0", ⟨1, 0⟩⟩ : Amplitude ℝ)] = 1 := by
      simp [totalProbability, Amplitude.probability, PyComplex.born_eq]
    exact norm_near_of_totalProbability htotal

/-- A state of the real numbers with the probabilities 9/25 and 16/25. -/
noncomputable def threeFour : StateVector ℝ where
  amplitudes := [⟨"0", .ofReal (3 / 5)⟩, ⟨"1", .ofReal (4 / 5)⟩]
  amplitudes_ne := List.cons_ne_nil _ _
  labels_nodup := by simp
  norm_near := by
    have htotal : totalProbability [(⟨"0", .ofReal (3 / 5)⟩ : Amplitude ℝ),
        ⟨"1", .ofReal (4 / 5)⟩] = 1 := by
      simp only [totalProbability, Amplitude.probability, PyComplex.born_eq, List.map_cons,
        List.map_nil, List.sum_cons, List.sum_nil]
      norm_num [PyComplex.ofReal]
    exact norm_near_of_totalProbability htotal

lemma totalProbability_realKet : totalProbability realKet.amplitudes = 1 := by
  simp [totalProbability, realKet, Amplitude.probability, PyComplex.born_eq]

theorem realKet_admitted :
    checkNormConservation realKet = .ok () ∧ checkProbabilityNormalization realKet = .ok () ∧
      ∃ result, measure realKet 0 = .ok result := by
  refine (admitted_iff realKet 0).mpr ⟨by decide, by simp [realKet], ?_⟩
  rw [computeNorm_eq_one totalProbability_realKet]
  norm_num

/-- A state whose norm is too large by nine tenths of the tolerance. -/
def nearKet : StateVector ℚ where
  amplitudes := [⟨"0", ⟨1 + 9e-11, 0⟩⟩]
  amplitudes_ne := by decide
  labels_nodup := by decide
  norm_near := by decide +kernel

/-- The state is accepted, is reported by both checks, and cannot be measured. -/
theorem nearKet_not_admitted :
    checkNormConservation nearKet ≠ .ok () ∧ checkProbabilityNormalization nearKet ≠ .ok () ∧
      (measure nearKet 0).isOk = false := by
  decide +kernel

/-- A state that a measurement has left can be measured again, with the same outcome. -/
lemma Projects.measure_postState {result : MeasurementResult R} (h : Projects s seed result)
    {seed' : ℤ} (hseed' : Fits64 seed') :
    ∃ again, measure result.postState seed' = .ok again ∧ again.outcome = result.outcome ∧
      again.confidence = 1 ∧ again.informationLossDeclared = 0 := by
  have hbasis := h.isBasisState
  have hempty : "" ∉ result.postState.amplitudes.map (·.basisLabel) := by
    have hkeys := (StateVector.exists_new_iff.mp ⟨_, h.postState_eq⟩).2.1
    rwa [← StateVector.asDict_of_new h.postState_eq, Dict.keys, StateVector.asDict,
      List.map_map] at hkeys
  obtain ⟨a, hfalls⟩ := result.postState.exists_fallsOn hseed'
  have hle : a.probability ≤ 1 + 1e-10 := by
    have hp := hbasis.probability_eq _ (List.mem_map_of_mem hfalls.mem)
    dsimp only at hp
    rw [hp]
    split <;> norm_num
  obtain ⟨again, hagain⟩ := measure_returns_iff.mpr ⟨hseed', hempty, a, hfalls, hle⟩
  have hprojects := projects_of_measure hagain
  obtain ⟨houtcome, hconfidence⟩ := hprojects.eq_of_isBasisState hbasis
  exact ⟨again, hagain, houtcome, hconfidence, hprojects.loss_eq_zero hbasis⟩

omit [ExactMathLibrary R] in
/-- The label on which the draw falls is possible, and not too probable, exactly if the draw is in
front of the end of the sum or the last label is possible, and every label that is too probable
stands behind labels on which the draw falls. -/
lemma exists_possible_iff (s : StateVector R) (hseed : Fits64 seed) :
    (∃ a, s.FallsOn seed a ∧ 0 < a.probability ∧ a.probability ≤ 1 + 1e-10) ↔
      (draw seed s.probabilities < totalProbability s.amplitudes ∨
        0 < (s.amplitudes.getLast s.amplitudes_ne).probability) ∧
      ∀ (k : ℕ) (hk : k < s.amplitudes.length), 1 + 1e-10 < s.amplitudes[k].probability →
        draw seed s.probabilities < totalProbability (s.amplitudes.take k) := by
  obtain ⟨hr, hr'⟩ := draw_mem seed s.probabilities
  have hlt : draw seed s.probabilities < 1 + 1e-10 := lt_trans hr' (by norm_num)
  obtain ⟨a, j, ha, hat⟩ := s.exists_fallsOn hseed
  obtain ⟨hj, rfl⟩ := List.getElem?_eq_some_iff.mp ha
  have hj' : j < s.probabilities.length := by rwa [StateVector.probabilities, List.length_map]
  have hpos := hat.pos_iff s.probability_nonneg hr hj'
  have hle := hat.le_iff s.probability_nonneg hr hj' hlt
  simp only [StateVector.probabilities, List.getElem_map, List.getLast_map, List.length_map,
    ← List.map_take] at hpos hle
  constructor
  · rintro ⟨b, ⟨i, hb, hat'⟩, hbpos, hble⟩
    -- the draw falls on one label only
    obtain rfl : i = j := hat'.unique hat
    obtain rfl : s.amplitudes[i] = b := Option.some.inj (ha.symm.trans hb)
    exact ⟨hpos.mp hbpos, hle.mp hble⟩
  · rintro ⟨hlast, hlong⟩
    exact ⟨s.amplitudes[j], ⟨j, ha, hat⟩, hpos.mpr hlast, hle.mpr hlong⟩

/-- **Measuring twice.**  The outcome of a measurement is possible, and measured again it is the
same, with confidence one and without loss, exactly if both seeds fit, no label is empty, the draw
is in front of the end of the sum or the last label is possible, and every label that is too
probable stands behind labels on which the draw falls. -/
theorem measured_twice_iff (s : StateVector R) (seed seed' : ℤ) :
    (∃ result again, measure s seed = .ok result ∧
        (∃ a ∈ s.amplitudes, a.basisLabel = result.outcome ∧ 0 < a.probability) ∧
        measure result.postState seed' = .ok again ∧ again.outcome = result.outcome ∧
        again.confidence = 1 ∧ again.informationLossDeclared = 0) ↔
      Fits64 seed ∧ Fits64 seed' ∧ "" ∉ s.amplitudes.map (·.basisLabel) ∧
        (draw seed s.probabilities < totalProbability s.amplitudes ∨
          0 < (s.amplitudes.getLast s.amplitudes_ne).probability) ∧
        ∀ (k : ℕ) (hk : k < s.amplitudes.length), 1 + 1e-10 < s.amplitudes[k].probability →
          draw seed s.probabilities < totalProbability (s.amplitudes.take k) := by
  constructor
  · rintro ⟨result, again, hmeasure, ⟨a, ha, hlabel, hpos⟩, hagain, -⟩
    obtain ⟨hseed, b, hfalls, haccepts, houtcome, -⟩ := of_measure_ok hmeasure
    obtain ⟨hempty, hle⟩ := (StateVector.accepts_iff hfalls.mem).mp haccepts
    -- no label occurs twice, so the outcome fixes the amplitude
    obtain rfl : a = b := List.inj_on_of_nodup_map s.labels_nodup ha hfalls.mem
      (hlabel.trans houtcome)
    exact ⟨hseed, (of_measure_ok hagain).1, hempty,
      (exists_possible_iff s hseed).mp ⟨a, hfalls, hpos, hle⟩⟩
  · rintro ⟨hseed, hseed', hempty, hpossible⟩
    obtain ⟨a, hfalls, hpos, hle⟩ := (exists_possible_iff s hseed).mpr hpossible
    obtain ⟨result, hmeasure, houtcome⟩ :=
      measure_ok hseed hfalls ((StateVector.accepts_iff hfalls.mem).mpr ⟨hempty, hle⟩)
    obtain ⟨again, hagain, hsame, hconfidence, hloss⟩ :=
      (projects_of_measure hmeasure).measure_postState hseed'
    exact ⟨result, again, hmeasure, ⟨a, hfalls.mem, houtcome.symm, hpos⟩, hagain, hsame,
      hconfidence, hloss⟩

theorem realKet_measured_twice :
    ∃ result again, measure realKet 0 = .ok result ∧
      (∃ a ∈ realKet.amplitudes, a.basisLabel = result.outcome ∧ 0 < a.probability) ∧
      measure result.postState 7 = .ok again ∧ again.outcome = result.outcome ∧
      again.confidence = 1 ∧ again.informationLossDeclared = 0 := by
  refine (measured_twice_iff realKet 0 7).mpr
    ⟨by decide, by decide, by simp [realKet], Or.inl ?_, fun k hk hlong => ?_⟩
  · rw [totalProbability_realKet]
    exact (draw_mem 0 realKet.probabilities).2
  · have hle : realKet.amplitudes[k].probability ≤ totalProbability realKet.amplitudes :=
      List.single_le_sum realKet.probability_nonneg _ (List.mem_map_of_mem (List.getElem_mem hk))
    rw [totalProbability_realKet] at hle
    exact absurd (hlong.trans_le hle) (by norm_num)

/-- The functions over the fractions, with a digest that is always the largest one. -/
@[reducible] def largestDigest : MathLibrary ℚ :=
  { rationalLibrary with digest64 := fun _ _ => Fin.last _ }

/-- In a state whose norm is too small by nine tenths of the tolerance, the largest draw falls on
the last label, which is impossible. -/
theorem impossible_outcome :
    letI : PyFloat ℚ := @exactFloat ℚ _ _ largestDigest
    ∃ (state : StateVector ℚ) (result : MeasurementResult ℚ),
      state.amplitudes = [⟨"0", ⟨1 - 9e-11, 0⟩⟩, ⟨"1", ⟨0, 0⟩⟩] ∧ measure state 0 = .ok result ∧
        result.outcome = "1" ∧ result.confidence = 0 := by
  let : PyFloat ℚ := @exactFloat ℚ _ _ largestDigest
  let state : StateVector ℚ := ⟨[⟨"0", ⟨1 - 9e-11, 0⟩⟩, ⟨"1", ⟨0, 0⟩⟩], by decide, by decide,
    by decide +kernel⟩
  have hmeasured : (measure state 0).toOption.map
      (fun result => (result.outcome, result.confidence)) = some ("1", 0) := by decide +kernel
  obtain ⟨result, hresult, hshown⟩ := exists_of_toOption_map hmeasured
  obtain ⟨houtcome, hconfidence⟩ := Prod.mk.inj hshown
  exact ⟨state, result, rfl, hresult, houtcome, hconfidence⟩

end ProjectiveMeasurementPolicy

end QuantumFoundation
