import QuantumFoundation.Quantum.CollapseHistory

/-!
# Where the draw falls

A measurement walks through the labels in the order in which they were inserted, and stops where
the sum of their probabilities exceeds the draw; if it never does, the last label is taken.  What
the measurement returns is the label where the draw falls, provided that the constructors accept
the collapsed state and the result.  Nothing is assumed of the floats here.
-/

namespace QuantumFoundation

variable {R : Type*} [PyFloat R]

/-! ### The walk -/

/-- The seed fits into 64 bits. -/
def Fits64 (seed : ℤ) : Prop := -2 ^ 63 ≤ seed ∧ seed < 2 ^ 63

instance (seed : ℤ) : Decidable (Fits64 seed) :=
  inferInstanceAs (Decidable (-2 ^ 63 ≤ seed ∧ seed < 2 ^ 63))

/-- The draw for a seed and a list of probabilities. -/
def draw (seed : ℤ) (probabilities : List R) : R :=
  PyFloat.truediv (PyFloat.digest64 seed probabilities).val (16 ^ 16)

/-- With the number at the position the sum exceeds the draw for the first time. -/
structure FirstAbove (r : R) (l : List R) (j : ℕ) : Prop where
  lt_length : j < l.length
  above : r < pySum (l.take (j + 1))
  before : ∀ i < j, ¬r < pySum (l.take (i + 1))

/-- The sum does not exceed the draw. -/
def NeverAbove (r : R) (l : List R) : Prop := ∀ i < l.length, ¬r < pySum (l.take (i + 1))

/-- The draw falls on the position: where the sum exceeds it, or at the end if it never does. -/
def FallsAt (r : R) (l : List R) (j : ℕ) : Prop :=
  FirstAbove r l j ∨ NeverAbove r l ∧ j + 1 = l.length

/-- **The loop**, after some numbers that did not stop it. -/
theorem sampleLoop_cases (r : R) (pre l : List R) :
    (sampleLoop r pre.length (pySum pre) l = none ∧
      ∀ i < l.length, ¬r < pySum (pre ++ l.take (i + 1))) ∨
    ∃ j, sampleLoop r pre.length (pySum pre) l = some (pre.length + j) ∧ j < l.length ∧
      r < pySum (pre ++ l.take (j + 1)) ∧ ∀ i < j, ¬r < pySum (pre ++ l.take (i + 1)) := by
  induction l generalizing pre with
  | nil => exact Or.inl ⟨rfl, fun i hi => absurd hi (Nat.not_lt_zero i)⟩
  | cons p l ih =>
    have hsum : pySum (pre ++ [p]) = pySum pre + p := by simp [pySum]
    have htake : ∀ i, pre ++ (p :: l).take (i + 1) = pre ++ [p] ++ l.take i := by simp
    simp only [sampleLoop, htake, ← hsum]
    by_cases hp : r < pySum (pre ++ [p])
    · refine Or.inr ⟨0, if_pos hp, Nat.zero_lt_succ _, ?_,
        fun i hi => absurd hi (Nat.not_lt_zero i)⟩
      rwa [List.take_zero, List.append_nil]
    · rw [if_neg hp]
      -- the walk goes on behind the number
      have hzero : ¬r < pySum (pre ++ [p] ++ l.take 0) := by
        rwa [List.take_zero, List.append_nil]
      have hlength : (pre ++ [p]).length = pre.length + 1 := by simp
      rcases ih (pre ++ [p]) with ⟨hnone, hnever⟩ | ⟨j, hsome, hj, habove, hbefore⟩
      · rw [hlength] at hnone
        refine Or.inl ⟨hnone, fun i hi => ?_⟩
        cases i with
        | zero => exact hzero
        | succ i => exact hnever i (Nat.lt_of_succ_lt_succ hi)
      · rw [hlength, Nat.add_assoc, Nat.add_comm 1 j] at hsome
        refine Or.inr ⟨j + 1, hsome, Nat.succ_lt_succ hj, habove, fun i hi => ?_⟩
        cases i with
        | zero => exact hzero
        | succ i => exact hbefore i (Nat.lt_of_succ_lt_succ hi)

/-- The sum exceeds the draw for the first time at one position only. -/
lemma FirstAbove.unique {r : R} {l : List R} {i j : ℕ} (hi : FirstAbove r l i)
    (hj : FirstAbove r l j) : i = j := by
  rcases Nat.lt_trichotomy i j with hlt | heq | hgt
  · exact absurd hi.above (hj.before i hlt)
  · exact heq
  · exact absurd hj.above (hi.before j hgt)

/-- The draw falls on one position only. -/
lemma FallsAt.unique {r : R} {l : List R} {i j : ℕ} (hi : FallsAt r l i) (hj : FallsAt r l j) :
    i = j := by
  rcases hi with hi | ⟨hnever, hi⟩
  · rcases hj with hj | ⟨hnever, -⟩
    · exact hi.unique hj
    · exact absurd hi.above (hnever i hi.lt_length)
  · rcases hj with hj | ⟨-, hj⟩
    · exact absurd hj.above (hnever j hj.lt_length)
    · exact Nat.succ.inj (hi.trans hj.symm)

/-- **Sampling.**  The position that is returned is the one where the draw falls. -/
theorem seededSample_eq_ok_iff {probabilities : List R} (hne : probabilities ≠ []) {seed : ℤ}
    {idx : ℕ} :
    seededSample probabilities seed = .ok idx ↔
      Fits64 seed ∧ FallsAt (draw seed probabilities) probabilities idx := by
  have hfalls : FallsAt (draw seed probabilities) probabilities
      ((sampleLoop (draw seed probabilities) 0 0 probabilities).getD
        (probabilities.length - 1)) := by
    have hlength : 0 < probabilities.length := List.length_pos_iff.mpr hne
    rcases sampleLoop_cases (draw seed probabilities) [] probabilities with
      ⟨hnone, hnever⟩ | ⟨j, hsome, hj, habove, hbefore⟩
    · have hloop : sampleLoop (draw seed probabilities) 0 0 probabilities = none := hnone
      rw [hloop]
      exact Or.inr ⟨hnever, Nat.sub_add_cancel hlength⟩
    · rw [List.length_nil, Nat.zero_add] at hsome
      have hloop : sampleLoop (draw seed probabilities) 0 0 probabilities = some j := hsome
      rw [hloop]
      exact Or.inl ⟨hj, habove, hbefore⟩
  by_cases hseed : Fits64 seed
  · rw [show seededSample probabilities seed = .ok _ from if_pos hseed]
    constructor
    · intro h
      rw [← Except.ok.inj h]
      exact ⟨hseed, hfalls⟩
    · intro h
      exact congrArg Except.ok (hfalls.unique h.2)
  · rw [show seededSample probabilities seed = .error _ from if_neg hseed]
    exact iff_of_false (by simp) fun h => hseed h.1

/-! ### Zero and one -/

/-- What the standard of the floats says of zero and one. -/
class UnitArithmetic (R : Type*) [PyFloat R] : Prop where
  born_one : (1 : R) * 1 - 0 * -0 = 1
  born_zero : (0 : R) * 0 - 0 * -0 = 0
  zero_add_zero : (0 : R) + 0 = 0
  zero_add_one : (0 : R) + 1 = 1
  one_add_zero : (1 : R) + 0 = 1
  sqrt_one : PyFloat.sqrt (1 : R) = 1
  abs_one_sub_one_le : ¬PyFloat.abs ((1 : R) - 1) > 1e-10
  zero_not_lt : ¬(0 : R) < -1e-10
  pos_not_lt : ∀ x : R, 0 < x → ¬x < -1e-10

section UnitArithmetic

variable [UnitArithmetic R]

lemma pyMax_zero_not_lt (x : R) : ¬pyMax 0 x < -1e-10 := by
  rw [pyMax]
  split
  · next hpos => exact UnitArithmetic.pos_not_lt x hpos
  · exact UnitArithmetic.zero_not_lt

/-- The sum of zeros and a single one. -/
lemma pySum_indicator {labels : List String} (hnodup : labels.Nodup) {label : String}
    (hmem : label ∈ labels) :
    pySum (labels.map fun l => if l = label then (1 : R) else 0) = 1 := by
  have hzeros : ∀ (x : R) (labels : List String), x + 0 = x → label ∉ labels →
      (labels.map fun l => if l = label then (1 : R) else 0).foldl (· + ·) x = x := by
    intro x labels hx hnotin
    induction labels with
    | nil => rfl
    | cons l labels ih =>
      obtain ⟨hne, hnotin⟩ := not_or.mp (mt List.mem_cons.mpr hnotin)
      rw [List.map_cons, List.foldl_cons, if_neg (Ne.symm hne), hx]
      exact ih hnotin
  show (labels.map _).foldl (· + ·) 0 = 1
  induction labels with
  | nil => exact absurd hmem List.not_mem_nil
  | cons l labels ih =>
    obtain ⟨hnotin, hnodup⟩ := List.nodup_cons.mp hnodup
    rw [List.map_cons, List.foldl_cons]
    by_cases hl : l = label
    · rw [if_pos hl, UnitArithmetic.zero_add_one]
      exact hzeros 1 labels UnitArithmetic.one_add_zero (hl ▸ hnotin)
    · rw [if_neg hl, UnitArithmetic.zero_add_zero]
      exact ih hnodup (List.mem_of_ne_of_mem (Ne.symm hl) hmem)

end UnitArithmetic

/-! ### The measurement -/

/-- A probability that a result can declare. -/
def Amplitude.Declarable (a : Amplitude R) : Prop :=
  0 ≤ a.probability ∧ a.probability ≤ 1 + 1e-10

namespace StateVector

/-- The probabilities of the labels, in their order. -/
def probabilities (s : StateVector R) : List R := s.amplitudes.map Amplitude.probability

lemma probabilities_ne (s : StateVector R) : s.probabilities ≠ [] :=
  List.map_eq_nil_iff.not.mpr s.amplitudes_ne

/-- The draw for the seed falls on the label of the amplitude. -/
def FallsOn (s : StateVector R) (seed : ℤ) (a : Amplitude R) : Prop :=
  ∃ j, s.amplitudes[j]? = some a ∧ FallsAt (draw seed s.probabilities) s.probabilities j

/-- The constructors accept the state that is collapsed to the label of the amplitude, and the
result for it. -/
def Accepts (s : StateVector R) (a : Amplitude R) : Prop :=
  ∃ postState, new (collapsedAmplitudes (s.amplitudes.map (·.basisLabel)) a.basisLabel)
      = .ok postState ∧
    (0 ≤ a.probability ∧ a.probability ≤ 1 + 1e-10) ∧
    ¬pyMax 0 (informationLossAfterCollapse s postState) < -1e-10

/-- **What the constructors accept**: every collapsed state without an empty label, and every
result with a probability that it can declare. -/
theorem accepts_iff_declarable [UnitArithmetic R] {s : StateVector R} {a : Amplitude R}
    (ha : a ∈ s.amplitudes) :
    s.Accepts a ↔ "" ∉ s.amplitudes.map (·.basisLabel) ∧ a.Declarable := by
  have hentries := s.entries_collapsedAmplitudes a.basisLabel
  have hkeys : (collapsedAmplitudes (s.amplitudes.map (·.basisLabel)) a.basisLabel
      : Dict String (PyComplex R)).keys = s.amplitudes.map (·.basisLabel) := by
    rw [Dict.keys, hentries, List.map_map]
    rfl
  -- the norm of the collapsed state is the root of a sum of zeros and a single one
  have hborn : ∀ label : String, Amplitude.probability (⟨label,
      if label = a.basisLabel then PyComplex.ofReal 1 else .ofReal 0⟩ : Amplitude R)
      = if label = a.basisLabel then 1 else 0 := by
    intro label
    rw [Amplitude.probability]
    split
    · exact UnitArithmetic.born_one
    · exact UnitArithmetic.born_zero
  have hnorm : computeNorm ((collapsedAmplitudes (s.amplitudes.map (·.basisLabel)) a.basisLabel
      : Dict String (PyComplex R)).entries.map fun p => (⟨p.1, p.2⟩ : Amplitude R)) = 1 := by
    have hsum := pySum_indicator (R := R) s.labels_nodup
      (List.mem_map_of_mem (f := (·.basisLabel)) ha)
    rw [computeNorm, hentries, List.map_map, List.map_map]
    rw [List.map_map] at hsum
    rw [List.map_congr_left fun b _ => hborn b.basisLabel]
    exact (congrArg PyFloat.sqrt hsum).trans UnitArithmetic.sqrt_one
  constructor
  · rintro ⟨postState, hpost, hdeclarable, -⟩
    have hempty := (exists_new_iff.mp ⟨postState, hpost⟩).2.1
    rw [hkeys] at hempty
    exact ⟨hempty, hdeclarable⟩
  · rintro ⟨hempty, hdeclarable⟩
    obtain ⟨postState, hpost⟩ : ∃ postState : StateVector R,
        new (collapsedAmplitudes (s.amplitudes.map (·.basisLabel)) a.basisLabel)
          = .ok postState := by
      refine exists_new_iff.mpr ⟨?_, ?_, ?_⟩
      · rw [hentries]
        exact List.map_eq_nil_iff.not.mpr s.amplitudes_ne
      · rwa [hkeys]
      · rw [hnorm]
        exact UnitArithmetic.abs_one_sub_one_le
    exact ⟨postState, hpost, hdeclarable, pyMax_zero_not_lt _⟩

lemma FallsOn.mem {s : StateVector R} {seed : ℤ} {a : Amplitude R} (h : s.FallsOn seed a) :
    a ∈ s.amplitudes := by
  obtain ⟨j, hj, -⟩ := h
  exact List.mem_of_getElem? hj

/-- The draw falls on one label only. -/
lemma FallsOn.unique {s : StateVector R} {seed : ℤ} {a b : Amplitude R} (ha : s.FallsOn seed a)
    (hb : s.FallsOn seed b) : a = b := by
  obtain ⟨i, hi, hat⟩ := ha
  obtain ⟨j, hj, hat'⟩ := hb
  obtain rfl : i = j := hat.unique hat'
  exact Option.some.inj (hi.symm.trans hj)

/-- The draw falls on some label. -/
lemma exists_fallsOn (s : StateVector R) {seed : ℤ} (hseed : Fits64 seed) :
    ∃ a, s.FallsOn seed a := by
  obtain ⟨idx, hidx⟩ : ∃ idx, seededSample s.probabilities seed = .ok idx := ⟨_, if_pos hseed⟩
  have hfalls := ((seededSample_eq_ok_iff s.probabilities_ne).mp hidx).2
  have hlt : idx < s.amplitudes.length := by
    rw [← List.length_map Amplitude.probability]
    rcases hfalls with hfirst | ⟨-, hlast⟩
    · exact hfirst.lt_length
    · exact Nat.lt_of_succ_le hlast.le
  exact ⟨s.amplitudes[idx], idx, List.getElem?_eq_getElem hlt, hfalls⟩

end StateVector

namespace ProjectiveMeasurementPolicy

variable {s t : StateVector R} {seed : ℤ} {a : Amplitude R}

/-- A measurement returns the label where the draw falls, if the constructors accept. -/
lemma measure_ok (hseed : Fits64 seed) (hfalls : s.FallsOn seed a) (haccepts : s.Accepts a) :
    ∃ result, measure s seed = .ok result ∧ result.outcome = a.basisLabel := by
  obtain ⟨idx, ha, hfalls⟩ := hfalls
  obtain ⟨postState, hpost, hconfidence, hloss⟩ := haccepts
  have hidx := (seededSample_eq_ok_iff s.probabilities_ne).mpr ⟨hseed, hfalls⟩
  rw [StateVector.probabilities] at hidx
  refine ⟨⟨a.basisLabel, a.probability, pyMax 0 (informationLossAfterCollapse s postState),
    postState, seed, name, hconfidence, hloss⟩, ?_, rfl⟩
  simp only [measure, hidx, ha, hpost, MeasurementResult.new, dif_pos hconfidence, dif_neg hloss]

/-- What is returned is the label where the draw falls, and the constructors have accepted. -/
lemma of_measure_ok {result : MeasurementResult R} (h : measure s seed = .ok result) :
    Fits64 seed ∧ ∃ a, s.FallsOn seed a ∧ s.Accepts a ∧ result.outcome = a.basisLabel ∧
      result.confidence = a.probability := by
  have hprojects := projects_of_measure h
  obtain ⟨idx, a, hidx, ha, houtcome, hconfidence⟩ := hprojects.selected
  obtain ⟨hseed, hfalls⟩ := (seededSample_eq_ok_iff s.probabilities_ne).mp hidx
  refine ⟨hseed, a, ⟨idx, ha, hfalls⟩, ⟨result.postState, ?_, ?_, ?_⟩, houtcome, hconfidence⟩
  · rw [← houtcome]
    exact hprojects.postState_eq
  · rw [← hconfidence]
    exact result.confidence_mem
  · rw [← hprojects.informationLossDeclared_eq]
    exact result.informationLossDeclared_ge

end ProjectiveMeasurementPolicy

end QuantumFoundation
