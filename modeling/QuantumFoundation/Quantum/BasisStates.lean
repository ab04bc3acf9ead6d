import QuantumFoundation.Quantum.CollapseHistory
import QuantumFoundation.Quantum.NoGo

/-!
# Basis states

A state is the basis state of a label, up to a phase, if that label has probability one and the
others have probability zero.  In exact arithmetic a projective measurement leaves the basis state
of its outcome behind; and in a basis state it gives the label of that state, whatever the seed,
with confidence one and without loss, which is what the guard of the no-go layer refuses.
-/

namespace QuantumFoundation

section Definitions

variable {R : Type*} [PyFloat R]

namespace StateVector

/-- The labels with their probabilities. -/
def distribution (s : StateVector R) : List (String × R) :=
  s.amplitudes.map fun a => (a.basisLabel, a.probability)

/-- The state is the basis state of the label, up to a phase. -/
structure IsBasisState (label : String) (s : StateVector R) : Prop where
  mem : (label, 1) ∈ s.distribution
  probability_eq : ∀ p ∈ s.distribution, p.2 = if p.1 = label then 1 else 0

lemma IsBasisState.congr {label : String} {s t : StateVector R} (h : s.IsBasisState label)
    (heq : t.distribution = s.distribution) : t.IsBasisState label :=
  ⟨heq ▸ h.mem, heq ▸ h.probability_eq⟩

lemma distribution_eq (s : StateVector R) :
    s.distribution = s.asDict.entries.map fun p => (p.1, p.2.born) := by
  rw [distribution, asDict, List.map_map]
  rfl

lemma map_snd_distribution (s : StateVector R) :
    s.distribution.map Prod.snd = s.amplitudes.map Amplitude.probability := by
  rw [distribution, List.map_map]
  rfl

end StateVector

/-- Measured in a basis state, the policy gives its label and leaves a basis state of that label:
what the check M4 asks for. -/
def MeasurementPolicy.Repeats (policy : MeasurementPolicy R) : Prop :=
  ∀ state label seed result, state.IsBasisState label → policy.measure state seed = .ok result →
    result.outcome = label ∧ result.postState.IsBasisState label

end Definitions

section Exact

variable {R : Type*} [Field R] [LinearOrder R] [MathLibrary R]

namespace PyComplex

lemma born_eq (z : PyComplex R) : z.born = z.re * z.re + z.im * z.im := by
  show z.re * z.re - z.im * -z.im = _
  ring

lemma born_mul (z w : PyComplex R) : (z * w).born = z.born * w.born := by
  rw [born_eq, born_eq, born_eq]
  show (z.re * w.re - z.im * w.im) * (z.re * w.re - z.im * w.im)
    + (z.re * w.im + z.im * w.re) * (z.re * w.im + z.im * w.re) = _
  ring

/-- A phase does not change a probability. -/
lemma born_mul_expI [LawfulMathLibrary R] (z : PyComplex R) (x : R) :
    (z * expI x).born = z.born := by
  rw [born_mul, born_eq (expI x)]
  exact (congrArg (z.born * ·) (LawfulMathLibrary.expI_unit x)).trans (mul_one _)

end PyComplex

/-! ### Noise -/

/-- Noise leaves the probabilities as they are. -/
lemma map_born_noisyAmplitudes [LawfulMathLibrary R] (idealState : StateVector R)
    (errorPhase : R) :
    ((ErrorEnforcementEngine.noisyAmplitudes idealState errorPhase).entries.map fun p =>
      (p.1, p.2.born)) = idealState.distribution := by
  rw [StateVector.distribution_eq, ErrorEnforcementEngine.noisyAmplitudes]
  split
  · next hnil => rw [hnil]; rfl
  · next k v rest hcons =>
    dsimp only
    rw [hcons, List.map_cons, List.map_cons, PyComplex.born_mul_expI]

lemma distribution_noisy [LawfulMathLibrary R] {idealState physicalState : StateVector R}
    {errorPhase : R} (h : StateVector.new
      (ErrorEnforcementEngine.noisyAmplitudes idealState errorPhase) = .ok physicalState) :
    physicalState.distribution = idealState.distribution := by
  rw [StateVector.distribution_eq, StateVector.asDict_of_new h, map_born_noisyAmplitudes]

/-! ### Collapse -/

/-- **Collapse.**  The state that is left is the basis state of the outcome. -/
theorem ProjectiveMeasurementPolicy.Projects.isBasisState {state : StateVector R} {seed : ℤ}
    {result : MeasurementResult R} (h : Projects state seed result) :
    result.postState.IsBasisState result.outcome := by
  have hentries : result.postState.asDict.entries = state.amplitudes.map fun a =>
      (a.basisLabel,
        if a.basisLabel = result.outcome then PyComplex.ofReal 1 else PyComplex.ofReal 0) := by
    rw [StateVector.asDict_of_new h.postState_eq, state.entries_collapsedAmplitudes]
  have hdistribution : result.postState.distribution = state.amplitudes.map fun a =>
      (a.basisLabel, if a.basisLabel = result.outcome then 1 else 0) := by
    rw [StateVector.distribution_eq, hentries, List.map_map]
    refine List.map_congr_left fun a _ => Prod.ext rfl ?_
    dsimp only [Function.comp_apply]
    split
    · rw [PyComplex.born_eq]
      simp [PyComplex.ofReal]
    · rw [PyComplex.born_eq]
      simp [PyComplex.ofReal]
  obtain ⟨idx, a, -, ha, houtcome, -⟩ := h.selected
  constructor
  · rw [hdistribution]
    refine List.mem_map.mpr ⟨a, List.mem_of_getElem? ha, ?_⟩
    rw [houtcome, if_pos rfl]
  · rw [hdistribution]
    intro p hp
    obtain ⟨b, -, rfl⟩ := List.mem_map.mp hp
    rfl

/-! ### Sampling -/

/-- A draw below one falls on the label of the basis state: the labels before it add nothing to
the sum, and it adds one. -/
lemma sampleLoop_basis {label : String} {r : R} (hr : 0 ≤ r) (hr' : r < 1)
    {L : List (String × R)} (hmem : (label, 1) ∈ L)
    (h : ∀ p ∈ L, p.2 = if p.1 = label then 1 else 0) (i : ℕ) :
    ∃ j, sampleLoop r i 0 (L.map Prod.snd) = some (i + j) ∧ L[j]? = some (label, 1) := by
  induction L generalizing i with
  | nil => exact absurd hmem List.not_mem_nil
  | cons p L ih =>
    obtain ⟨l, q⟩ := p
    have hq : q = if l = label then 1 else 0 := h _ List.mem_cons_self
    rw [List.map_cons, sampleLoop]
    by_cases hl : l = label
    · -- the draw is below the sum as soon as the label has been added
      rw [if_pos hl] at hq
      refine ⟨0, ?_, by rw [hq, hl]; rfl⟩
      rw [hq, zero_add, if_pos hr', Nat.add_zero]
    · -- the sum is still zero, which no draw is below
      rw [if_neg hl] at hq
      have hne : (label, (1 : R)) ≠ (l, q) := fun heq => hl (congrArg Prod.fst heq).symm
      obtain ⟨j, hloop, hj⟩ := ih ((List.mem_cons.mp hmem).resolve_left hne)
        (fun x hx => h x (List.mem_cons_of_mem _ hx)) (i + 1)
      refine ⟨j + 1, ?_, hj⟩
      rw [hq, add_zero, if_neg hr.not_gt, hloop, Nat.add_right_comm, Nat.add_assoc]

variable [IsStrictOrderedRing R]

/-- The draw lies between zero and one. -/
lemma draw_mem (seed : ℤ) (probabilities : List R) :
    0 ≤ (PyFloat.truediv (PyFloat.digest64 seed probabilities).val (16 ^ 16) : R) ∧
      (PyFloat.truediv (PyFloat.digest64 seed probabilities).val (16 ^ 16) : R) < 1 := by
  have hlt := (PyFloat.digest64 seed probabilities).isLt
  have hpos : (0 : R) < ((16 ^ 16 : ℕ) : R) := Nat.cast_pos.mpr (by norm_num)
  constructor
  · exact div_nonneg (Nat.cast_nonneg _) hpos.le
  · exact (div_lt_one hpos).mpr (Nat.cast_lt.mpr hlt)

namespace ProjectiveMeasurementPolicy

variable {state : StateVector R} {seed : ℤ} {result : MeasurementResult R} {label : String}

/-- **Repeated measurement.**  In a basis state the outcome is its label. -/
theorem Projects.eq_of_isBasisState (h : Projects state seed result)
    (hs : state.IsBasisState label) : result.outcome = label ∧ result.confidence = 1 := by
  obtain ⟨idx, a, hsample, ha, houtcome, hconfidence⟩ := h.selected
  obtain ⟨hr, hr'⟩ := draw_mem seed (state.amplitudes.map Amplitude.probability)
  obtain ⟨j, hloop, hj⟩ := sampleLoop_basis hr hr' hs.mem hs.probability_eq 0
  rw [StateVector.map_snd_distribution, zero_add] at hloop
  rw [seededSample] at hsample
  split at hsample
  · simp only [hloop, Option.getD_some] at hsample
    rw [Except.ok.inj hsample, StateVector.distribution, List.getElem?_map, ha] at hj
    have hlabel : (a.basisLabel, a.probability) = (label, 1) := Option.some.inj hj
    rw [houtcome, hconfidence]
    exact Prod.mk.inj hlabel
  · exact absurd hsample (by simp)

/-- The policy passes the check M4. -/
lemma policy_repeats : (policy : MeasurementPolicy R).Repeats := by
  intro state label seed result hs hmeasure
  have hprojects := projects_of_measure hmeasure
  obtain ⟨houtcome, -⟩ := hprojects.eq_of_isBasisState hs
  exact ⟨houtcome, houtcome ▸ hprojects.isBasisState⟩

end ProjectiveMeasurementPolicy

/-! ### Entropy -/

/-- A basis state has no entropy. -/
lemma StateVector.IsBasisState.vonNeumannEntropy_eq [LawfulMathLibrary R] {label : String}
    {s : StateVector R} (hs : s.IsBasisState label) : vonNeumannEntropy s = 0 := by
  rw [vonNeumannEntropy]
  refine List.foldlRecOn (motive := (· = 0)) s.amplitudes _ rfl ?_
  intro entropy hentropy a ha
  have hp := hs.probability_eq _ (List.mem_map_of_mem ha)
  dsimp only at hp ⊢
  rw [hentropy, hp]
  split
  · -- the entropy of certainty
    split
    · have hlog : PyFloat.log2 (1 : R) = 0 := LawfulMathLibrary.log2_one
      rw [hlog, mul_zero, sub_zero]
    · rfl
  · have hsmall : ¬(0 : R) > 1e-15 := not_lt.mpr (by norm_num)
    rw [if_neg hsmall]

/-- The measurement of a basis state loses nothing. -/
lemma ProjectiveMeasurementPolicy.Projects.loss_eq_zero [LawfulMathLibrary R]
    {state : StateVector R} {seed : ℤ} {result : MeasurementResult R} {label : String}
    (h : Projects state seed result) (hs : state.IsBasisState label) :
    result.informationLossDeclared = 0 := by
  rw [h.informationLossDeclared_eq, informationLossAfterCollapse, hs.vonNeumannEntropy_eq,
    h.isBasisState.vonNeumannEntropy_eq, sub_zero, pyMax, if_neg (lt_irrefl _)]

/-- The guard refuses the measurement of a basis state. -/
lemma ProjectiveMeasurementPolicy.Projects.not_disturbs [LawfulMathLibrary R]
    {state : StateVector R} {seed : ℤ} {result : MeasurementResult R} {label : String}
    (h : Projects state seed result) (hs : state.IsBasisState label) :
    ¬NoGoEnforcementEngine.Disturbs result := by
  have hconfidence := (h.eq_of_isBasisState hs).2
  intro hdisturbs
  refine hdisturbs.1 ⟨?_, decide_eq_true (h.loss_eq_zero hs)⟩
  rw [hconfidence]
  exact one_pos

end Exact

end QuantumFoundation
