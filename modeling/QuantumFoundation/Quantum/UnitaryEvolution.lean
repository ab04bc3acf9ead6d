import QuantumFoundation.Lib.Run
import QuantumFoundation.Quantum.HarnessSteps
import QuantumFoundation.Quantum.UnitaryRules

/-!
# Evolving by unitary matrices

A harness whose rules have unitary matrices over the labels of its initial state evolves as plain
matrix algebra says: after every run the vector of the state is the product of the matrices, in the
order of the evolutions, and the initial vector.  The labels and the norm stay as they are, and the
conjugate transpose of a matrix undoes it.  The sparse vectors, which drop the zeros and are given
them back, and the three checks with a tolerance make no difference.
-/

open scoped Matrix

namespace QuantumFoundation

/-- The rules of the evolutions among the calls, in their order. -/
def evolutions {R : Type*} (calls : List (HarnessCall R)) : List String :=
  calls.filterMap fun
    | .evolveDeterministic ruleName => some ruleName
    | _ => none

namespace FullStackHarness

variable {R ω κ : Type*} [Field R] [LinearOrder R] [MathLibrary R]

/-- What the run may call: a matrix that is registered is unitary over the labels, and an evolution
is by a rule that is registered, under a name that is not empty. -/
def Lawful (O : SetOrder) (labels : Finset String)
    (matrixOf : String → Dict (String × String) (PyComplex R)) (harness : FullStackHarness R ω κ) :
    HarnessCall R → Prop
  | .defineUnitaryOperation ruleName matrix description =>
    (harness.defineUnitaryOperation O ruleName matrix description).2.isOk = true →
      matrixOf ruleName = matrix ∧ UnitaryOver labels matrix
  | .evolveDeterministic ruleName =>
    ruleName ≠ "" ∧ ruleName ∈ harness.nogoLayer.stateEngine.rules.keys
  | _ => True

/-- An evolution does not raise. -/
def Evolves (harness : FullStackHarness R ω κ) : HarnessCall R → Prop
  | .evolveDeterministic ruleName => (harness.evolveDeterministic ruleName).2.isOk = true
  | _ => True

/-- The product of the matrices of the rules, of which the first one is applied first. -/
def productOf (labels : Finset String)
    (matrixOf : String → Dict (String × String) (PyComplex R)) (ruleNames : List String) :
    Matrix labels labels (PyComplex R) :=
  (ruleNames.map fun ruleName => (matrixOf ruleName).toMatrix labels).reverse.prod

@[simp] lemma productOf_nil (labels : Finset String)
    (matrixOf : String → Dict (String × String) (PyComplex R)) :
    productOf labels matrixOf [] = 1 := rfl

/-- The matrices of the later rules stand in front. -/
lemma productOf_append (labels : Finset String)
    (matrixOf : String → Dict (String × String) (PyComplex R)) (l m : List String) :
    productOf labels matrixOf (l ++ m)
      = productOf labels matrixOf m * productOf labels matrixOf l := by
  rw [productOf, List.map_append, List.reverse_append, List.prod_append]
  rfl

/-- The vector of the current state. -/
def vector (labels : Finset String) (harness : FullStackHarness R ω κ) : labels → PyComplex R :=
  harness.state.asDict.toVec labels

/-- The invariant of a run: the labels and the norm are the initial ones, and the rules have
unitary matrices. -/
structure Unitary (O : SetOrder) (labels : Finset String)
    (matrixOf : String → Dict (String × String) (PyComplex R)) (initialState : StateVector R)
    (harness : FullStackHarness R ω κ) : Prop extends Ready initialState harness where
  labels_eq : initialState.asDict.keys.toFinset = labels
  labels_ne : "" ∉ labels
  keys_eq : harness.state.asDict.keys = initialState.asDict.keys
  norm_eq : computeNorm harness.state.amplitudes = computeNorm initialState.amplitudes
  rules : ∀ ruleName reg, harness.nogoLayer.stateEngine.rules.get? ruleName = some reg →
    reg.rule = verifiedRule O (matrixOf ruleName) ∧ UnitaryOver labels (matrixOf ruleName)

variable {O : SetOrder} {labels : Finset String}
  {matrixOf : String → Dict (String × String) (PyComplex R)} {initialState : StateVector R}
  {harness : FullStackHarness R ω κ}

namespace Unitary

variable [IsStrictOrderedRing R] [ExactMathLibrary R]

/-- **Evolving** by a registered rule returns, and multiplies the vector by the matrix. -/
theorem evolve (h : harness.Unitary O labels matrixOf initialState) {ruleName : String}
    (hname : ruleName ≠ "") (hmem : ruleName ∈ harness.nogoLayer.stateEngine.rules.keys) :
    ∃ harness' ref, harness.evolveDeterministic ruleName = (harness', .ok ref) ∧
      harness'.Unitary O labels matrixOf initialState ∧
      harness'.nogoLayer.stateEngine.rules = harness.nogoLayer.stateEngine.rules ∧
      harness'.vector labels = (matrixOf ruleName).toMatrix labels *ᵥ harness.vector labels := by
  obtain ⟨reg, hreg⟩ : ∃ reg, harness.nogoLayer.stateEngine.rules.get? ruleName = some reg := by
    obtain ⟨reg, hentry⟩ := Dict.mem_keys.mp hmem
    exact ⟨reg, Dict.get?_eq_some.mpr hentry⟩
  obtain ⟨hrule, hunitary⟩ := h.rules ruleName reg hreg
  obtain ⟨t, ht, hkeys, hvector, hnorm⟩ := hunitary.verifiedRule_ok O
    ((congrArg List.toFinset h.keys_eq).trans h.labels_eq) h.labels_ne
    (⟨ruleName, [], hname⟩ : Observation ω)
  have hevolved : harness.evolved ruleName = some t := by
    have hdim : t.dimension = harness.state.dimension := by
      have hlength := congrArg List.length hkeys
      simpa [Dict.keys, StateVector.asDict, StateVector.dimension] using hlength
    have ht' : reg.rule harness.state ⟨ruleName, [], hname⟩ = .ok t := hrule ▸ ht
    rw [evolved, dif_neg hname, SovereignStateEngine.ruleResult, hreg, Option.bind_some]
    show (reg.rule harness.state ⟨ruleName, [], hname⟩).toOption.filter _ = some t
    rw [ht']
    exact Option.filter_eq_some_iff.mpr ⟨rfl, decide_eq_true hdim⟩
  rcases evolveDeterministic_cases (lt_irrefl 1) h.toReady ruleName with
    ⟨exc, -, hnone⟩ | ⟨harness', ref, event, observation, hr, hsome, hrules, hready, -⟩
  · exact absurd (hnone.symm.trans hevolved) (by simp)
  · have hstate : harness'.state = t := Option.some.inj (hsome.symm.trans hevolved)
    refine ⟨harness', ref, hr, ⟨hready, h.labels_eq, h.labels_ne, ?_, ?_, ?_⟩, hrules, ?_⟩
    · rw [hstate, hkeys, h.keys_eq]
    · rw [hstate, hnorm, h.norm_eq]
    · rw [hrules]
      exact h.rules
    · rw [vector, hstate, hvector]
      rfl

omit [IsStrictOrderedRing R] [ExactMathLibrary R] in
/-- Giving a unitary matrix keeps the invariant. -/
lemma define (h : harness.Unitary O labels matrixOf initialState) {ruleName description : String}
    {matrix : Dict (String × String) (PyComplex R)}
    (hlawful : harness.Lawful O labels matrixOf
      (.defineUnitaryOperation ruleName matrix description)) :
    (harness.defineUnitaryOperation O ruleName matrix description).1.Unitary O labels
        matrixOf initialState ∧
      (harness.defineUnitaryOperation O ruleName matrix description).1.state = harness.state := by
  rcases defineUnitaryOperation_cases O ruleName matrix description h.toReady with
    ⟨exc, hr⟩ | ⟨harness', hr, hready, hstate, -, hrules⟩
  · rw [hr]
    exact ⟨h, rfl⟩
  · have hnew : matrixOf ruleName = matrix ∧ UnitaryOver labels matrix :=
      hlawful (by rw [hr]; rfl)
    rw [hr]
    have hsame : harness'.state = harness.state := hstate
    refine ⟨⟨hready, h.labels_eq, h.labels_ne, hsame ▸ h.keys_eq, hsame ▸ h.norm_eq,
      fun k reg hreg => ?_⟩, hsame⟩
    rw [hrules, Dict.get?_set] at hreg
    split at hreg
    · next hk =>
      rw [← Option.some.inj hreg, hk, hnew.1]
      exact ⟨rfl, hnew.2⟩
    · exact h.rules k reg hreg

omit [IsStrictOrderedRing R] [ExactMathLibrary R] in
/-- A call that leaves the state engine as it is keeps the invariant. -/
lemma of_stateEngine_eq {harness' : FullStackHarness R ω κ}
    (h : harness.Unitary O labels matrixOf initialState) (hready : harness'.Ready initialState)
    (hengine : harness'.nogoLayer.stateEngine = harness.nogoLayer.stateEngine) :
    harness'.Unitary O labels matrixOf initialState ∧ harness'.state = harness.state := by
  have hstate : harness'.state = harness.state := congrArg SovereignStateEngine.state hengine
  exact ⟨⟨hready, h.labels_eq, h.labels_ne, hstate ▸ h.keys_eq, hstate ▸ h.norm_eq,
    hengine ▸ h.rules⟩, hstate⟩

/-- **Step lemma.**  A lawful call keeps the invariant, does not raise if it is an evolution, and
multiplies the vector by the matrix of the rule if it is one. -/
theorem perform (h : harness.Unitary O labels matrixOf initialState) {c : HarnessCall R}
    (hc : harness.Lawful O labels matrixOf c) :
    (harness.perform O c).Unitary O labels matrixOf initialState ∧ harness.Evolves c ∧
      (harness.perform O c).vector labels
        = productOf labels matrixOf (evolutions [c]) *ᵥ harness.vector labels := by
  have hquiet : ∀ {harness' : FullStackHarness R ω κ}, harness'.state = harness.state →
      harness'.vector labels = productOf labels matrixOf [] *ᵥ harness.vector labels := by
    intro harness' hstate
    rw [productOf_nil, Matrix.one_mulVec, vector, hstate, vector]
  cases c with
  | defineUnitaryOperation ruleName matrix description =>
    obtain ⟨hnext, hstate⟩ := h.define hc
    exact ⟨hnext, trivial, hquiet hstate⟩
  | evolveDeterministic ruleName =>
    obtain ⟨harness', ref, hr, hnext, -, hvector⟩ := h.evolve hc.1 hc.2
    simp only [FullStackHarness.perform, Evolves, hr]
    refine ⟨hnext, rfl, ?_⟩
    rw [hvector, productOf]
    simp [evolutions]
  | measureDeterministic tokenId seed =>
    obtain ⟨hengine, hready⟩ := measureDeterministic_keeps h.toReady tokenId seed
    obtain ⟨hnext, hstate⟩ := h.of_stateEngine_eq hready hengine
    exact ⟨hnext, trivial, hquiet hstate⟩
  | sealTimeline reason =>
    obtain ⟨hengine, hready⟩ := sealTimeline_keeps h.toReady reason
    obtain ⟨hnext, hstate⟩ := h.of_stateEngine_eq hready hengine
    exact ⟨hnext, trivial, hquiet hstate⟩

/-- **Run lemma.** -/
theorem exec (h : harness.Unitary O labels matrixOf initialState) {calls : List (HarnessCall R)}
    (hcalls : Run.Along (FullStackHarness.perform O) (Lawful O labels matrixOf) harness calls) :
    (Run.exec (FullStackHarness.perform O) harness calls).Unitary O labels matrixOf initialState ∧
      Run.Along (FullStackHarness.perform O) Evolves harness calls ∧
      (Run.exec (FullStackHarness.perform O) harness calls).vector labels
        = productOf labels matrixOf (evolutions calls) *ᵥ harness.vector labels := by
  induction calls generalizing harness with
  | nil => exact ⟨h, trivial, (Matrix.one_mulVec _).symm⟩
  | cons c calls ih =>
    obtain ⟨hnext, hevolves, hvector⟩ := h.perform hcalls.1
    obtain ⟨hfinal, halong, hproduct⟩ := ih hnext hcalls.2
    have happend : evolutions (c :: calls) = evolutions [c] ++ evolutions calls :=
      List.filterMap_append (l := [c])
    refine ⟨hfinal, ⟨hevolves, halong⟩, ?_⟩
    rw [Run.exec_cons, hproduct, hvector, Matrix.mulVec_mulVec, happend, productOf_append]

/-- **Undoing.**  An evolution by the conjugate transpose of a matrix restores the state before
the evolution by the matrix. -/
theorem restore (h : harness.Unitary O labels matrixOf initialState) {ruleName ruleName' : String}
    (hlawful : harness.Lawful O labels matrixOf (.evolveDeterministic ruleName))
    (hlawful' : harness.Lawful O labels matrixOf (.evolveDeterministic ruleName'))
    (hmatrix : (matrixOf ruleName').toMatrix labels = ((matrixOf ruleName).toMatrix labels)ᴴ) :
    ∃ harness' ref harness'' ref', harness.evolveDeterministic ruleName = (harness', .ok ref) ∧
      harness'.evolveDeterministic ruleName' = (harness'', .ok ref') ∧
      harness''.state = harness.state := by
  obtain ⟨harness', ref, hr, hnext, hrules, hvector⟩ := h.evolve hlawful.1 hlawful.2
  obtain ⟨harness'', ref', hr', hnext', -, hvector'⟩ :=
    hnext.evolve hlawful'.1 (hrules ▸ hlawful'.2)
  refine ⟨harness', ref, harness'', ref', hr, hr', ?_⟩
  have hunitary : UnitaryOver labels (matrixOf ruleName) := by
    obtain ⟨reg, hentry⟩ := Dict.mem_keys.mp hlawful.2
    exact (h.rules ruleName reg (Dict.get?_eq_some.mpr hentry)).2
  rw [hvector, Matrix.mulVec_mulVec, hmatrix, ← Matrix.star_eq_conjTranspose,
    Matrix.mem_unitaryGroup_iff'.mp hunitary.unitary, Matrix.one_mulVec] at hvector'
  have hdict : harness''.state.asDict = harness.state.asDict :=
    Dict.eq_of_toVec_eq (hnext'.keys_eq.trans h.keys_eq.symm)
      (fun k hk => h.labels_eq ▸ List.mem_toFinset.mpr (hnext'.keys_eq ▸ hk)) hvector'
  apply StateVector.ext
  rw [StateVector.amplitudes_eq, hdict, ← StateVector.amplitudes_eq]

end Unitary

/-! ### New harnesses -/

section New

variable [IsStrictOrderedRing R] [ExactMathLibrary R]

/-- The zeros that the vector drops are given back. -/
lemma ofKeys_get (amplitudes : Dict String (PyComplex R)) :
    amplitudes.ofKeys (ComplexVector.new amplitudes).get = amplitudes := by
  refine Dict.eq_of_keys_eq (Dict.keys_ofKeys ..) fun k hk => ?_
  rw [Dict.keys_ofKeys] at hk
  rw [Dict.coeff_ofKeys hk, ComplexVector.get_new]

/-- A new harness starts in the state of the amplitudes, and satisfies the invariant. -/
lemma unitary_of_new {initialAmplitudes : Dict String (PyComplex R)} {rootId : String}
    (hnew : new O initialAmplitudes rootId = .ok harness)
    (matrixOf : String → Dict (String × String) (PyComplex R)) :
    harness.c1State.asDict = initialAmplitudes ∧ harness.state = harness.c1State ∧
      harness.Unitary O initialAmplitudes.keys.toFinset matrixOf harness.c1State := by
  obtain ⟨⟨qState, hq, hc1⟩, -⟩ := new_ok hnew
  have hvector : qState.vector = .new initialAmplitudes := QuantumState.vector_of_new hq
  rw [hvector, ofKeys_get] at hc1
  obtain ⟨hready, hengine⟩ := ready_of_new hnew
  have hstate : harness.state = harness.c1State := congrArg SovereignStateEngine.state hengine
  have hdict := StateVector.asDict_of_new hc1
  have hempty := (StateVector.exists_new_iff.mp ⟨_, hc1⟩).2.1
  refine ⟨hdict, hstate, hready, by rw [hdict], fun hin => hempty (List.mem_toFinset.mp hin),
    by rw [hstate], by rw [hstate], fun k reg hreg => ?_⟩
  rw [hengine] at hreg
  exact absurd hreg (by simp [SovereignStateEngine.new])

/-- Every state without an empty label is the one of a new harness. -/
lemma exists_new (O : SetOrder) {s : StateVector R} (hempty : "" ∉ s.asDict.keys)
    (rootId : String) :
    ∃ harness : FullStackHarness R ω κ, new O s.asDict rootId = .ok harness := by
  obtain ⟨q, hq, hvector⟩ := s.exists_quantumState O
  obtain ⟨c1State, hc1⟩ : ∃ c1State, StateVector.new s.asDict = .ok c1State := by
    refine StateVector.exists_new_iff.mpr ⟨fun hnil => s.amplitudes_ne ?_, hempty, ?_⟩
    · rw [s.amplitudes_eq, hnil, List.map_nil]
    · rw [← s.amplitudes_eq]
      exact s.norm_near
  rw [new, hq]
  simp only [hvector, ofKeys_get, hc1]
  exact ⟨_, rfl⟩

/-- A unitary matrix can be registered under a name that is free. -/
lemma defineUnitaryOperation_of_unitary {labels : Finset String} {ruleName : String}
    {matrix : Dict (String × String) (PyComplex R)} (h : UnitaryOver labels matrix) (O : SetOrder)
    (hfree : harness.nogoLayer.stateEngine.rules.get? ruleName = none) (description : String) :
    ∃ harness', harness.defineUnitaryOperation O ruleName matrix description
      = (harness', .ok ()) := by
  obtain ⟨u, hu, -⟩ := h.exists_operator O
  have hcontains : ¬harness.system.stateEngine.rules.contains ruleName = true := by
    rw [Dict.contains_eq_true, ← Dict.get?_eq_none]
    exact hfree
  rw [defineUnitaryOperation, hu]
  simp only [QuantumFoundationSystem.registerTransitionRule, SovereignStateEngine.registerRule,
    if_neg hcontains]
  exact ⟨_, rfl⟩

/-- **Unitary evolution.**  In exact arithmetic, after every run of a new harness in which the
matrices that are registered are unitary over the initial labels and the evolutions are by
registered rules with names that are not empty: no evolution has raised, the vector of the current
state is the product of the matrices of the evolutions and the initial vector, the labels and the
norm are the initial ones, and an evolution followed by one by the conjugate transpose restores the
state. -/
theorem evolves_unitarily (O : SetOrder) {initialAmplitudes : Dict String (PyComplex R)}
    {rootId : String} {harness : FullStackHarness R ω κ}
    (hnew : new O initialAmplitudes rootId = .ok harness)
    (matrixOf : String → Dict (String × String) (PyComplex R)) (calls : List (HarnessCall R))
    (hcalls : Run.Along (perform O) (Lawful O initialAmplitudes.keys.toFinset matrixOf) harness
      calls) :
    Run.Along (perform O) Evolves harness calls ∧
      (Run.exec (perform O) harness calls).state.asDict.keys = initialAmplitudes.keys ∧
      (Run.exec (perform O) harness calls).vector initialAmplitudes.keys.toFinset
        = productOf initialAmplitudes.keys.toFinset matrixOf (evolutions calls)
          *ᵥ initialAmplitudes.toVec initialAmplitudes.keys.toFinset ∧
      computeNorm (Run.exec (perform O) harness calls).state.amplitudes
        = computeNorm harness.state.amplitudes ∧
      ∀ ruleName ruleName', (Run.exec (perform O) harness calls).Lawful O
          initialAmplitudes.keys.toFinset matrixOf (.evolveDeterministic ruleName) →
        (Run.exec (perform O) harness calls).Lawful O initialAmplitudes.keys.toFinset matrixOf
          (.evolveDeterministic ruleName') →
        (matrixOf ruleName').toMatrix initialAmplitudes.keys.toFinset
          = ((matrixOf ruleName).toMatrix initialAmplitudes.keys.toFinset)ᴴ →
        ∃ harness' ref harness'' ref',
          (Run.exec (perform O) harness calls).evolveDeterministic ruleName
            = (harness', .ok ref) ∧
          harness'.evolveDeterministic ruleName' = (harness'', .ok ref') ∧
          harness''.state = (Run.exec (perform O) harness calls).state := by
  obtain ⟨hdict, hstate, hunitary⟩ := unitary_of_new hnew matrixOf
  obtain ⟨hfinal, halong, hvector⟩ := hunitary.exec hcalls
  refine ⟨halong, ?_, ?_, ?_, fun ruleName ruleName' hlawful hlawful' hmatrix =>
    hfinal.restore hlawful hlawful' hmatrix⟩
  · rw [hfinal.keys_eq, hdict]
  · rw [hvector, vector, hstate, hdict]
  · rw [hfinal.norm_eq, hstate]

end New

/-! ### The real numbers -/

/-- The first of two basis states. -/
noncomputable def realKetZero : StateVector ℝ where
  amplitudes := [⟨"0", ⟨1, 0⟩⟩, ⟨"1", ⟨0, 0⟩⟩]
  amplitudes_ne := List.cons_ne_nil _ _
  labels_nodup := by simp
  norm_near := by
    have htotal : totalProbability [(⟨"0", ⟨1, 0⟩⟩ : Amplitude ℝ), ⟨"1", ⟨0, 0⟩⟩] = 1 := by
      simp [totalProbability, Amplitude.probability, PyComplex.born_eq]
    exact norm_near_of_totalProbability htotal

/-- The matrix that exchanges the two basis states. -/
noncomputable def bitFlip : Dict (String × String) (PyComplex ℝ) :=
  .ofList [(("0", "1"), 1), (("1", "0"), 1)]

lemma coeff_bitFlip (p : String × String) :
    bitFlip.coeff p = if p = ("1", "0") then 1 else if p = ("0", "1") then 1 else 0 := by
  rw [bitFlip, Dict.ofList, List.foldl_cons, List.foldl_cons, List.foldl_nil, Dict.coeff_set,
    Dict.coeff_set, Dict.coeff_empty]

lemma mem_keys_realKetZero (l : String) :
    l ∈ realKetZero.asDict.keys.toFinset ↔ l = "0" ∨ l = "1" := by
  rw [List.mem_toFinset]
  show l ∈ ["0", "1"] ↔ _
  simp

lemma toMatrix_bitFlip : bitFlip.toMatrix realKetZero.asDict.keys.toFinset
    = (bitFlip.toMatrix realKetZero.asDict.keys.toFinset)ᴴ := by
  ext i j : 1
  show bitFlip.coeff (i.1, j.1) = star (bitFlip.coeff (j.1, i.1))
  obtain hi | hi := (mem_keys_realKetZero i).mp i.2 <;>
    obtain hj | hj := (mem_keys_realKetZero j).mp j.2 <;>
    simp [coeff_bitFlip, hi, hj]

lemma unitaryOver_bitFlip : UnitaryOver realKetZero.asDict.keys.toFinset bitFlip := by
  refine ⟨?supported, ?significant, ?unitary⟩
  case supported =>
    intro i j hne
    rw [coeff_bitFlip] at hne
    rw [mem_keys_realKetZero, mem_keys_realKetZero]
    split at hne
    · next h => exact ⟨Or.inr (Prod.mk.inj h).1, Or.inl (Prod.mk.inj h).2⟩
    · split at hne
      · next h => exact ⟨Or.inl (Prod.mk.inj h).1, Or.inr (Prod.mk.inj h).2⟩
      · exact absurd rfl hne
  case significant =>
    intro p hne
    have hone : bitFlip.coeff p = 1 := by
      rw [coeff_bitFlip] at hne ⊢
      split
      · rfl
      · next h =>
        rw [if_neg h] at hne
        exact if_pos (not_not.mp fun h' => hne (if_neg h'))
    rw [hone, PyComplex.abs_one]
    show (1e-12 : ℝ) < 1
    norm_num
  case unitary =>
    have hlabels : realKetZero.asDict.keys.toFinset = {"0", "1"} := by
      ext l
      rw [mem_keys_realKetZero]
      simp
    have hpair : ∀ f : String → PyComplex ℝ,
        ∑ j ∈ realKetZero.asDict.keys.toFinset, f j = f "0" + f "1" := fun f => by
      rw [hlabels, Finset.sum_pair (by decide)]
    rw [Matrix.mem_unitaryGroup_iff', Matrix.star_eq_conjTranspose, ← toMatrix_bitFlip]
    ext i k : 1
    have hsum := Dict.mulVec_toMatrix bitFlip (fun j => bitFlip.coeff (j, k.1)) i
    refine hsum.trans ?_
    rw [hpair, Matrix.one_apply]
    simp only [Subtype.ext_iff]
    obtain hi | hi := (mem_keys_realKetZero i).mp i.2 <;>
      obtain hk | hk := (mem_keys_realKetZero k).mp k.2 <;>
      simp [coeff_bitFlip, hi, hk]

/-- A harness in the first basis state, with the matrix registered under a name. -/
lemma exists_registered (ruleName : String) :
    ∃ (harness harness' : FullStackHarness ℝ Unit Unit),
      new .lastInsertion realKetZero.asDict "root" = .ok harness ∧
        harness.defineUnitaryOperation .lastInsertion ruleName bitFlip "" = (harness', .ok ()) ∧
        ruleName ∈ harness'.nogoLayer.stateEngine.rules.keys := by
  have hempty : "" ∉ realKetZero.asDict.keys := by
    rw [← List.mem_toFinset, mem_keys_realKetZero]
    decide
  obtain ⟨harness, hnew⟩ := exists_new (ω := Unit) (κ := Unit) .lastInsertion hempty "root"
  obtain ⟨hready, hengine⟩ := ready_of_new hnew
  have hfree : harness.nogoLayer.stateEngine.rules.get? ruleName = none := by
    rw [hengine]
    rfl
  obtain ⟨harness', hdefine⟩ :=
    defineUnitaryOperation_of_unitary unitaryOver_bitFlip .lastInsertion hfree ""
  obtain ⟨-, -, -, hrules⟩ := defineUnitaryOperation_ok hready hdefine
  refine ⟨harness, harness', hnew, hdefine, ?_⟩
  rw [hrules, Dict.mem_keys_set]
  exact Or.inl rfl

/-- Exchanging the basis states of the first one, and exchanging them back. -/
theorem evolves_unitarily_bitFlip :
    ∃ harness final : FullStackHarness ℝ Unit Unit,
      new .lastInsertion realKetZero.asDict "root" = .ok harness ∧
        final = Run.exec (perform .lastInsertion) harness
          [.defineUnitaryOperation "flip" bitFlip "", .evolveDeterministic "flip"] ∧
        final.vector realKetZero.asDict.keys.toFinset
          = productOf realKetZero.asDict.keys.toFinset (fun _ => bitFlip) ["flip"]
            *ᵥ realKetZero.asDict.toVec realKetZero.asDict.keys.toFinset := by
  obtain ⟨harness, harness', hnew, hdefine, hmem⟩ := exists_registered "flip"
  refine ⟨harness, _, hnew, rfl, ?_⟩
  refine (evolves_unitarily .lastInsertion hnew (fun _ => bitFlip)
    [.defineUnitaryOperation "flip" bitFlip "", .evolveDeterministic "flip"]
    ⟨?_, ⟨?_, ?_⟩, trivial⟩).2.2.1
  · exact fun _ => ⟨rfl, unitaryOver_bitFlip⟩
  · decide
  · show "flip" ∈ (harness.defineUnitaryOperation .lastInsertion "flip" bitFlip ""
      ).1.nogoLayer.stateEngine.rules.keys
    rw [hdefine]
    exact hmem

/-- A rule with the empty name can be registered, and an evolution by it raises. -/
theorem nameless_rule_raises :
    ∃ harness harness' : FullStackHarness ℝ Unit Unit,
      new .lastInsertion realKetZero.asDict "root" = .ok harness ∧
        UnitaryOver realKetZero.asDict.keys.toFinset bitFlip ∧
        harness.defineUnitaryOperation .lastInsertion "" bitFlip "" = (harness', .ok ()) ∧
        "" ∈ harness'.nogoLayer.stateEngine.rules.keys ∧
        ∃ exc, harness'.evolveDeterministic "" = (harness', .error exc) := by
  obtain ⟨harness, harness', hnew, hdefine, hmem⟩ := exists_registered ""
  exact ⟨harness, harness', hnew, unitaryOver_bitFlip, hdefine, hmem, _, rfl⟩

end FullStackHarness

end QuantumFoundation
