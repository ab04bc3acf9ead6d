import QuantumFoundation.Quantum.Harness
import QuantumFoundation.Quantum.SealedOperators

/-!
# The rules of unitary matrices

A matrix that is unitary over the labels of a state passes the seal of the operators, and its rule
makes of the state the one of the product of the matrix and the vector of the state, with the same
labels and the same norm.
-/

open scoped Matrix

namespace QuantumFoundation

variable {R : Type*} [Field R] [LinearOrder R] [MathLibrary R]

/-- The matrix is unitary over the labels: it has no entry elsewhere, and none that is negligible
but not zero. -/
structure UnitaryOver (labels : Finset String) (matrix : Dict (String × String) (PyComplex R)) :
    Prop where
  supported : matrix.SupportedOn labels
  significant : ∀ p, matrix.coeff p ≠ 0 → (matrix.coeff p).abs > 1e-12
  unitary : matrix.toMatrix labels ∈ Matrix.unitaryGroup labels (PyComplex R)

namespace UnitaryOver

variable {labels : Finset String} {matrix : Dict (String × String) (PyComplex R)}

lemma coeff_new (h : UnitaryOver labels matrix) (p : String × String) :
    (LinearOperator.new matrix).matrix.coeff p = matrix.coeff p :=
  LinearOperator.coeff_new (h.significant p)

lemma supported_new (h : UnitaryOver labels matrix) :
    (LinearOperator.new matrix).matrix.SupportedOn labels := by
  intro i j hne
  rw [h.coeff_new] at hne
  exact h.supported i j hne

/-- The columns are orthonormal. -/
lemma sum_star_mul (h : UnitaryOver labels matrix) (i k : String) :
    ∑ j ∈ labels, star (matrix.coeff (j, i)) * matrix.coeff (j, k)
      = if i ∈ labels ∧ i = k then 1 else 0 := by
  by_cases hmem : i ∈ labels ∧ k ∈ labels
  · have hentry := sum_star_mul_of_unitary h.unitary ⟨i, hmem.1⟩ ⟨k, hmem.2⟩
    have hlabels := Finset.sum_coe_sort labels fun j =>
      star (matrix.coeff (j, i)) * matrix.coeff (j, k)
    rw [← hlabels]
    refine hentry.trans ?_
    simp [hmem.1]
  · have hzero : ∀ j ∈ labels, star (matrix.coeff (j, i)) * matrix.coeff (j, k) = 0 := by
      intro j _
      by_cases hi : matrix.coeff (j, i) = 0
      · rw [hi, star_zero, zero_mul]
      · have hk : matrix.coeff (j, k) = 0 := not_not.mp fun hk =>
          hmem ⟨(h.supported j i hi).2, (h.supported j k hk).2⟩
        rw [hk, mul_zero]
    rw [Finset.sum_eq_zero hzero, if_neg]
    rintro ⟨hi, rfl⟩
    exact hmem ⟨hi, hi⟩

end UnitaryOver

/-! ### The seal -/

section Seal

variable [IsStrictOrderedRing R] [ExactMathLibrary R]

namespace UnitaryOver

variable {labels : Finset String} {matrix : Dict (String × String) (PyComplex R)}

lemma orthonormal (h : UnitaryOver labels matrix) : (LinearOperator.new matrix).Orthonormal := by
  have hlabels : (LinearOperator.new matrix).rows ⊆ labels := by
    intro j hj
    obtain ⟨p, hp, rfl⟩ := List.mem_map.mp (List.mem_toFinset.mp hj)
    obtain ⟨z, hz⟩ := Dict.mem_keys.mp hp
    refine (h.supported_new p.1 p.2 ?_).1
    rw [Dict.coeff_of_mem hz]
    exact LinearOperator.ne_zero_of_mem hz
  intro i hi k _
  rw [LinearOperator.gram_eq_sum hlabels]
  simp only [h.coeff_new]
  obtain ⟨p, hp, rfl⟩ := List.mem_map.mp (List.mem_toFinset.mp hi)
  obtain ⟨z, hz⟩ := Dict.mem_keys.mp hp
  have hmem : p.2 ∈ labels := by
    refine (h.supported_new p.1 p.2 ?_).2
    rw [Dict.coeff_of_mem hz]
    exact LinearOperator.ne_zero_of_mem hz
  rw [h.sum_star_mul]
  simp only [hmem, true_and]

/-- The constructor of the operators takes a unitary matrix. -/
lemma exists_operator (h : UnitaryOver labels matrix) (O : SetOrder) :
    ∃ u, UnitaryOperator.new O matrix = .ok u ∧ u.toLinearOperator = .new matrix :=
  (UnitaryOperator.exists_new_iff O matrix).mpr h.orthonormal.nearlyOrthonormal

end UnitaryOver

end Seal

/-! ### The rule -/

section Rule

namespace StateVector

/-- The total probability may be summed over any labels that contain those of the state. -/
lemma totalProbability_eq_sum {s : StateVector R} {labels : Finset String}
    (h : ∀ k ∈ s.asDict.keys, k ∈ labels) :
    totalProbability s.amplitudes = ∑ l ∈ labels, (s.asDict.coeff l).born := by
  have hout : ∀ l ∉ labels, s.asDict.coeff l = 0 := fun l hl =>
    Dict.coeff_of_notMem fun hmem => hl (h l hmem)
  rw [← Dict.sum_entries hout (g := fun _ z => z.born) fun _ => PyComplex.born_zero,
    totalProbability, asDict, List.map_map]
  rfl

end StateVector

/-- The total probability of amplitudes that are computed from their labels. -/
lemma totalProbability_ofKeys {υ : Type*} (d : Dict String υ) (f : String → PyComplex R) :
    totalProbability ((d.ofKeys f).entries.map fun p => (⟨p.1, p.2⟩ : Amplitude R))
      = ∑ l ∈ d.keys.toFinset, (f l).born := by
  have hnodup : d.keys.Nodup := d.nodup
  rw [List.sum_toFinset _ hnodup, totalProbability, Dict.ofKeys, List.map_map, List.map_map,
    Dict.keys, List.map_map]
  rfl

/-- The sum of the squares is fixed by the product of the vector with itself. -/
lemma sum_born_eq {ι : Type*} [Fintype ι] {v w : ι → PyComplex R}
    (h : star v ⬝ᵥ v = star w ⬝ᵥ w) : ∑ i, (v i).born = ∑ i, (w i).born := by
  have hreal : ∀ u : ι → PyComplex R, star u ⬝ᵥ u = PyComplex.ofReal (∑ i, (u i).born) := by
    intro u
    have hterm : ∀ i, star u i * u i = PyComplex.ofRealHom (u i).born := fun i =>
      PyComplex.star_mul_self_eq (u i)
    rw [dotProduct, Finset.sum_congr rfl fun i _ => hterm i, ← map_sum]
    rfl
  rw [hreal, hreal] at h
  exact congrArg PyComplex.re h

variable [IsStrictOrderedRing R] [ExactMathLibrary R] {ω : Type*}

/-- The vector of a state has the norm of the state. -/
lemma StateVector.squareNorm_new (s : StateVector R) :
    (ComplexVector.new s.asDict).squareNorm = totalProbability s.amplitudes := by
  have hout : ∀ l ∉ s.asDict.keys.toFinset, (ComplexVector.new s.asDict).get l = 0 := by
    intro l hl
    rw [ComplexVector.get_new]
    exact Dict.coeff_of_notMem fun hmem => hl (List.mem_toFinset.mpr hmem)
  rw [ComplexVector.squareNorm_eq_sum hout,
    s.totalProbability_eq_sum fun k hk => List.mem_toFinset.mpr hk]
  exact Finset.sum_congr rfl fun l _ => by rw [ComplexVector.get_new]

omit [ExactMathLibrary R] in
lemma StateVector.abs_sqrt_sub_one_le (s : StateVector R) :
    |PyFloat.sqrt (totalProbability s.amplitudes) - 1| ≤ 1e-9 := by
  have hnear : |computeNorm s.amplitudes - 1| ≤ 1e-10 := not_lt.mp s.norm_near
  rw [← computeNorm_eq]
  exact hnear.trans (by norm_num)

/-- The vector of a state passes the wider check. -/
lemma StateVector.exists_quantumState (s : StateVector R) (O : SetOrder) :
    ∃ q, QuantumState.fromDict O s.asDict = .ok q ∧ q.vector = .new s.asDict :=
  QuantumState.new_of_squareNorm O (s.squareNorm_new ▸ s.abs_sqrt_sub_one_le)

namespace UnitaryOver

variable {labels : Finset String} {matrix : Dict (String × String) (PyComplex R)}

lemma get_apply (h : UnitaryOver labels matrix) (v : ComplexVector R) (i : String) :
    ((LinearOperator.new matrix).apply v).get i
      = ∑ j ∈ labels, matrix.coeff (i, j) * v.get j := by
  rw [LinearOperator.get_apply h.supported_new]
  simp only [h.coeff_new]

/-- **Applying** multiplies the matrix by the vector. -/
theorem apply_eq_mulVec (h : UnitaryOver labels matrix) (v : ComplexVector R) :
    (fun l : labels => ((LinearOperator.new matrix).apply v).get l)
      = (matrix.toMatrix labels).mulVec fun l => v.get l := by
  funext i
  rw [h.get_apply]
  exact (Dict.mulVec_toMatrix matrix v.get i).symm

lemma get_apply_of_notMem (h : UnitaryOver labels matrix) (v : ComplexVector R) :
    ∀ l ∉ labels, ((LinearOperator.new matrix).apply v).get l = 0 := fun l hl => by
  rw [h.get_apply]
  exact h.supported.sum_eq_zero _ hl

/-- Applying keeps the norm. -/
lemma squareNorm_apply (h : UnitaryOver labels matrix) {v : ComplexVector R}
    (hv : ∀ l ∉ labels, v.get l = 0) :
    ((LinearOperator.new matrix).apply v).squareNorm = v.squareNorm := by
  have hdot := dotProduct_star_mulVec h.unitary fun l => v.get l
  rw [← h.apply_eq_mulVec] at hdot
  rw [ComplexVector.squareNorm_eq_sum (h.get_apply_of_notMem v), ComplexVector.squareNorm_eq_sum hv,
    ← Finset.sum_coe_sort labels, ← Finset.sum_coe_sort labels]
  exact sum_born_eq hdot

variable {s : StateVector R}

/-- What the operator makes of the vector of a state over the labels has its norm. -/
lemma squareNorm_apply_new (h : UnitaryOver labels matrix)
    (hlabels : s.asDict.keys.toFinset = labels) :
    ((LinearOperator.new matrix).apply (.new s.asDict)).squareNorm
      = totalProbability s.amplitudes := by
  refine (h.squareNorm_apply fun l hl => ?_).trans s.squareNorm_new
  rw [ComplexVector.get_new]
  exact Dict.coeff_of_notMem fun hmem => hl (hlabels ▸ List.mem_toFinset.mpr hmem)

/-- The rule builds the state of what the operator makes of the vector: neither the operator nor
the two checks of the norm raise. -/
lemma verifiedRule_eq (h : UnitaryOver labels matrix) (O : SetOrder)
    (hlabels : s.asDict.keys.toFinset = labels) (observation : Observation ω) :
    FullStackHarness.verifiedRule O matrix s observation
      = StateVector.new (s.asDict.ofKeys
          ((LinearOperator.new matrix).apply (.new s.asDict)).get) := by
  obtain ⟨q, hq, hqv⟩ := s.exists_quantumState O
  obtain ⟨u, hu, hoperator⟩ := h.exists_operator O
  obtain ⟨q', hq', hqw⟩ := QuantumState.new_of_squareNorm O
    (h.squareNorm_apply_new hlabels ▸ s.abs_sqrt_sub_one_le)
  have hevolve : u.evolve q = .ok q' := by
    rw [UnitaryOperator.evolve, hoperator, hqv]
    exact hq'
  rw [FullStackHarness.verifiedRule, hq, hu]
  simp only [hevolve, hqw]

/-- **The rule.**  It makes of a state over the labels the product of the matrix and its vector,
with the same labels and the same norm. -/
theorem verifiedRule_ok (h : UnitaryOver labels matrix) (O : SetOrder)
    (hlabels : s.asDict.keys.toFinset = labels) (hempty : "" ∉ labels)
    (observation : Observation ω) :
    ∃ t, FullStackHarness.verifiedRule O matrix s observation = .ok t ∧
      t.asDict.keys = s.asDict.keys ∧
      t.asDict.toVec labels = (matrix.toMatrix labels).mulVec (s.asDict.toVec labels) ∧
      computeNorm t.amplitudes = computeNorm s.amplitudes := by
  have hkeys : ∀ k, k ∈ s.asDict.keys ↔ k ∈ labels := fun k => by
    rw [← hlabels, List.mem_toFinset]
  let w := (LinearOperator.new matrix).apply (.new s.asDict)
  have hnorm : computeNorm ((s.asDict.ofKeys w.get).entries.map fun p =>
      (⟨p.1, p.2⟩ : Amplitude R)) = computeNorm s.amplitudes := by
    rw [computeNorm_eq, totalProbability_ofKeys, hlabels,
      ← ComplexVector.squareNorm_eq_sum (h.get_apply_of_notMem _), computeNorm_eq]
    exact congrArg PyFloat.sqrt (h.squareNorm_apply_new hlabels)
  obtain ⟨t, ht⟩ : ∃ t, StateVector.new (s.asDict.ofKeys w.get) = .ok t := by
    refine StateVector.exists_new_iff.mpr ⟨?_, ?_, ?_⟩
    · refine List.map_eq_nil_iff.not.mpr fun hnil => s.amplitudes_ne ?_
      rw [s.amplitudes_eq, hnil, List.map_nil]
    · rw [Dict.keys_ofKeys, hkeys]
      exact hempty
    · rw [hnorm]
      exact s.norm_near
  have hdict := StateVector.asDict_of_new ht
  refine ⟨t, (h.verifiedRule_eq O hlabels observation).trans ht, ?keys, ?vector, ?norm⟩
  case keys => rw [hdict, Dict.keys_ofKeys]
  case vector =>
    have hget := h.apply_eq_mulVec (.new s.asDict)
    simp only [ComplexVector.get_new] at hget
    refine Eq.trans (funext fun l => ?_) hget
    rw [Dict.toVec, hdict]
    exact Dict.coeff_ofKeys ((hkeys l).mpr l.2)
  case norm =>
    rw [t.amplitudes_eq, hdict]
    exact hnorm

end UnitaryOver

end Rule

end QuantumFoundation
