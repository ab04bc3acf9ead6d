import QuantumFoundation.Quantum.FormalOperators
import QuantumFoundation.Quantum.OutcomeSelection

/-!
# The measurement harness

Measurement by projectors: `core_measurement.py`, and the earlier `measurement_math.py`.  Both
select the outcome in the same way, and renormalise what the selected projector makes of the state
by the root of its expectation.  The generator of the random numbers is a parameter: the first
number that it draws for a seed.
-/

namespace QuantumFoundation

section Definitions

variable {R : Type*} [PyFloat R]

/-! ### Projectors -/

/-- The loop that compares the entries with those of the conjugate transpose. -/
def hermitianCheck (exc : Raised) (A : LinearOperator R) : Except Raised Unit :=
  if A.matrix.entries.any fun p =>
      (p.2 - (A.dagger.matrix.get? p.1).getD (.ofReal 0)).abs > 1e-9 then .error exc
  else .ok ()

/-- `_verify_hermitian`. -/
def LinearOperator.verifyHermitian (A : LinearOperator R) : Except Raised Unit :=
  hermitianCheck ⟨.invariantViolation, "Measurement Projector must strictly be Hermitian."⟩ A

/-- A projector.  The last field is the check of the constructor. -/
structure ProjectionOperator (R : Type*) [PyFloat R] extends LinearOperator R where
  hermitian : toLinearOperator.verifyHermitian = .ok ()

namespace ProjectionOperator

/-- The constructor. -/
def new (matrix : Dict (String × String) (PyComplex R)) : Except Raised (ProjectionOperator R) :=
  match h : (LinearOperator.new matrix).verifyHermitian with
  | .error exc => .error exc
  | .ok () => .ok ⟨.new matrix, h⟩

/-- `expectation`. -/
def expectation {O : SetOrder} (state : QuantumState O R) (projector : ProjectionOperator R) :
    Except Raised R :=
  let innerVal := state.vector.inner O (projector.apply state.vector)
  if PyFloat.abs innerVal.im > 1e-9 then
    .error ⟨.invariantViolation, "Expectation value of a Hermitian operator must be strictly real."⟩
  else .ok innerVal.re

end ProjectionOperator

/-! ### The harness -/

namespace MeasurementHarness

variable {O : SetOrder}

/-- The first half of `collapse`: the probabilities, and the outcome that is selected. -/
def select (random : ℤ → R) (state : QuantumState O R)
    (projectors : Dict String (ProjectionOperator R)) (seed : ℤ) :
    Except Raised (Dict String R × String) :=
  selection (fun totalP => ⟨.other "IncompletePOVMError", "Measurement error: Probabilities sum to "
      ++ PyFloat.str totalP ++ ". The set of Projection Operators is incomplete."⟩)
    (ProjectionOperator.expectation state) projectors (random seed)

/-- `collapse`. -/
def collapse [PyReciprocal R] (random : ℤ → R) (state : QuantumState O R)
    (projectors : Dict String (ProjectionOperator R)) (seed : ℤ) :
    Except Raised (String × QuantumState O R) :=
  match select random state projectors seed with
  | .error exc => .error exc
  | .ok (probabilities, selected) =>
    match probabilities.get? selected, projectors.get? selected with
    | some pSelected, some PSelected =>
      let collapsedVec := PSelected.apply state.vector
      let renormFactor := PyReciprocal.reciprocal (PyFloat.sqrt pSelected)
      let normalizedVec := collapsedVec.mul (.ofReal renormFactor)
      match QuantumState.new O normalizedVec with
      | .error exc => .error exc
      | .ok finalState => .ok (selected, finalState)
    | _, _ => .error ⟨.keyError, "'" ++ selected ++ "'"⟩

end MeasurementHarness

/-! ### The earlier version -/

namespace Formal

variable [PyQuotient R]

/-- `_verify_hermitian`. -/
def verifyHermitian (A : LinearOperator R) : Except Raised Unit :=
  hermitianCheck ⟨.valueError, "Projector must be Hermitian."⟩ A

/-- `_verify_idempotent`, which does nothing. -/
def verifyIdempotent (_ : LinearOperator R) : Except Raised Unit := .ok ()

/-- A projector.  The last two fields are the checks of the constructor. -/
structure ProjectionOperator (R : Type*) [PyFloat R] extends LinearOperator R where
  hermitian : verifyHermitian toLinearOperator = .ok ()
  idempotent : verifyIdempotent toLinearOperator = .ok ()

/-- The constructor. -/
def ProjectionOperator.new (matrix : Dict (String × String) (PyComplex R)) :
    Except Raised (ProjectionOperator R) :=
  match h₁ : verifyHermitian (QuantumFoundation.LinearOperator.new matrix) with
  | .error exc => .error exc
  | .ok () =>
    match h₂ : verifyIdempotent (QuantumFoundation.LinearOperator.new matrix) with
    | .error exc => .error exc
    | .ok () => .ok ⟨.new matrix, h₁, h₂⟩

/-- `expectation_value`. -/
def ProjectionOperator.expectationValue (O : SetOrder) (state : QuantumState R)
    (projector : ProjectionOperator R) : R :=
  (state.vector.innerProduct O (apply state.vector projector.toLinearOperator)).re

namespace MeasurementMath

/-- The first half of `projective_measurement`: the probabilities, and the outcome that is
selected. -/
def select (O : SetOrder) (random : ℤ → R) (state : QuantumState R)
    (projectors : Dict String (ProjectionOperator R)) (seed : ℤ) :
    Except Raised (Dict String R × String) :=
  selection (fun totalP => ⟨.valueError, "Projectors do not form a complete POVM. Probabilities "
      ++ "sum to " ++ PyFloat.str totalP⟩)
    (fun projector => .ok (projector.expectationValue O state)) projectors (random seed)

/-- `projective_measurement`. -/
def projectiveMeasurement [PyReciprocal R] (O : SetOrder) (random : ℤ → R) (state : QuantumState R)
    (projectors : Dict String (ProjectionOperator R)) (seed : ℤ) :
    Except Raised (String × QuantumState R) :=
  match select O random state projectors seed with
  | .error exc => .error exc
  | .ok (probabilities, selectedOutcome) =>
    match projectors.get? selectedOutcome, probabilities.get? selectedOutcome with
    | some PSelected, some pSelected =>
      let collapsedVector := apply state.vector PSelected.toLinearOperator
      let renormFactor := PyReciprocal.reciprocal (PyFloat.sqrt pSelected)
      let newAmplitudes := collapsedVector.amplitudes.mapValues fun _ v => v * .ofReal renormFactor
      match QuantumState.fromDict newAmplitudes with
      | .error exc => .error exc
      | .ok finalState => .ok (selectedOutcome, finalState)
    | _, _ => .error ⟨.keyError, "'" ++ selectedOutcome ++ "'"⟩

end MeasurementMath

end Formal

end Definitions

/-! ### What is selected -/

namespace MeasurementHarness

section Selection

variable {R : Type*} [PyFloat R] [PyQuotient R] [PyReciprocal R] {O : SetOrder}

omit [PyQuotient R] in
/-- **Collapsing** returns the outcome that is selected, and the state of what its projector makes
of the vector, renormalised by the root of its probability. -/
theorem collapse_eq_ok_iff {random : ℤ → R} {state final : QuantumState O R}
    {projectors : Dict String (ProjectionOperator R)} {seed : ℤ} {outcome : String} :
    collapse random state projectors seed = .ok (outcome, final) ↔
      ∃ probabilities p projector,
        select random state projectors seed = .ok (probabilities, outcome) ∧
        probabilities.get? outcome = some p ∧ projectors.get? outcome = some projector ∧
        QuantumState.new O ((projector.apply state.vector).mul
          (.ofReal (PyReciprocal.reciprocal (PyFloat.sqrt p)))) = .ok final := by
  rw [collapse]
  constructor
  · intro h
    split at h
    · exact absurd h (by simp)
    · next probabilities selected hselect =>
      split at h
      · next p projector hp hprojector =>
        dsimp only at h
        split at h
        · exact absurd h (by simp)
        · next q hq =>
          obtain ⟨rfl, rfl⟩ := Prod.mk.inj (Except.ok.inj h)
          exact ⟨probabilities, p, projector, hselect, hp, hprojector, hq⟩
      · exact absurd h (by simp)
  · rintro ⟨probabilities, p, projector, hselect, hp, hprojector, hfinal⟩
    simp only [hselect, hp, hprojector, hfinal]

omit [PyReciprocal R] in
/-- **The outcome** that is selected is the one that is meant, and the earlier version selects the
same from the same probabilities and the same draw, exactly if the outcome at which the sum reaches
the draw does not have the empty name, or is the last one. -/
theorem select_intended_iff (hzero : PyFloat.abs ((0 : R) - 1) > 1e-6) (random : ℤ → R)
    (state : QuantumState O R) (projectors : Dict String (ProjectionOperator R)) (seed : ℤ)
    {probabilities : Dict String R} {totalP : R}
    (hloop : probabilitiesLoop (ProjectionOperator.expectation state) projectors.entries .empty 0
      = .ok (probabilities, totalP)) (hsum : ¬PyFloat.abs (totalP - 1) > 1e-6) :
    ((∃ name, select random state projectors seed = .ok (probabilities, name) ∧
        Intended (random seed) probabilities name) ∧
      ∀ (state' : Formal.QuantumState R)
        (projectors' : Dict String (Formal.ProjectionOperator R)),
        probabilitiesLoop (fun projector => .ok (projector.expectationValue O state'))
            projectors'.entries .empty 0 = .ok (probabilities, totalP) →
          ∀ name, Formal.MeasurementMath.select O random state' projectors' seed
              = .ok (probabilities, name) ↔
            select random state projectors seed = .ok (probabilities, name)) ↔
      ∀ j, FirstReaching (random seed) probabilities.values j →
        probabilities.keys[j]? = some "" → probabilities.keys.getLast? = some "" := by
  have hne : probabilities.entries ≠ [] := by
    intro hempty
    rw [(probabilitiesLoop_empty hloop hempty).2] at hsum
    exact hsum hzero
  obtain ⟨selected, hselected⟩ := exists_selected (random seed) hne
  have hsame : ∀ (state' : Formal.QuantumState R)
      (projectors' : Dict String (Formal.ProjectionOperator R)),
      probabilitiesLoop (fun projector => .ok (projector.expectationValue O state'))
          projectors'.entries .empty 0 = .ok (probabilities, totalP) →
        ∀ name, Formal.MeasurementMath.select O random state' projectors' seed
            = .ok (probabilities, name) ↔
          select random state projectors seed = .ok (probabilities, name) :=
    fun state' projectors' hloop' name =>
      (selection_eq_ok_iff hloop' hsum).trans (selection_eq_ok_iff hloop hsum).symm
  have hselect : select random state projectors seed = .ok (probabilities, selected) :=
    (selection_eq_ok_iff hloop hsum).mpr hselected
  rw [← intended_iff hselected, and_iff_left hsame]
  constructor
  · rintro ⟨name, hname, hintended⟩
    rw [hselect] at hname
    rwa [(Prod.mk.inj (Except.ok.inj hname)).2]
  · intro hintended
    exact ⟨selected, hselect, hintended⟩

end Selection

/-- The projector on one basis state. -/
def basisProjector (l : String) : LinearOperator ℚ := .new (.ofList [((l, l), ⟨1, 0⟩)])

/-- The projectors on two basis states, under two names. -/
def basisProjectors (name₁ name₂ : String) : Dict String (ProjectionOperator ℚ) :=
  .ofList [(name₁, ⟨basisProjector "0", by decide +kernel⟩),
    (name₂, ⟨basisProjector "1", by decide +kernel⟩)]

/-- A state with the probabilities 9/25 and 16/25. -/
def threeFour : QuantumState .lastInsertion ℚ where
  vector := .new (.ofList [("0", ⟨3 / 5, 0⟩), ("1", ⟨4 / 5, 0⟩)])
  isZero_eq := by decide +kernel
  norm_near := ⟨1, by decide +kernel, by decide +kernel⟩

/-- With names that are not empty, the draw zero falls on the first outcome. -/
theorem named_outcome :
    ∃ name, select (fun _ => (0 : ℚ)) threeFour (basisProjectors "a" "b") 7
        = .ok (.ofList [("a", 9 / 25), ("b", 16 / 25)], name) ∧
      Intended 0 (.ofList [("a", 9 / 25), ("b", (16 / 25 : ℚ))]) name := by
  have hloop : probabilitiesLoop (ProjectionOperator.expectation threeFour)
      (basisProjectors "a" "b").entries .empty 0
      = .ok (.ofList [("a", 9 / 25), ("b", 16 / 25)], 1) := by decide +kernel
  refine ((select_intended_iff (by decide +kernel) (fun _ => 0) threeFour (basisProjectors "a" "b")
    7 hloop (by decide +kernel)).mpr fun j hj hempty => ?_).1
  have hmem := List.mem_of_getElem? hempty
  exact absurd hmem (by decide +kernel)

/-- If the first outcome has the empty name, the last one is selected in its place. -/
theorem nameless_outcome :
    select (fun _ => (0 : ℚ)) threeFour (basisProjectors "" "b") 7
        = .ok (.ofList [("", 9 / 25), ("b", 16 / 25)], "b") ∧
      ¬Intended 0 (.ofList [("", 9 / 25), ("b", (16 / 25 : ℚ))]) "b" := by
  have hloop : probabilitiesLoop (ProjectionOperator.expectation threeFour)
      (basisProjectors "" "b").entries .empty 0
      = .ok (.ofList [("", 9 / 25), ("b", 16 / 25)], 1) := by decide +kernel
  have hselect : select (fun _ => (0 : ℚ)) threeFour (basisProjectors "" "b") 7
      = .ok (.ofList [("", 9 / 25), ("b", 16 / 25)], "b") := by decide +kernel
  have hselected := (selection_eq_ok_iff hloop (by decide +kernel)).mp hselect
  have hfirst : FirstReaching (0 : ℚ)
      (Dict.ofList [("", 9 / 25), ("b", (16 / 25 : ℚ))]).values 0 :=
    ⟨by decide +kernel, by decide +kernel, fun i hi => absurd hi (Nat.not_lt_zero i)⟩
  refine ⟨hselect, fun hintended => ?_⟩
  have hlast := (intended_iff hselected).mp hintended 0 hfirst (by decide +kernel)
  exact absurd hlast (by decide +kernel)

end MeasurementHarness

end QuantumFoundation
