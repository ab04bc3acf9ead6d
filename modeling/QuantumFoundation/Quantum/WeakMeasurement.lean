import QuantumFoundation.Quantum.CollapseHistory

/-!
# Weak measurement

The second policy of `measurement_policy.py`.  It selects an outcome as the projective policy
does, but only nudges the state towards it, by a coupling strength that also stands, with two
decimals, in the name of the policy.
-/

namespace QuantumFoundation

variable {R : Type*}

/-- What weak measurement uses of the arithmetic of floats besides `PyFloat`. -/
class PyQuotient (R : Type*) where
  /-- `z / x`, where `x` is not zero. -/
  divReal : PyComplex R → R → PyComplex R
  /-- `x ** 2`. -/
  square : R → R

/-- Exact arithmetic. -/
instance (priority := low) exactQuotient [Field R] : PyQuotient R where
  divReal z x := ⟨z.re / x, z.im / x⟩
  square x := x ^ 2

/-- The policy with its coupling strength.  The last field is the check of the constructor. -/
structure WeakMeasurementPolicy (R : Type*) [PyFloat R] where
  alpha : R
  alpha_mem : 0 < alpha ∧ alpha ≤ 1

namespace WeakMeasurementPolicy

variable [PyFloat R]

/-- The constructor. -/
def new (couplingStrength : R) : Except Raised (WeakMeasurementPolicy R) :=
  if h : 0 < couplingStrength ∧ couplingStrength ≤ 1 then .ok ⟨couplingStrength, h⟩
  else
    .error ⟨.valueError, "coupling_strength must be in (0, 1], got "
      ++ PyFloat.str couplingStrength⟩

/-- `name`. -/
def name (w : WeakMeasurementPolicy R) : String :=
  "WeakMeasurement(α=" ++ PyFloat.fixed 2 w.alpha ++ ")"

variable [PyQuotient R]

/-- The amplitude of a label when the state is nudged towards the selected one. -/
def nudged (selectedLabel label : String) (val : PyComplex R) (w : WeakMeasurementPolicy R) :
    PyComplex R :=
  if label = selectedLabel then
    let mag := val.abs
    let boostedMag := mag + w.alpha * (1 - mag)
    let phase := if mag > 1e-15 then PyQuotient.divReal val mag else .ofReal 1
    .ofReal boostedMag * phase
  else val * .ofReal (1 - w.alpha)

/-- `post_amps_raw`. -/
def postAmpsRaw (state : StateVector R) (selectedLabel : String) (w : WeakMeasurementPolicy R) :
    Dict String (PyComplex R) :=
  .ofList (state.asDict.entries.map fun p => (p.1, w.nudged selectedLabel p.1 p.2))

/-- `measure`. -/
def measure (state : StateVector R) (seed : ℤ) (w : WeakMeasurementPolicy R) :
    Except Raised (MeasurementResult R) :=
  let amps := state.amplitudes
  match seededSample (amps.map Amplitude.probability) seed with
  | .error exc => .error exc
  | .ok idx =>
    match amps[idx]? with
    | none => .error ⟨.other "IndexError", "list index out of range"⟩
    | some selected =>
      let raw := w.postAmpsRaw state selected.basisLabel
      let rawNorm := PyFloat.sqrt (pySum (raw.values.map fun v => PyQuotient.square v.abs))
      if rawNorm < 1e-15 then
        .error ⟨.valueError, "[FORBIDDEN STATE] Weak measurement drove norm to zero."⟩
      else
        match StateVector.new
            (.ofList (raw.entries.map fun p => (p.1, PyQuotient.divReal p.2 rawNorm))) with
        | .error exc => .error exc
        | .ok postState =>
          let fullLoss := informationLossAfterCollapse state postState
          MeasurementResult.new selected.basisLabel selected.probability
            (pyMax 0 (w.alpha * fullLoss)) postState seed w.name

/-- The policy. -/
def policy (w : WeakMeasurementPolicy R) : MeasurementPolicy R :=
  ⟨w.name, fun state seed => w.measure state seed⟩

end WeakMeasurementPolicy

/-! ### Signed results -/

/-- The results of the policy carry its name and the seed, so that they can be replayed. -/
def MeasurementPolicy.Signs [PyFloat R] (policy : MeasurementPolicy R) : Prop :=
  ∀ state seed result, policy.measure state seed = .ok result →
    result.policyName = policy.name ∧ result.seedUsed = seed

lemma ProjectiveMeasurementPolicy.policy_signs [PyFloat R] :
    (policy : MeasurementPolicy R).Signs := by
  intro state seed result h
  have hprojects := projects_of_measure h
  exact ⟨hprojects.policyName_eq, hprojects.seedUsed_eq⟩

lemma WeakMeasurementPolicy.policy_signs [PyFloat R] [PyQuotient R]
    (w : WeakMeasurementPolicy R) : w.policy.Signs := by
  intro state seed result h
  replace h : w.measure state seed = .ok result := h
  dsimp only [measure] at h
  -- only the last branch returns a result
  split at h
  · cases h
  · split at h
    · cases h
    · split at h
      · cases h
      · split at h
        · cases h
        · obtain ⟨-, -, -, -, hseed, hname⟩ := MeasurementResult.new_ok h
          exact ⟨hname, hseed⟩

/-- The policies that come with the module. -/
inductive BuiltInPolicy (R : Type*) [PyFloat R]
  | projective
  | weak (w : WeakMeasurementPolicy R)

/-- The policy itself. -/
def BuiltInPolicy.policy [PyFloat R] [PyQuotient R] : BuiltInPolicy R → MeasurementPolicy R
  | projective => ProjectiveMeasurementPolicy.policy
  | weak w => w.policy

lemma BuiltInPolicy.policy_signs [PyFloat R] [PyQuotient R] (p : BuiltInPolicy R) :
    p.policy.Signs := by
  cases p with
  | projective => exact ProjectiveMeasurementPolicy.policy_signs
  | weak w => exact w.policy_signs

end QuantumFoundation
