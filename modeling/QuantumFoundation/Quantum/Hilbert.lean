import QuantumFoundation.Lib.Dict
import QuantumFoundation.Quantum.Numbers

/-!
# Vectors and operators

The sparse complex vectors of `complex_vector.py`, the normalised states of `core_state.py` and the
unitary operators of `core_operators.py`, each with the checks of its constructor.  Sums over sets
of labels are taken in the order in which the runtime visits the set.
-/

namespace QuantumFoundation

variable {R : Type*} [PyFloat R]

/-! ### Vectors -/

/-- A vector: the amplitudes that are not zero. -/
structure ComplexVector (R : Type*) [PyFloat R] where
  amplitudes : Dict String (PyComplex R)
  pruned : ∀ p ∈ amplitudes.entries, p.2.abs > 0

namespace ComplexVector

/-- The constructor, which drops the zeros. -/
def new (amplitudes : Dict String (PyComplex R)) : ComplexVector R where
  amplitudes := amplitudes.filter fun p => p.2.abs > 0
  pruned := by
    intro p hp
    simpa using (List.mem_filter.mp hp).2

/-- `amplitudes.get(k, complex(0))`. -/
def get (v : ComplexVector R) (k : String) : PyComplex R := (v.amplitudes.get? k).getD (.ofReal 0)

/-- `inner`. -/
def inner (O : SetOrder) (u v : ComplexVector R) : PyComplex R :=
  (O.iter (u.amplitudes.keys.filter fun k => v.amplitudes.contains k)).foldl
    (fun sum k => sum + (u.get k).conjugate * v.get k) (.ofReal 0)

/-- `norm`. -/
def norm (O : SetOrder) (v : ComplexVector R) : Except Raised R :=
  let innerSelf := v.inner O v
  if PyFloat.abs innerSelf.im < 1e-12 then .ok (PyFloat.sqrt innerSelf.re)
  else
    .error ⟨.assertionError, "Mathematical violation: inner product of self with self must be "
      ++ "strictly real."⟩

/-- `is_zero`. -/
def isZero (v : ComplexVector R) : Bool := v.amplitudes.size = 0

end ComplexVector

/-! ### States -/

/-- A normalised vector.  The last two fields are the checks of the constructor. -/
structure QuantumState (O : SetOrder) (R : Type*) [PyFloat R] where
  vector : ComplexVector R
  isZero_eq : vector.isZero = false
  norm_near : ∃ n, vector.norm O = .ok n ∧ ¬PyFloat.abs (n - 1) > 1e-9

namespace QuantumState

variable (O : SetOrder)

/-- The constructor with its checks, in their order. -/
def new (vector : ComplexVector R) : Except Raised (QuantumState O R) :=
  if h₁ : vector.isZero = true then
    .error ⟨.invalidStateStructure, "A quantum state cannot be the mathematical zero vector."⟩
  else
    match h₂ : vector.norm O with
    | .error exc => .error exc
    | .ok n =>
      if h₃ : PyFloat.abs (n - 1) > 1e-9 then
        .error ⟨.normalizationInvariant, "Hilbert space constraint violated: State vector L2-norm "
          ++ "is " ++ PyFloat.str n ++ ", exactly 1.0 required."⟩
      else .ok ⟨vector, Bool.eq_false_iff.mpr h₁, n, h₂, h₃⟩

/-- `from_dict`. -/
def fromDict (amplitudes : Dict String (PyComplex R)) : Except Raised (QuantumState O R) :=
  new O (.new amplitudes)

variable {O}

lemma vector_of_new {vector : ComplexVector R} {q : QuantumState O R}
    (h : new O vector = .ok q) : q.vector = vector := by
  rw [new] at h
  split at h
  · exact absurd h (by simp)
  · split at h
    · exact absurd h (by simp)
    · split at h
      · exact absurd h (by simp)
      · rw [← Except.ok.inj h]

end QuantumState

/-! ### Operators -/

/-- A linear operator: the entries of its matrix, by row and column, that are not negligible. -/
structure LinearOperator (R : Type*) [PyFloat R] where
  matrix : Dict (String × String) (PyComplex R)
  pruned : ∀ p ∈ matrix.entries, p.2.abs > 1e-12

namespace LinearOperator

/-- The constructor, which drops what is negligible. -/
def new (matrix : Dict (String × String) (PyComplex R)) : LinearOperator R where
  matrix := matrix.filter fun p => p.2.abs > 1e-12
  pruned := by
    intro p hp
    simpa using (List.mem_filter.mp hp).2

/-- `apply`. -/
def apply (vector : ComplexVector R) (A : LinearOperator R) : ComplexVector R :=
  .new (A.matrix.entries.foldl (fun newAmplitudes p =>
    let vecAmp := vector.get p.1.2
    if vecAmp.abs > 0 then
      newAmplitudes.set p.1.1 ((newAmplitudes.get? p.1.1).getD (.ofReal 0) + p.2 * vecAmp)
    else newAmplitudes) .empty)

/-- `dagger`. -/
def dagger (A : LinearOperator R) : LinearOperator R :=
  .new (.ofList (A.matrix.entries.map fun p => ((p.1.2, p.1.1), p.2.conjugate)))

/-- `__mul__`. -/
def mul (A B : LinearOperator R) : LinearOperator R :=
  .new (A.matrix.entries.foldl (fun newMatrix p =>
    B.matrix.entries.foldl (fun newMatrix q =>
      if p.1.2 = q.1.1 then
        newMatrix.set (p.1.1, q.1.2)
          ((newMatrix.get? (p.1.1, q.1.2)).getD (.ofReal 0) + p.2 * q.2)
      else newMatrix) newMatrix) .empty)

/-- The loop of the seal over the entries of `U† U`. -/
def entryLoop : List ((String × String) × PyComplex R) → Except Raised Unit
  | [] => .ok ()
  | ((row, col), val) :: rest =>
    if row = col then
      if (val - .ofReal 1).abs > 1e-9 then
        .error ⟨.nonUnitaryInvariant, "Unitarity failed: Diagonal element (" ++ row ++ "," ++ col
          ++ ") norm is " ++ PyFloat.str val.abs ++ ", expected 1.0"⟩
      else entryLoop rest
    else if val.abs > 1e-9 then
      .error ⟨.nonUnitaryInvariant, "Unitarity failed: Off-diagonal element (" ++ row ++ "," ++ col
        ++ ") is " ++ val.str ++ ", expected 0.0"⟩
    else entryLoop rest

/-- The loop of the seal over the columns. -/
def coverageLoop (identityTest : LinearOperator R) : List String → Except Raised Unit
  | [] => .ok ()
  | basis :: rest =>
    if ((identityTest.matrix.get? (basis, basis)).getD (.ofReal 0) - .ofReal 1).abs > 1e-9 then
      .error ⟨.nonUnitaryInvariant,
        "Unitarity failed: Missing norm conservation on basis " ++ basis⟩
    else coverageLoop identityTest rest

/-- `_seal_unitarity_invariant`. -/
def sealUnitarityInvariant (O : SetOrder) (A : LinearOperator R) : Except Raised Unit :=
  let identityTest := A.dagger.mul A
  match entryLoop identityTest.matrix.entries with
  | .error exc => .error exc
  | .ok () => coverageLoop identityTest (O.iter (A.matrix.keys.map Prod.snd))

end LinearOperator

/-- A unitary operator.  The last field is the seal of the constructor. -/
structure UnitaryOperator (O : SetOrder) (R : Type*) [PyFloat R] extends LinearOperator R where
  unitarity : toLinearOperator.sealUnitarityInvariant O = .ok ()

namespace UnitaryOperator

variable (O : SetOrder)

/-- The constructor with its seal. -/
def new (matrix : Dict (String × String) (PyComplex R)) : Except Raised (UnitaryOperator O R) :=
  match h : (LinearOperator.new matrix).sealUnitarityInvariant O with
  | .error exc => .error exc
  | .ok () => .ok ⟨.new matrix, h⟩

variable {O}

/-- `evolve`. -/
def evolve (state : QuantumState O R) (U : UnitaryOperator O R) :
    Except Raised (QuantumState O R) :=
  QuantumState.new O (U.toLinearOperator.apply state.vector)

end UnitaryOperator

end QuantumFoundation
