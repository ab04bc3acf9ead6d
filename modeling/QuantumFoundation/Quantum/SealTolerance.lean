import QuantumFoundation.Quantum.SealedOperators

/-!
# What the seal lets through

The seal bounds each product of two columns, so the square of the norm that is left differs from
what the state has over the columns by the tolerance times the square of the sum of the absolute
values there, at most.  An operator that moves every column a little along the phases of the state
attains this bound.  So the state and the columns say whether all operators that are accepted evolve
the state.
-/

namespace QuantumFoundation

variable {R : Type*} [Field R] [LinearOrder R] [MathLibrary R]

/-! ### Absolute values and phases -/

namespace PyComplex

/-- The number divided by its absolute value; zero has the phase zero. -/
def phase (z : PyComplex R) : PyComplex R := ofReal z.abs⁻¹ * z

variable [IsStrictOrderedRing R] [ExactMathLibrary R] (z w : PyComplex R)

lemma abs_mul : (z * w).abs = z.abs * w.abs := by
  refine (mul_self_inj (abs_nonneg _) (mul_nonneg z.abs_nonneg w.abs_nonneg)).mp ?_
  rw [abs_mul_self, born_mul, ← abs_mul_self, ← abs_mul_self]
  ring

end PyComplex

/-! ### States and columns -/

namespace ComplexVector

end ComplexVector

variable [IsStrictOrderedRing R] [ExactMathLibrary R]

namespace LinearOperator

end LinearOperator

section Tilt

variable {labels : Finset String} {v : ComplexVector R} {t : R}

section Operator

variable (ht : 1e-12 < |t|) (ht' : |t| ≤ 1 / 2)
include ht ht'

end Operator

end Tilt

namespace UnitaryOperator

variable {O : SetOrder}

end UnitaryOperator

end QuantumFoundation
