import Mathlib.Algebra.Order.Field.Basic
import Mathlib.Algebra.Order.Ring.Rat
import Mathlib.Data.Nat.Sqrt
import Mathlib.Data.Rat.Floor
import Mathlib.Tactic.FieldSimp
import Mathlib.Tactic.Linarith
import QuantumFoundation.Python

/-!
# Floats and complex numbers

The states carry complex amplitudes over Python floats.  A type of floats is a type with the
operations the programs use and no laws, so what is proved of it holds of IEEE arithmetic and of
exact arithmetic alike.  Exact arithmetic is that of an ordered field, with the functions of the
libraries `math`, `cmath` and `hashlib` as a parameter.
-/

namespace QuantumFoundation

/-! ### Floats -/

/-- Python's `float`, with the library functions that the programs apply to floats. -/
class PyFloat (R : Type*) extends Zero R, One R, Add R, Sub R, Mul R, Neg R, LT R, LE R,
    OfScientific R, BEq R where
  decLT : DecidableLT R
  decLE : DecidableLE R
  abs : R → R
  /-- `m / n` of two integers. -/
  truediv : ℕ → ℕ → R
  sqrt : R → R
  log2 : R → R
  hypot : R → R → R
  /-- The real and the imaginary part of `cmath.exp(1j * x)`. -/
  expI : R → R × R
  /-- The first 16 hexadecimal digits of the SHA-256 digest of the packed seed and floats. -/
  digest64 : ℤ → List R → Fin (16 ^ 16)
  /-- `format(x, ".nf")`, for the number `n` of decimals. -/
  fixed : ℕ → R → String
  /-- `format(x, ".2e")`. -/
  scientific2 : R → String
  /-- `format(z, ".4f")`, of the complex number with these parts. -/
  fixedComplex4 : R → R → String
  str : R → String
  /-- `str(z)`, of the complex number with these parts. -/
  strComplex : R → R → String

instance PyFloat.instDecidableLT {R : Type*} [PyFloat R] : DecidableLT R := PyFloat.decLT

instance PyFloat.instDecidableLE {R : Type*} [PyFloat R] : DecidableLE R := PyFloat.decLE

/-- `sum(l)`, from the left and starting with zero. -/
def pySum {R : Type*} [PyFloat R] (l : List R) : R := l.foldl (· + ·) 0

/-! ### Exact arithmetic -/

/-- The functions of the libraries, over an ordered field. -/
class MathLibrary (R : Type*) where
  sqrt : R → R
  log2 : R → R
  hypot : R → R → R
  expI : R → R × R
  digest64 : ℤ → List R → Fin (16 ^ 16)
  fixed : ℕ → R → String
  scientific2 : R → String
  fixedComplex4 : R → R → String
  str : R → String
  strComplex : R → R → String

/-- What the documentation says of `math.log2` at one, and of `cmath.exp` on the imaginary axis. -/
class LawfulMathLibrary (R : Type*) [Field R] [MathLibrary R] : Prop where
  log2_one : MathLibrary.log2 (1 : R) = 0
  expI_unit : ∀ x : R, (MathLibrary.expI x).1 * (MathLibrary.expI x).1
    + (MathLibrary.expI x).2 * (MathLibrary.expI x).2 = 1

/-- Exact arithmetic. -/
instance (priority := low) exactFloat {R : Type*} [Field R] [LinearOrder R] [M : MathLibrary R] :
    PyFloat R where
  beq a b := decide (a = b)
  decLT := inferInstance
  decLE := inferInstance
  abs x := |x|
  truediv m n := m / n
  sqrt := M.sqrt
  log2 := M.log2
  hypot := M.hypot
  expI := M.expI
  digest64 := M.digest64
  fixed := M.fixed
  scientific2 := M.scientific2
  fixedComplex4 := M.fixedComplex4
  str := M.str
  strComplex := M.strComplex

/-! ### Complex numbers -/

/-- Python's `complex`. -/
structure PyComplex (R : Type*) where
  re : R
  im : R
deriving DecidableEq

namespace PyComplex

variable {R : Type*} [PyFloat R]

instance : BEq (PyComplex R) := ⟨fun z w => z.re == w.re && z.im == w.im⟩

/-- `complex(x)`. -/
def ofReal (x : R) : PyComplex R := ⟨x, 0⟩

instance : Add (PyComplex R) := ⟨fun z w => ⟨z.re + w.re, z.im + w.im⟩⟩

instance : Sub (PyComplex R) := ⟨fun z w => ⟨z.re - w.re, z.im - w.im⟩⟩

instance : Mul (PyComplex R) :=
  ⟨fun z w => ⟨z.re * w.re - z.im * w.im, z.re * w.im + z.im * w.re⟩⟩

/-- `z.conjugate()`. -/
def conjugate (z : PyComplex R) : PyComplex R := ⟨z.re, -z.im⟩

/-- `abs(z)`. -/
def abs (z : PyComplex R) : R := PyFloat.hypot z.re z.im

/-- `cmath.exp(1j * x)`. -/
def expI (x : R) : PyComplex R := ⟨(PyFloat.expI x).1, (PyFloat.expI x).2⟩

/-- `str(z)`. -/
def str (z : PyComplex R) : String := PyFloat.strComplex z.re z.im

/-- The square of the absolute value, as the Born rule computes it. -/
def born (z : PyComplex R) : R := (z * z.conjugate).re

end PyComplex

/-! ### Fractions -/

instance neZero_digests : NeZero (16 ^ 16) := ⟨by norm_num⟩

/-- Library functions over the fractions: roots cut off after 16 decimals, logarithms that are
exact at the powers of two, and a point on the unit circle close to the one meant.  A seed from 0
to 15 stands for the first digit of its digest. -/
instance rationalLibrary : MathLibrary ℚ where
  sqrt x := Nat.sqrt (x * 10 ^ 32).floor.toNat / 10 ^ 16
  log2 x := if 1 ≤ x then Nat.log2 x.floor.toNat else -Nat.log2 x⁻¹.floor.toNat
  hypot x y := Nat.sqrt ((x * x + y * y) * 10 ^ 32).floor.toNat / 10 ^ 16
  expI x := ((1 - x / 2 * (x / 2)) / (1 + x / 2 * (x / 2)), x / (1 + x / 2 * (x / 2)))
  digest64 seed _ := Fin.ofNat _ (seed.toNat * 16 ^ 15)
  fixed _ x := toString x
  scientific2 x := toString x
  fixedComplex4 x y := toString x ++ "+" ++ toString y ++ "j"
  str x := toString x
  strComplex x y := "(" ++ toString x ++ "+" ++ toString y ++ "j)"

instance : LawfulMathLibrary ℚ where
  log2_one := by decide +kernel
  expI_unit x := by
    have hpos : 1 + x / 2 * (x / 2) ≠ 0 :=
      (add_pos_of_pos_of_nonneg one_pos (mul_self_nonneg _)).ne'
    show (1 - x / 2 * (x / 2)) / (1 + x / 2 * (x / 2)) * ((1 - x / 2 * (x / 2))
      / (1 + x / 2 * (x / 2))) + x / (1 + x / 2 * (x / 2)) * (x / (1 + x / 2 * (x / 2))) = 1
    field_simp
    ring

end QuantumFoundation
