import QuantumFoundation.Lib.Run
import QuantumFoundation.Quantum.StateHistory

/-!
# Runs of a state engine

Whatever rules are registered and whatever observations are presented, in whatever order and
whichever calls raise: the log of a state engine is a numbered chain of states, from the initial
state to the current one, and every beginning of it replays to its last state.  The check of the
replay says so unless the current state has a NaN, which the check of the norm lets through.
-/

namespace QuantumFoundation

variable {R ω : Type*} [PyFloat R]

/-- No amplitude has a NaN, the only float that is not equal to itself. -/
def StateVector.HasNoNaN (s : StateVector R) : Prop :=
  ∀ a ∈ s.amplitudes, (a.value == a.value) = true

lemma StateVector.HasNoNaN.beq_self {s : StateVector R} (h : s.HasNoNaN) : (s == s) = true := by
  have hself : ∀ l : List (Amplitude R), (∀ a ∈ l, (a.value == a.value) = true) →
      (l == l) = true := by
    intro l hl
    induction l with
    | nil => rfl
    | cons a l ih =>
      have ha : (a == a) = true := by
        show (a.basisLabel == a.basisLabel && a.value == a.value) = true
        rw [hl a List.mem_cons_self, beq_self_eq_true]
        rfl
      rw [List.cons_beq_cons, ha, ih fun b hb => hl b (List.mem_cons_of_mem a hb)]
      rfl
  exact hself s.amplitudes h

namespace SovereignStateEngine

/-- A call of a method that may change the engine. -/
inductive Call (R ω : Type*) [PyFloat R]
  | registerRule (observationType : String) (rule : TransitionRule R ω) (description : String)
  | observe (observation : Observation ω)

/-- A call: what it leaves behind, and whether it returns or raises. -/
def call (engine : SovereignStateEngine R ω) :
    Call R ω → Attempt (SovereignStateEngine R ω) Unit
  | .registerRule observationType rule description =>
    engine.registerRule observationType rule description
  | .observe observation =>
    let r := engine.observe observation
    (r.1, r.2.map fun _ => ())

/-- What a call leaves behind. -/
def perform (engine : SovereignStateEngine R ω) (c : Call R ω) : SovereignStateEngine R ω :=
  (engine.call c).1

variable {initialState : StateVector R} {engine : SovereignStateEngine R ω}

/-- A call that raises changes nothing. -/
lemma perform_of_error {c : Call R ω} {exc : Raised} (h : (engine.call c).2 = .error exc) :
    engine.perform c = engine := by
  cases c with
  | registerRule observationType rule description =>
    rcases engine.registerRule_cases observationType rule description with
      ⟨exc', hr⟩ | ⟨-, hr⟩
    · rw [perform, call, hr]
    · rw [call, hr] at h
      exact absurd h (by simp)
  | observe observation =>
    rcases engine.observe_cases observation with ⟨exc', hr, -⟩ | ⟨delta, hr, -⟩
    · rw [perform, call, hr]
    · rw [call, hr] at h
      exact absurd h (by simp [Except.map])

/-- **Step lemma.**  Every call keeps the history. -/
theorem History.perform (h : History initialState engine) (c : Call R ω) :
    History initialState (engine.perform c) := by
  cases c with
  | registerRule observationType rule description =>
    exact h.registerRule observationType rule description
  | observe observation =>
    rcases engine.observe_cases observation with ⟨exc, hr, -⟩ | ⟨delta, hr, -, hrecords⟩
    · rw [SovereignStateEngine.perform, call, hr]
      exact h
    · rw [SovereignStateEngine.perform, call, hr]
      exact h.commit hrecords

/-- **The log of a state engine.**  After any calls: a call that raises changes nothing, the
deltas are numbered from 0, they lead without a gap from the initial state to the current one,
their states have the dimension of the initial state, and every beginning of the log replays to
its last state.  If the current state has no NaN, then the check of the replay says yes. -/
theorem log_replays (initialState : StateVector R) (calls : List (Call R ω)) :
    let x := Run.exec SovereignStateEngine.perform (new initialState) calls
    (∀ c exc, (x.call c).2 = .error exc → x.perform c = x) ∧
      NumberedFrom StateDelta.sequenceNumber 0 x.deltaLog ∧
      Linked StateDelta.priorState StateDelta.nextState initialState x.deltaLog ∧
      x.currentState = tip StateDelta.nextState initialState x.deltaLog ∧
      (∀ d ∈ x.deltaLog, d.priorState.dimension = initialState.dimension ∧
        d.nextState.dimension = initialState.dimension) ∧
      (∀ L, L <+: x.deltaLog →
        x.replayFromLog initialState L = .ok (tip StateDelta.nextState initialState L)) ∧
      (x.currentState.HasNoNaN → x.verifyReplayIntegrity = .ok true) := by
  intro x
  have h : History initialState x :=
    Run.invariant_of_forall (fun _ c h => h.perform c) (History.init initialState) calls
  exact ⟨fun _ _ => perform_of_error, h.numbered, h.linked, h.state_eq, h.dimensions,
    fun _ => h.replayFromLog_isPrefix, fun hnum => h.verifyReplayIntegrity_ok hnum.beq_self⟩

end SovereignStateEngine

/-! ### A state with a NaN -/

/-- Fractions and a NaN. -/
inductive NanRat
  | nan
  | num (q : ℚ)

namespace NanRat

/-- An operation on the fractions, which a NaN spoils. -/
def lift₂ (f : ℚ → ℚ → ℚ) : NanRat → NanRat → NanRat
  | num a, num b => num (f a b)
  | _, _ => nan

/-- A function of the fractions, which a NaN spoils. -/
def lift (f : ℚ → ℚ) : NanRat → NanRat
  | num a => num (f a)
  | nan => nan

/-- A comparison of the fractions, which a NaN fails. -/
def compares (p : ℚ → ℚ → Bool) : NanRat → NanRat → Bool
  | num a, num b => p a b
  | _, _ => false

/-- Arithmetic with a NaN, over the library functions on the fractions. -/
instance : PyFloat NanRat where
  zero := num 0
  one := num 1
  add := lift₂ (· + ·)
  sub := lift₂ (· - ·)
  mul := lift₂ (· * ·)
  neg := lift fun a => -a
  lt a b := compares (fun a b => a < b) a b = true
  le a b := compares (fun a b => a ≤ b) a b = true
  ofScientific m s e := num (OfScientific.ofScientific m s e)
  beq := compares fun a b => a = b
  decLT _ _ := inferInstanceAs (Decidable (_ = true))
  decLE _ _ := inferInstanceAs (Decidable (_ = true))
  abs := lift fun a => |a|
  truediv m n := num (m / n)
  sqrt := lift MathLibrary.sqrt
  log2 := lift MathLibrary.log2
  hypot := lift₂ MathLibrary.hypot
  expI
    | num a => (num (MathLibrary.expI a).1, num (MathLibrary.expI a).2)
    | nan => (nan, nan)
  digest64 seed _ := MathLibrary.digest64 (R := ℚ) seed []
  fixed _ _ := ""
  scientific2 _ := ""
  fixedComplex4 _ _ := ""
  str _ := ""
  strComplex _ _ := ""

end NanRat

/-- A state of dimension one. -/
def soundState : StateVector NanRat where
  amplitudes := [⟨"0", ⟨.num 1, .num 0⟩⟩]
  amplitudes_ne := by decide
  labels_nodup := by decide
  norm_near := by decide +kernel

/-- The state that `StateVector({"0": complex("nan")})` makes: the check of its norm compares
with a NaN. -/
def nanState : StateVector NanRat where
  amplitudes := [⟨"0", ⟨.nan, .num 0⟩⟩]
  amplitudes_ne := by decide
  labels_nodup := by decide
  norm_near := by decide +kernel

namespace SovereignStateEngine

/-- The rule that makes a state with a NaN is applied and logged, and then the check of the
replay raises. -/
theorem nan_fails_replay_check :
    let x := Run.exec SovereignStateEngine.perform (new soundState : SovereignStateEngine _ ℤ)
      [.registerRule "spoil" (fun _ _ => .ok nanState) "", .observe ⟨"spoil", [], by decide⟩]
    x.deltaLog.length = 1 ∧
      x.verifyReplayIntegrity = .error ⟨.assertionError, "[INTEGRITY FAILURE] Replay produced a "
        ++ "different state than current. Delta log may have been tampered with."⟩ := by
  decide +kernel

end SovereignStateEngine

end QuantumFoundation
