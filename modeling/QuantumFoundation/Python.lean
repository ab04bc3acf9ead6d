import Mathlib.Data.List.Dedup
import Mathlib.Algebra.Order.Ring.Int
import Mathlib.Data.Int.Range
import QuantumFoundation.Lib.Dict

/-!
# The parts of the Python runtime the programs rely on

Exceptions, the textual form of a list in an error message, and the iteration order of a
set of strings.  The order in which Python visits a set is not specified by the language;
it is a parameter, of which only its being an enumeration of the set is known.
-/

namespace QuantumFoundation

/-! ### Numerals -/

-- the numerals that are used in several modules, so that each of them has one instance
instance atLeastTwo_two : Nat.AtLeastTwo 2 := ⟨by decide⟩

instance atLeastTwo_three : Nat.AtLeastTwo 3 := ⟨by decide⟩

instance atLeastTwo_four : Nat.AtLeastTwo 4 := ⟨by decide⟩

instance atLeastTwo_five : Nat.AtLeastTwo 5 := ⟨by decide⟩

instance atLeastTwo_ten : Nat.AtLeastTwo 10 := ⟨by decide⟩

instance atLeastTwo_hundred : Nat.AtLeastTwo 100 := ⟨by decide⟩

instance atLeastTwo_twoHundred : Nat.AtLeastTwo 200 := ⟨by decide⟩

instance atLeastTwo_fiveHundred : Nat.AtLeastTwo 500 := ⟨by decide⟩

/-! ### Exceptions -/

/-- A raised exception with its message. -/
inductive PyError
  | runtimeError (msg : String)
  | valueError (msg : String)
  | other (msg : String)
deriving DecidableEq, Repr

/-- `str(exc)`. -/
def PyError.str : PyError → String
  | runtimeError msg => msg
  | valueError msg => msg
  | other msg => msg

/-- A method call: the state the object is left in, and what was returned or raised.  An
exception does not undo the changes made before it. -/
abbrev Outcome (σ α : Type*) := σ × Except PyError α

/-- The classes of the exceptions that are told apart by class. -/
inductive ErrorClass
  | valueError
  | typeError
  | keyError
  | overflowError
  | attributeError
  | assertionError
  | causalityViolation
  | pointOfNoReturnViolation
  | noCloningViolation
  | noDeletingViolation
  | confidenceCollapseViolation
  | invariantViolation
  | measurementInvariant
  | runtimeError
  | structError
  | nonUnitaryInvariant
  | normalizationInvariant
  | invalidStateStructure
  /-- A class of which the programs know nothing, raised by a function given to them. -/
  | other (name : String)
deriving DecidableEq, Repr

/-- A raised exception with its class and its message. -/
structure Raised where
  cls : ErrorClass
  msg : String
deriving DecidableEq, Repr

/-- The exception where only its main classes are told apart. -/
def Raised.toPyError (exc : Raised) : PyError :=
  match exc.cls with
  | .valueError => .valueError exc.msg
  | .runtimeError => .runtimeError exc.msg
  | _ => .other exc.msg

/-- A method call that may raise exceptions of several classes. -/
abbrev Attempt (σ α : Type*) := σ × Except Raised α

lemma exists_of_isSome {α ε : Type*} {e : Except ε α} (h : e.toOption.isSome = true) :
    ∃ a, e = .ok a := by
  cases e with
  | error exc => exact absurd h (by simp [Except.toOption])
  | ok a => exact ⟨a, rfl⟩

/-- What raises in two steps raises in the first or in the second. -/
lemma bind_eq_error {ε α β : Type*} {x : Except ε α} {f : α → Except ε β} {exc : ε}
    (h : x.bind f = .error exc) : x = .error exc ∨ ∃ a, x = .ok a ∧ f a = .error exc := by
  cases x with
  | error exc' => exact Or.inl (congrArg Except.error (Except.error.inj h))
  | ok a => exact Or.inr ⟨a, rfl, h⟩

/-- What returns behind a check has passed the check. -/
lemma guard_eq_ok {ε α : Type*} {c : Prop} [Decidable c] {exc : ε} {x : Except ε α} {a : α}
    (h : (if c then .error exc else x) = .ok a) : ¬c ∧ x = .ok a := by
  split at h
  · cases h
  · next hc => exact ⟨hc, h⟩

/-- What returns behind a check that its result carries has passed the check. -/
lemma dite_guard_eq_ok {ε α : Type*} {c : Prop} [Decidable c] {exc : ε} {x : ¬c → Except ε α}
    {a : α} (h : (if hc : c then .error exc else x hc) = .ok a) : ∃ hc : ¬c, x hc = .ok a := by
  split at h
  · cases h
  · next hc => exact ⟨hc, h⟩

/-- A check of what a call has returned. -/
lemma of_map_decide {α ε : Type*} {e : Except ε α} {p : α → Prop} [DecidablePred p] {a : α}
    (h : e.toOption.map (fun a => decide (p a)) = some true) (ha : e = .ok a) : p a := by
  rw [ha] at h
  exact of_decide_eq_true (Option.some.inj h)

/-- A call returns whatever is made of its result. -/
lemma isOk_map {ε α β : Type*} (f : α → β) (r : Except ε α) : (r.map f).isOk = r.isOk := by
  cases r <;> rfl

/-- A call of whose result something is known has returned. -/
lemma exists_of_toOption_map {α β ε : Type*} {e : Except ε α} {f : α → β} {b : β}
    (h : e.toOption.map f = some b) : ∃ a, e = .ok a ∧ f a = b := by
  cases e with
  | error exc => exact absurd h (by simp [Except.toOption])
  | ok a => exact ⟨a, rfl, Option.some.inj h⟩

lemma exists_of_map_eq_some {σ α β : Type*} {call : Attempt σ α} {f : α → β} {b : β}
    (h : call.2.toOption.map f = some b) : ∃ s a, call = (s, .ok a) ∧ f a = b := by
  obtain ⟨a, ha, hb⟩ := exists_of_toOption_map h
  exact ⟨call.1, a, Prod.ext rfl ha, hb⟩

/-- How a string is shown inside a list.  A string with an apostrophe and no double quote
is put into double quotes; characters that need an escape are not treated. -/
def reprStr (s : String) : String :=
  if s.contains '\'' && !s.contains '"' then "\"" ++ s ++ "\"" else "'" ++ s ++ "'"

/-- How a list of strings is shown. -/
def reprStrs (l : List String) : String := "[" ++ ", ".intercalate (l.map reprStr) ++ "]"

/-- `repr` of a list of integers. -/
def reprInts (l : List ℤ) : String := "[" ++ ", ".intercalate (l.map toString) ++ "]"

lemma repr_nat_inj {m n : ℕ} (h : m.repr = n.repr) : m = n := by
  have hdigits := congrArg String.toList h
  rw [Nat.toList_repr, Nat.toList_repr] at hdigits
  rw [← Nat.ofDigitChars_ten_toDigits (n := m), hdigits, Nat.ofDigitChars_ten_toDigits]

/-- The text of a number that is not negative does not begin with a minus. -/
lemma repr_nat_ne_minus {m : ℕ} {s : String} : m.repr ≠ "-" ++ s := by
  intro h
  have hmem : '-' ∈ Nat.toDigits 10 m := by
    rw [← Nat.toList_repr, h, String.toList_append]
    exact List.mem_append_left _ (by decide)
  exact absurd (Nat.isDigit_of_mem_toDigits (by decide) (by decide) hmem) (by decide)

/-- `str(i)` fixes the integer. -/
lemma toString_int_inj {i j : ℤ} (h : toString i = toString j) : i = j := by
  change i.repr = j.repr at h
  cases i with
  | ofNat m =>
    cases j with
    | ofNat n => rw [repr_nat_inj (m := m) (n := n) h]
    | negSucc n => exact absurd h repr_nat_ne_minus
  | negSucc m =>
    cases j with
    | ofNat n => exact absurd h.symm repr_nat_ne_minus
    | negSucc n =>
      have hmn := repr_nat_inj ((String.append_right_inj _).mp h)
      rw [Nat.succ.inj hmn]

/-- The text of a number that is not negative has digits and nothing else. -/
lemma not_mem_repr_nat {c : Char} (hdigit : c.isDigit = false) (m : ℕ) : c ∉ m.repr.toList := by
  intro hmem
  rw [Nat.toList_repr] at hmem
  have hc := Nat.isDigit_of_mem_toDigits (by decide) (by decide) hmem
  exact absurd (hdigit.symm.trans hc) (by decide)

/-- The text of a number has digits, and perhaps a minus, and nothing else. -/
lemma not_mem_toString_int {c : Char} (hdigit : c.isDigit = false) (hminus : c ≠ '-') (i : ℤ) :
    c ∉ (toString i).toList := by
  change c ∉ i.repr.toList
  cases i with
  | ofNat m => exact not_mem_repr_nat hdigit m
  | negSucc m =>
    intro hmem
    have hmem' : c ∈ ("-" ++ (m + 1).repr).toList := hmem
    rw [String.toList_append] at hmem'
    rcases List.mem_append.mp hmem' with h | h
    · exact hminus (by simpa using h)
    · exact not_mem_repr_nat hdigit (m + 1) h

/-- What stands before the last separator, and behind it, is fixed by the text. -/
lemma append_separator_inj {a b s t separator : String} {c : Char}
    (hsep : separator.toList = [c]) (hs : c ∉ s.toList) (ht : c ∉ t.toList)
    (h : a ++ separator ++ s = b ++ separator ++ t) : a = b ∧ s = t := by
  have hlist : a.toList ++ c :: s.toList = b.toList ++ c :: t.toList := by
    have := congrArg String.toList h
    simpa [String.toList_append, hsep] using this
  rcases List.append_eq_append_iff.mp hlist with ⟨m, hb, hm⟩ | ⟨m, ha, hm⟩
  · cases m with
    | nil => exact ⟨String.ext (by simpa using hb.symm), String.ext (by simpa using hm)⟩
    | cons d m =>
      -- the separator of the other side would stand in the last part
      have htail : s.toList = m ++ c :: t.toList := (List.cons.inj hm).2
      exact absurd (htail ▸ List.mem_append_right m List.mem_cons_self) hs
  · cases m with
    | nil => exact ⟨String.ext (by simpa using ha), String.ext (by simpa using hm.symm)⟩
    | cons d m =>
      have htail : t.toList = m ++ c :: s.toList := (List.cons.inj hm).2
      exact absurd (htail ▸ List.mem_append_right m List.mem_cons_self) ht

/-- The order in which the runtime visits a set of strings that was built from a list. -/
structure SetOrder where
  /-- The members, in the order in which they are visited. -/
  iter : List String → List String
  perm : ∀ l, (iter l).Perm l.dedup

/-- The order that visits the members by their last insertion. -/
def SetOrder.lastInsertion : SetOrder := ⟨List.dedup, fun _ => List.Perm.refl _⟩

/-- The order that visits one string first, if it is a member. -/
def SetOrder.first (s : String) : SetOrder where
  iter l := if s ∈ l then s :: l.dedup.erase s else l.dedup
  perm l := by
    split
    · next h => exact (List.perm_cons_erase (List.mem_dedup.mpr h)).symm
    · exact List.Perm.refl _

/-- `max(a, b)`: the first argument, unless the second is greater. -/
def pyMax {F : Type*} [LT F] [DecidableLT F] (a b : F) : F := if a < b then b else a

/-- `min(a, b)`: the first argument, unless the second is less. -/
def pyMin {F : Type*} [LT F] [DecidableLT F] (a b : F) : F := if b < a then b else a

/-- `max(l, key=key)`: the first of the members with the largest key, none of an empty list. -/
def maxKey {α : Type*} (key : α → ℤ) : List α → Option α
  | [] => none
  | x :: l => some (l.foldl (fun m y => if key m < key y then y else m) x)

/-- The loop of `maxKey` keeps a member whose key is the largest so far. -/
lemma maxKey_foldl {α : Type*} (key : α → ℤ) (l : List α) (x : α) :
    let m := l.foldl (fun m y => if key m < key y then y else m) x
    m ∈ x :: l ∧ ∀ a ∈ x :: l, key a ≤ key m := by
  induction l generalizing x with
  | nil => simp
  | cons y l ih =>
    rw [List.foldl_cons]
    split
    · next hlt =>
      obtain ⟨hmem, hle⟩ := ih y
      refine ⟨List.mem_cons_of_mem x hmem, fun a ha => ?_⟩
      rcases List.mem_cons.mp ha with rfl | ha
      · exact hlt.le.trans (hle y List.mem_cons_self)
      · exact hle a ha
    · next hlt =>
      obtain ⟨hmem, hle⟩ := ih x
      refine ⟨List.mem_cons.mpr ((List.mem_cons.mp hmem).imp_right (List.mem_cons_of_mem y)),
        fun a ha => ?_⟩
      rcases List.mem_cons.mp ha with rfl | ha
      · exact hle a List.mem_cons_self
      · rcases List.mem_cons.mp ha with rfl | ha
        · exact (not_lt.mp hlt).trans (hle x List.mem_cons_self)
        · exact hle a (List.mem_cons_of_mem x ha)

lemma maxKey_mem {α : Type*} {key : α → ℤ} {l : List α} {m : α} (h : maxKey key l = some m) :
    m ∈ l := by
  cases l with
  | nil => exact absurd h (by simp [maxKey])
  | cons x l =>
    rw [← Option.some.inj h]
    exact (maxKey_foldl key l x).1

lemma le_maxKey {α : Type*} {key : α → ℤ} {l : List α} {m a : α} (h : maxKey key l = some m)
    (ha : a ∈ l) : key a ≤ key m := by
  cases l with
  | nil => exact absurd ha List.not_mem_nil
  | cons x l =>
    rw [← Option.some.inj h]
    exact (maxKey_foldl key l x).2 a ha

/-- The first member wins against all whose keys are not larger. -/
lemma maxKey_cons_of_forall_le {α : Type*} {key : α → ℤ} {l : List α} {x : α}
    (h : ∀ y ∈ l, key y ≤ key x) : maxKey key (x :: l) = some x := by
  rw [maxKey]
  congr 1
  induction l with
  | nil => rfl
  | cons y l ih =>
    rw [List.foldl_cons, if_neg (not_lt.mpr (h y List.mem_cons_self))]
    exact ih fun z hz => h z (List.mem_cons_of_mem y hz)

/-- A list has one distinct member exactly if it is not empty and all its members are equal. -/
lemma length_dedup_eq_one {α : Type*} [DecidableEq α] {l : List α} :
    l.dedup.length = 1 ↔ l ≠ [] ∧ ∀ a ∈ l, ∀ b ∈ l, a = b := by
  constructor
  · intro h
    obtain ⟨v, hv⟩ := List.length_eq_one_iff.mp h
    have hmem : ∀ a ∈ l, a = v := fun a ha => by
      have := List.mem_dedup.mpr ha
      rwa [hv, List.mem_singleton] at this
    refine ⟨fun hl => ?_, fun a ha b hb => (hmem a ha).trans (hmem b hb).symm⟩
    rw [hl, List.dedup_nil] at h
    exact absurd h (by simp)
  · rintro ⟨hne, hall⟩
    obtain ⟨v, hv⟩ := List.exists_mem_of_ne_nil l hne
    have hrep : l.dedup = [v] := by
      refine List.perm_singleton.mp ((List.perm_ext_iff_of_nodup l.nodup_dedup
        (List.nodup_singleton v)).mpr fun a => ?_)
      rw [List.mem_dedup, List.mem_singleton]
      exact ⟨fun ha => hall a ha v hv, fun ha => ha ▸ hv⟩
    rw [hrep, List.length_singleton]

lemma length_dedup_le_one {α : Type*} [DecidableEq α] {l : List α}
    (h : ∀ a ∈ l, ∀ b ∈ l, a = b) : l.dedup.length ≤ 1 := by
  rcases eq_or_ne l [] with rfl | hl
  · simp
  · exact (length_dedup_eq_one.mpr ⟨hl, h⟩).le

/-- A list has at most one distinct member exactly if all its members are equal. -/
lemma length_dedup_le_one_iff {α : Type*} [DecidableEq α] {l : List α} :
    l.dedup.length ≤ 1 ↔ ∀ a ∈ l, ∀ b ∈ l, a = b := by
  refine ⟨fun h a ha => ?_, length_dedup_le_one⟩
  have hpos : 0 < l.dedup.length := List.length_pos_of_mem (List.mem_dedup.mpr ha)
  exact (length_dedup_eq_one.mp (by omega)).2 a ha

lemma SetOrder.length_iter_eq_one (O : SetOrder) {l : List String} :
    (O.iter l).length = 1 ↔ l ≠ [] ∧ ∀ a ∈ l, ∀ b ∈ l, a = b := by
  rw [(O.perm l).length_eq, length_dedup_eq_one]

lemma SetOrder.length_iter_le_one (O : SetOrder) {l : List String} :
    (O.iter l).length ≤ 1 ↔ ∀ a ∈ l, ∀ b ∈ l, a = b := by
  rw [(O.perm l).length_eq, length_dedup_le_one_iff]

lemma SetOrder.mem_iter {O : SetOrder} {l : List String} {s : String} :
    s ∈ O.iter l ↔ s ∈ l := (O.perm l).mem_iff.trans List.mem_dedup

/-- A set is empty exactly if it was built from nothing. -/
lemma SetOrder.iter_eq_nil {O : SetOrder} {l : List String} : O.iter l = [] ↔ l = [] := by
  rw [List.eq_nil_iff_forall_not_mem, List.eq_nil_iff_forall_not_mem]
  exact forall_congr' fun s => not_congr mem_iter

end QuantumFoundation
