import QuantumFoundation.Lib.Dict
import QuantumFoundation.Quantum.Numbers

/-!
# The selection of an outcome

The part that `collapse` of `core_measurement.py` and `projective_measurement` of
`measurement_math.py` have in common.  The expectations that are positive are summed up in the order
of the projectors until they reach the draw.  Nothing is assumed of the floats here.
-/

namespace QuantumFoundation

variable {R P : Type*} [PyFloat R]

/-! ### The loops -/

/-- The loop over the projectors: the probabilities that are positive, and their sum. -/
def probabilitiesLoop (expectation : P → Except Raised R) :
    List (String × P) → Dict String R → R → Except Raised (Dict String R × R)
  | [], probabilities, totalP => .ok (probabilities, totalP)
  | (name, projector) :: rest, probabilities, totalP =>
    match expectation projector with
    | .error exc => .error exc
    | .ok p =>
      if p > 0 then
        probabilitiesLoop expectation rest (probabilities.set name p) (totalP + p)
      else probabilitiesLoop expectation rest probabilities totalP

/-- The loop over the probabilities. -/
def selectLoop (roll : R) : R → List (String × R) → Option String
  | _, [] => none
  | cumulative, (name, p) :: rest =>
    let cumulative := cumulative + p
    if roll ≤ cumulative then some name else selectLoop roll cumulative rest

/-- `list(probabilities.keys())[-1]`. -/
def lastName (probabilities : Dict String R) : Except Raised String :=
  match probabilities.keys.getLast? with
  | none => .error ⟨.other "IndexError", "list index out of range"⟩
  | some name => .ok name

/-- The outcome that is selected.  The test `if not selected` holds of the empty name as well. -/
def selectOutcome (roll : R) (probabilities : Dict String R) : Except Raised String :=
  match selectLoop roll 0 probabilities.entries with
  | none => lastName probabilities
  | some selected => if selected = "" then lastName probabilities else .ok selected

/-- The probabilities and the outcome, if the probabilities sum up to one. -/
def selection (incomplete : R → Raised) (expectation : P → Except Raised R)
    (projectors : Dict String P) (roll : R) : Except Raised (Dict String R × String) :=
  match probabilitiesLoop expectation projectors.entries .empty 0 with
  | .error exc => .error exc
  | .ok (probabilities, totalP) =>
    if PyFloat.abs (totalP - 1) > 1e-6 then .error (incomplete totalP)
    else (selectOutcome roll probabilities).map (Prod.mk probabilities)

/-! ### Where the draw falls -/

/-- At the position the sum reaches the draw for the first time. -/
structure FirstReaching (roll : R) (l : List R) (j : ℕ) : Prop where
  lt_length : j < l.length
  reached : roll ≤ pySum (l.take (j + 1))
  before : ∀ i < j, ¬roll ≤ pySum (l.take (i + 1))

/-- The outcome that is meant: the one at which the sum reaches the draw, or the last one if it
never does. -/
def Intended (roll : R) (probabilities : Dict String R) (name : String) : Prop :=
  (∃ j, FirstReaching roll probabilities.values j ∧ probabilities.keys[j]? = some name) ∨
    (∀ j, ¬FirstReaching roll probabilities.values j) ∧
      probabilities.keys.getLast? = some name

/-- The outcome that is selected: the last one also in place of the empty name. -/
def Selected (roll : R) (probabilities : Dict String R) (name : String) : Prop :=
  (∃ j, FirstReaching roll probabilities.values j ∧ probabilities.keys[j]? = some name ∧
      name ≠ "") ∨
    (∀ j, FirstReaching roll probabilities.values j → probabilities.keys[j]? = some "") ∧
      probabilities.keys.getLast? = some name

lemma FirstReaching.unique {roll : R} {l : List R} {i j : ℕ} (hi : FirstReaching roll l i)
    (hj : FirstReaching roll l j) : i = j := by
  rcases Nat.lt_trichotomy i j with hlt | heq | hgt
  · exact absurd hi.reached (hj.before i hlt)
  · exact heq
  · exact absurd hj.reached (hi.before j hgt)

/-- **The loop**, after some probabilities that did not stop it. -/
theorem selectLoop_cases (roll : R) (pre : List R) (l : List (String × R)) :
    (selectLoop roll (pySum pre) l = none ∧
      ∀ i < l.length, ¬roll ≤ pySum (pre ++ (l.map Prod.snd).take (i + 1))) ∨
    ∃ j name, selectLoop roll (pySum pre) l = some name ∧ (l.map Prod.fst)[j]? = some name ∧
      j < l.length ∧ roll ≤ pySum (pre ++ (l.map Prod.snd).take (j + 1)) ∧
      ∀ i < j, ¬roll ≤ pySum (pre ++ (l.map Prod.snd).take (i + 1)) := by
  induction l generalizing pre with
  | nil => exact Or.inl ⟨rfl, fun i hi => absurd hi (Nat.not_lt_zero i)⟩
  | cons entry l ih =>
    obtain ⟨name, p⟩ := entry
    have hsum : pySum (pre ++ [p]) = pySum pre + p := by simp [pySum]
    have htake : ∀ i, pre ++ (p :: l.map Prod.snd).take (i + 1)
        = pre ++ [p] ++ (l.map Prod.snd).take i := by simp
    simp only [selectLoop, List.map_cons, htake, ← hsum]
    by_cases hp : roll ≤ pySum (pre ++ [p])
    · refine Or.inr ⟨0, name, if_pos hp, rfl, Nat.zero_lt_succ _, ?_,
        fun i hi => absurd hi (Nat.not_lt_zero i)⟩
      rwa [List.take_zero, List.append_nil]
    · have hzero : ¬roll ≤ pySum (pre ++ [p] ++ (l.map Prod.snd).take 0) := by
        rwa [List.take_zero, List.append_nil]
      rw [if_neg hp]
      -- the loop goes on behind the probability
      rcases ih (pre ++ [p]) with ⟨hnone, hnever⟩ | ⟨j, name', hsome, hname, hj, hreached, hbefore⟩
      · refine Or.inl ⟨hnone, fun i hi => ?_⟩
        cases i with
        | zero => exact hzero
        | succ i => exact hnever i (Nat.lt_of_succ_lt_succ hi)
      · refine Or.inr ⟨j + 1, name', hsome, hname, Nat.succ_lt_succ hj, hreached, fun i hi => ?_⟩
        cases i with
        | zero => exact hzero
        | succ i => exact hbefore i (Nat.lt_of_succ_lt_succ hi)

/-- The loop finds the position where the sum reaches the draw. -/
lemma selectLoop_eq_some_iff {roll : R} {probabilities : Dict String R} {name : String} :
    selectLoop roll 0 probabilities.entries = some name ↔
      ∃ j, FirstReaching roll probabilities.values j ∧ probabilities.keys[j]? = some name := by
  rcases selectLoop_cases roll [] probabilities.entries with
    ⟨hnone, hnever⟩ | ⟨j, name', hsome, hname, hj, hreached, hbefore⟩
  · refine iff_of_false (fun h => absurd (hnone.symm.trans h) (by simp)) ?_
    rintro ⟨j, hfirst, -⟩
    have hlt := hfirst.lt_length
    rw [Dict.values, List.length_map] at hlt
    exact hnever j hlt hfirst.reached
  · have hfirst : FirstReaching roll probabilities.values j :=
      ⟨by rwa [Dict.values, List.length_map], hreached, hbefore⟩
    have hloop : selectLoop roll 0 probabilities.entries = some name' := hsome
    rw [hloop]
    constructor
    · intro h
      exact ⟨j, hfirst, hname.trans h⟩
    · rintro ⟨i, hi, hname'⟩
      rw [hi.unique hfirst] at hname'
      exact hname.symm.trans hname'

omit [PyFloat R] in
lemma lastName_eq_ok_iff {probabilities : Dict String R} {name : String} :
    lastName probabilities = .ok name ↔ probabilities.keys.getLast? = some name := by
  rw [lastName]
  cases probabilities.keys.getLast? with
  | none => exact iff_of_false (by simp) (by simp)
  | some last => simp

lemma FirstReaching.exists_name {roll : R} {probabilities : Dict String R} {j : ℕ}
    (h : FirstReaching roll probabilities.values j) :
    ∃ name, probabilities.keys[j]? = some name := by
  have hlt : j < probabilities.keys.length := by
    have hlength := h.lt_length
    rw [Dict.values, List.length_map] at hlength
    rwa [Dict.keys, List.length_map]
  exact ⟨_, List.getElem?_eq_getElem hlt⟩

/-- **The selection.** -/
theorem selectOutcome_eq_ok_iff {roll : R} {probabilities : Dict String R} {name : String} :
    selectOutcome roll probabilities = .ok name ↔ Selected roll probabilities name := by
  rw [selectOutcome, Selected]
  cases hloop : selectLoop roll 0 probabilities.entries with
  | none =>
    have hnever : ∀ j, ¬FirstReaching roll probabilities.values j := by
      intro j hfirst
      obtain ⟨name', hname'⟩ := hfirst.exists_name
      have hsome := selectLoop_eq_some_iff.mpr ⟨j, hfirst, hname'⟩
      exact absurd (hloop.symm.trans hsome) (by simp)
    refine lastName_eq_ok_iff.trans ⟨fun h => Or.inr ⟨fun j hj => absurd hj (hnever j), h⟩, ?_⟩
    rintro (⟨j, hfirst, -⟩ | ⟨-, hlast⟩)
    · exact absurd hfirst (hnever j)
    · exact hlast
  | some selected =>
    obtain ⟨j, hfirst, hselected⟩ := selectLoop_eq_some_iff.mp hloop
    by_cases hempty : selected = ""
    · simp only [if_pos hempty]
      refine lastName_eq_ok_iff.trans ⟨fun h => Or.inr ⟨fun i hi => ?_, h⟩, ?_⟩
      · rw [hi.unique hfirst, hselected, hempty]
      · rintro (⟨i, hi, hname, hne⟩ | ⟨-, hlast⟩)
        · rw [hi.unique hfirst, hselected, hempty] at hname
          exact absurd (Option.some.inj hname).symm hne
        · exact hlast
    · simp only [if_neg hempty]
      constructor
      · intro h
        obtain rfl := Except.ok.inj h
        exact Or.inl ⟨j, hfirst, hselected, hempty⟩
      · rintro (⟨i, hi, hname, -⟩ | ⟨hall, -⟩)
        · rw [hi.unique hfirst, hselected] at hname
          rw [Option.some.inj hname]
        · have hnone := hall j hfirst
          rw [hselected] at hnone
          exact absurd (Option.some.inj hnone) hempty

/-- Some outcome is selected if there is one at all. -/
lemma exists_selected (roll : R) {probabilities : Dict String R}
    (hne : probabilities.entries ≠ []) : ∃ name, Selected roll probabilities name := by
  have hkeys : probabilities.keys ≠ [] := List.map_eq_nil_iff.not.mpr hne
  have hlast := List.getLast?_eq_some_getLast hkeys
  by_cases hany : ∃ j name, FirstReaching roll probabilities.values j ∧
      probabilities.keys[j]? = some name ∧ name ≠ ""
  · obtain ⟨j, name, h⟩ := hany
    exact ⟨name, Or.inl ⟨j, h⟩⟩
  · refine ⟨_, Or.inr ⟨fun j hj => ?_, hlast⟩⟩
    obtain ⟨name, hname⟩ := hj.exists_name
    rw [hname, not_not.mp fun hne => hany ⟨j, name, hj, hname, hne⟩]

/-- The selected outcome is one of those that have a probability. -/
lemma Selected.mem_keys {roll : R} {probabilities : Dict String R} {name : String}
    (h : Selected roll probabilities name) : name ∈ probabilities.keys := by
  rcases h with ⟨j, -, hname, -⟩ | ⟨-, hlast⟩
  · exact List.mem_of_getElem? hname
  · exact List.mem_of_getLast? hlast

/-- Without a positive probability the sum stays as it was. -/
lemma probabilitiesLoop_empty {expectation : P → Except Raised R} {l : List (String × P)}
    {acc probabilities : Dict String R} {t totalP : R}
    (h : probabilitiesLoop expectation l acc t = .ok (probabilities, totalP))
    (hempty : probabilities.entries = []) : acc.entries = [] ∧ totalP = t := by
  induction l generalizing acc t with
  | nil =>
    obtain ⟨rfl, rfl⟩ := Prod.mk.inj (Except.ok.inj h)
    exact ⟨hempty, rfl⟩
  | cons entry l ih =>
    obtain ⟨name, projector⟩ := entry
    rw [probabilitiesLoop] at h
    split at h
    · exact absurd h (by simp)
    · next p _ =>
      split at h
      · -- the dictionary has a key from now on
        have hkey : name ∈ (acc.set name p).keys := Dict.mem_keys_set.mpr (Or.inl rfl)
        rw [Dict.keys, (ih h).1] at hkey
        exact absurd hkey List.not_mem_nil
      · exact ih h

/-- A selection with these probabilities. -/
lemma selection_eq_ok_iff {incomplete : R → Raised} {expectation : P → Except Raised R}
    {projectors : Dict String P} {roll : R} {probabilities : Dict String R} {totalP : R}
    (hloop : probabilitiesLoop expectation projectors.entries .empty 0
      = .ok (probabilities, totalP)) (hsum : ¬PyFloat.abs (totalP - 1) > 1e-6) {name : String} :
    selection incomplete expectation projectors roll = .ok (probabilities, name) ↔
      Selected roll probabilities name := by
  rw [selection, hloop, ← selectOutcome_eq_ok_iff]
  simp only [if_neg hsum]
  cases selectOutcome roll probabilities with
  | error exc => exact iff_of_false (by simp [Except.map]) (by simp)
  | ok selected => simp [Except.map]

/-- **What is meant is selected** exactly if the outcome at which the sum reaches the draw does not
have the empty name, or is the last one. -/
theorem intended_iff {roll : R} {probabilities : Dict String R} {name : String}
    (h : Selected roll probabilities name) :
    Intended roll probabilities name ↔
      ∀ j, FirstReaching roll probabilities.values j → probabilities.keys[j]? = some "" →
        probabilities.keys.getLast? = some "" := by
  constructor
  · intro hintended j hj hempty
    rcases h with ⟨i, hi, hname, hne⟩ | ⟨-, hlast⟩
    · rw [hi.unique hj, hempty] at hname
      exact absurd (Option.some.inj hname).symm hne
    · rcases hintended with ⟨i, hi, hname⟩ | ⟨hnever, -⟩
      · rw [hi.unique hj, hempty] at hname
        rw [hlast, hname]
      · exact absurd hj (hnever j)
  · intro hcond
    rcases h with ⟨j, hj, hname, -⟩ | ⟨hall, hlast⟩
    · exact Or.inl ⟨j, hj, hname⟩
    · by_cases hany : ∃ j, FirstReaching roll probabilities.values j
      · obtain ⟨j, hj⟩ := hany
        have hname := hcond j hj (hall j hj)
        rw [hlast] at hname
        exact Or.inl ⟨j, hj, by rw [hall j hj, hname]⟩
      · exact Or.inr ⟨fun j hj => hany ⟨j, hj⟩, hlast⟩

end QuantumFoundation
