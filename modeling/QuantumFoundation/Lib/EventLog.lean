import Mathlib.Data.List.Basic

/-!
# Logs of events

The sublog of the events of one kind, and laws about an event and the events before it.  Both are
read off a log that only grows, so each comes with a lemma about appending one event.
-/

namespace QuantumFoundation

namespace EventLog

variable {ε κ α : Type*}

/-! ### One kind of events -/

section OfKind

variable [DecidableEq κ] (kind : ε → κ) (payload : ε → α) (k : κ)

/-- The payloads of the events of one kind. -/
def ofKind (L : List ε) : List α := (L.filter fun e => kind e = k).map payload

variable {kind payload k} {L : List ε} {e : ε}

lemma ofKind_append_of_eq (h : kind e = k) :
    ofKind kind payload k (L ++ [e]) = ofKind kind payload k L ++ [payload e] := by
  simp [ofKind, h]

lemma ofKind_append_of_ne (h : kind e ≠ k) :
    ofKind kind payload k (L ++ [e]) = ofKind kind payload k L := by
  simp [ofKind, h]

end OfKind

/-! ### Laws about the past of an event -/

variable {P : List ε → ε → Prop} {L : List ε} {e : ε}

/-- Every event meets `P`, a law about the events before it and the event itself. -/
def EachAfter (P : List ε → ε → Prop) (L : List ε) : Prop :=
  ∀ pre e post, L = pre ++ e :: post → P pre e

lemma eachAfter_nil : EachAfter P [] := by
  intro pre e post h
  simp at h

lemma eachAfter_append_singleton : EachAfter P (L ++ [e]) ↔ EachAfter P L ∧ P L e := by
  constructor
  · intro h
    refine ⟨?_, h L e [] rfl⟩
    rintro pre x post rfl
    exact h pre x (post ++ [e]) (by simp)
  · rintro ⟨hL, he⟩ pre x post heq
    rcases List.eq_nil_or_concat post with rfl | ⟨post, y, rfl⟩
    · obtain ⟨rfl, hx⟩ := List.append_inj' heq rfl
      rwa [← List.singleton_inj.mp hx]
    · rw [List.concat_eq_append, ← List.cons_append, ← List.append_assoc] at heq
      exact hL pre x post (List.append_inj' heq rfl).1

end EventLog

end QuantumFoundation
