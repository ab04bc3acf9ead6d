import Mathlib.Data.List.Basic

/-!
# Systems that answer

A system that answers every action: a step function from a state and an action to a state and an
answer.  Two systems that a relation connects, which every action keeps and under which they give
the same answer, cannot be told apart from outside.
-/

namespace QuantumFoundation

namespace Run

variable {σ τ α β : Type*} {step : σ → α → σ × β} {step' : τ → α → τ × β}

/-- The state reached by performing the actions in order, and the answers that are given. -/
def answer (step : σ → α → σ × β) : σ → List α → σ × List β
  | s, [] => (s, [])
  | s, a :: as => ((answer step (step s a).1 as).1, (step s a).2 :: (answer step (step s a).1 as).2)

@[simp] lemma answer_nil (s : σ) : answer step s [] = (s, []) := rfl

lemma answer_cons (s : σ) (a : α) (as : List α) : answer step s (a :: as)
    = ((answer step (step s a).1 as).1, (step s a).2 :: (answer step (step s a).1 as).2) := rfl

/-- **Simulation.**  A relation that every action keeps, and under which every action is answered
alike, connects the ends of two runs with the same actions, and these have the same answers. -/
theorem answer_eq_of_simulation {R : σ → τ → Prop}
    (hstep : ∀ s t a, R s t → R (step s a).1 (step' t a).1 ∧ (step s a).2 = (step' t a).2)
    {s : σ} {t : τ} (h₀ : R s t) (as : List α) :
    R (answer step s as).1 (answer step' t as).1 ∧
      (answer step s as).2 = (answer step' t as).2 := by
  induction as generalizing s t with
  | nil => exact ⟨h₀, rfl⟩
  | cons a as ih =>
    obtain ⟨hnext, hanswer⟩ := hstep s t a h₀
    obtain ⟨hend, hrest⟩ := ih hnext
    refine ⟨hend, ?_⟩
    rw [answer_cons, answer_cons, hanswer, hrest]

end Run

end QuantumFoundation
