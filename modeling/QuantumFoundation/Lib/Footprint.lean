import Mathlib.Data.Set.Lattice
import Mathlib.Order.CompletePartialOrder

/-!
# Operations with a footprint

An operation on a store may fail, and is confined to a set of cells if it neither looks at nor
changes any other cell.  Two operations that are confined to disjoint sets commute: the second
finds its own cells as the first has found them, whether it goes first or last.
-/

namespace QuantumFoundation

variable {κ υ : Type*} {d e : Set κ} {f g : (κ → υ) → Option (κ → υ)}

/-- The operation neither reads nor writes a cell outside of the set. -/
structure ConfinedTo (d : Set κ) (f : (κ → υ) → Option (κ → υ)) : Prop where
  /-- The other cells stay as they are. -/
  frame : ∀ {σ σ' : κ → υ}, f σ = some σ' → ∀ k ∉ d, σ' k = σ k
  /-- On stores that agree on the set, it goes through alike, and writes the same there. -/
  reads : ∀ {σ σ' τ : κ → υ}, f σ = some σ' → (∀ k ∈ d, τ k = σ k) →
    ∃ τ', f τ = some τ' ∧ ∀ k ∈ d, τ' k = σ' k

namespace ConfinedTo

/-- What goes through in one order goes through in the other, with the same result. -/
lemma bind_swap (hf : ConfinedTo d f) (hg : ConfinedTo e g) (h : Disjoint d e) {σ ρ : κ → υ}
    (hρ : (f σ).bind g = some ρ) : (g σ).bind f = some ρ := by
  obtain ⟨σ₁, hσ₁, hgσ₁⟩ := Option.bind_eq_some_iff.mp hρ
  have hne : ∀ k ∈ e, k ∉ d := fun k he hd => Set.disjoint_left.mp h hd he
  have hnd : ∀ k ∈ d, k ∉ e := fun k hd => Set.disjoint_left.mp h hd
  obtain ⟨σ₂, hσ₂, hwrite⟩ := hg.reads hgσ₁ fun k hk => (hf.frame hσ₁ k (hne k hk)).symm
  obtain ⟨ρ', hρ', hwrite'⟩ := hf.reads hσ₁ fun k hk => hg.frame hσ₂ k (hnd k hk)
  have heq : ρ' = ρ := by
    ext k
    by_cases hd : k ∈ d
    · rw [hwrite' k hd, hg.frame hgσ₁ k (hnd k hd)]
    · rw [hf.frame hρ' k hd]
      by_cases he : k ∈ e
      · exact hwrite k he
      · rw [hg.frame hσ₂ k he, hg.frame hgσ₁ k he, hf.frame hσ₁ k hd]
  rw [hσ₂, ← heq]
  exact hρ'

/-- **Operations with disjoint footprints commute.** -/
theorem bind_comm (hf : ConfinedTo d f) (hg : ConfinedTo e g) (h : Disjoint d e) (σ : κ → υ) :
    (f σ).bind g = (g σ).bind f :=
  Option.ext fun _ => ⟨hf.bind_swap hg h, hg.bind_swap hf h.symm⟩

end ConfinedTo

end QuantumFoundation
