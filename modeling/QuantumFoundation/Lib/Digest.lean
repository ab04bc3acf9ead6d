import Mathlib.Logic.Function.Basic
import QuantumFoundation.Lib.Decoding

/-!
# Ideal digests

What texts built from digests fix of their parts.  A digest is ideal if different texts have
different digests and no digest is the beginning of another, as digests of one length never are.
From a text that begins with a digest one can then read the digest and the rest, and so any
number of digests in a row.
-/

namespace QuantumFoundation

/-- Different texts have different digests, and no digest is a proper beginning of another. -/
structure IdealDigest (h : String → String) : Prop where
  injective : Function.Injective h
  no_beginning : ∀ s t, (h s).toList <+: (h t).toList → h s = h t

namespace IdealDigest

variable {h : String → String} (hh : IdealDigest h)
include hh

lemma prefixFree : PrefixFree (Set.range h) := by
  rintro _ ⟨s, rfl⟩ _ ⟨t, rfl⟩
  exact hh.no_beginning s t

/-- A text that begins with a digest is read in one way. -/
lemma append_inj {s t a b : String} (heq : h s ++ a = h t ++ b) : s = t ∧ a = b := by
  obtain ⟨hst, hab⟩ := (hh.prefixFree.separable ⟨s, rfl⟩ ⟨t, rfl⟩).append_inj heq
  exact ⟨hh.injective hst, hab⟩

/-- A text that begins with a number of digests is read in one way. -/
lemma join_append_inj {l m : List String} {a b : String}
    (hl : ∀ d ∈ l, d ∈ Set.range h) (hm : ∀ d ∈ m, d ∈ Set.range h) (hlen : l.length = m.length)
    (heq : String.join l ++ a = String.join m ++ b) : l = m ∧ a = b :=
  hh.prefixFree.join_append_inj hl hm hlen heq

end IdealDigest

/-! ### A digest that is ideal -/

/-- The text with every character announced by a one, and a zero at the end. -/
def announce : List Char → List Char
  | [] => ['0']
  | c :: cs => '1' :: c :: announce cs

lemma announce_beginning {l m : List Char} (h : announce l <+: announce m) : l = m := by
  induction l generalizing m with
  | nil =>
    cases m with
    | nil => rfl
    | cons d m => exact absurd (List.cons_prefix_cons.mp h).1 (by decide)
  | cons c l ih =>
    cases m with
    | nil => exact absurd (List.cons_prefix_cons.mp h).1 (by decide)
    | cons d m =>
      obtain ⟨-, hrest⟩ := List.cons_prefix_cons.mp h
      obtain ⟨rfl, htail⟩ := List.cons_prefix_cons.mp hrest
      rw [ih htail]

/-- A digest that keeps the whole text. -/
def announcedText (s : String) : String := String.ofList (announce s.toList)

lemma idealDigest_announcedText : IdealDigest announcedText where
  injective s t hst := by
    have hlist : announce s.toList = announce t.toList := by
      simpa [announcedText] using congrArg String.toList hst
    exact String.toList_inj.mp (announce_beginning (hlist ▸ List.prefix_refl _))
  no_beginning s t hst := by
    simp only [announcedText, String.toList_ofList] at hst
    rw [String.toList_inj.mp (announce_beginning hst)]

end QuantumFoundation
