import Mathlib.Data.List.Basic
import Mathlib.Data.List.Forall2

/-!
# Linked logs and hash chains

A log is linked if what every entry begins with is what the entry before it ended with.  It is a
hash chain if the entries are linked by their hashes, and the hash of each is the digest of its
content; `verify` is the loop that checks this.  The last section is about what the hash at the
tip fixes of the whole log: whatever the hash of an entry fixes of the entry, as long as it fixes
the hash of the entry before.
-/

namespace QuantumFoundation

variable {α η ε : Type*}

/-! ### Linked logs -/

section Linked

variable (first last : α → η)

/-- The first entry begins with `g`, and every other with what the entry before it ended with. -/
def Linked : η → List α → Prop
  | _, [] => True
  | g, x :: xs => first x = g ∧ Linked (last x) xs

/-- What the log ends with, and `g` if it is empty. -/
def tip (g : η) (L : List α) : η := (L.getLast?.map last).getD g

variable {first last} {g : η} {L : List α} {x : α}

@[simp] lemma tip_nil : tip last g [] = g := rfl

@[simp] lemma tip_append_singleton : tip last g (L ++ [x]) = last x := by
  simp [tip]

lemma tip_cons : tip last g (x :: L) = tip last (last x) L := by
  rcases List.eq_nil_or_concat L with rfl | ⟨L, y, rfl⟩
  · rfl
  · rw [List.concat_eq_append, ← List.cons_append, tip_append_singleton, tip_append_singleton]

lemma linked_append_singleton :
    Linked first last g (L ++ [x]) ↔ Linked first last g L ∧ first x = tip last g L := by
  induction L generalizing g with
  | nil => simp [Linked]
  | cons y L ih => rw [List.cons_append, Linked, Linked, ih, tip_cons, and_assoc]

/-- A beginning of a linked log is linked. -/
lemma Linked.of_isPrefix {M : List α} (h : Linked first last g L) (hM : M <+: L) :
    Linked first last g M := by
  induction M generalizing g L with
  | nil => trivial
  | cons y M ih =>
    cases L with
    | nil => exact absurd hM (by simp)
    | cons x L =>
      obtain ⟨rfl, htail⟩ := List.cons_prefix_cons.mp hM
      exact ⟨h.1, ih h.2 htail⟩

/-- An entry begins with what its neighbour ended with. -/
lemma Linked.isChain (h : Linked first last g L) : L.IsChain fun x y => first y = last x := by
  induction L generalizing g with
  | nil => exact List.IsChain.nil
  | cons x L ih =>
    cases L with
    | nil => exact List.IsChain.singleton x
    | cons y L => exact List.IsChain.cons_cons h.2.1 (ih h.2)

end Linked

/-! ### Hash chains -/

/-- How the entries of a log carry their hashes, and what the hash of an entry is to be. -/
structure ChainFormat (α η : Type*) where
  prev : α → η
  hash : α → η
  digest : α → η

namespace ChainFormat

variable (C : ChainFormat α η)

/-- The log is a hash chain, starting behind the hash `g`. -/
structure Chained (g : η) (L : List α) : Prop where
  linked : Linked C.prev C.hash g L
  digests : ∀ x ∈ L, C.hash x = C.digest x

variable {C} {g h : η} {L M : List α} {x : α}

lemma chained_nil : C.Chained g [] := ⟨trivial, by simp⟩

lemma chained_cons : C.Chained g (x :: L) ↔
    C.prev x = g ∧ C.hash x = C.digest x ∧ C.Chained (C.hash x) L := by
  constructor
  · rintro ⟨⟨hprev, hL⟩, hdigest⟩
    exact ⟨hprev, hdigest x List.mem_cons_self,
      hL, fun y hy => hdigest y (List.mem_cons_of_mem x hy)⟩
  · rintro ⟨hprev, hhash, hL⟩
    exact ⟨⟨hprev, hL.linked⟩, List.forall_mem_cons.mpr ⟨hhash, hL.digests⟩⟩

/-- **Appending an entry.** -/
theorem Chained.append (hL : C.Chained g L) (hprev : C.prev x = tip C.hash g L)
    (hhash : C.hash x = C.digest x) : C.Chained g (L ++ [x]) := by
  refine ⟨linked_append_singleton.mpr ⟨hL.linked, hprev⟩, ?_⟩
  intro y hy
  rcases List.mem_append.mp hy with hy | hy
  · exact hL.digests y hy
  · rwa [List.mem_singleton.mp hy]

/-! ### The check -/

section Verify

variable [DecidableEq η] (C) (breakMessage : η → α → ε) (mismatchMessage : α → ε)

/-- The loop that checks a log: it stops at the first entry that does not carry the hash before
it, or whose own hash is not the digest of its content. -/
def verify : η → List α → Bool × Option ε
  | _, [] => (true, none)
  | g, x :: xs =>
    if C.prev x ≠ g then (false, some (breakMessage g x))
    else if C.hash x ≠ C.digest x then (false, some (mismatchMessage x))
    else verify (C.hash x) xs

variable {C breakMessage mismatchMessage}

/-- The check says yes exactly of a hash chain, and then without a message. -/
lemma verify_cases : C.Chained g L ∧ C.verify breakMessage mismatchMessage g L = (true, none) ∨
    ¬C.Chained g L ∧ (C.verify breakMessage mismatchMessage g L).1 = false := by
  induction L generalizing g with
  | nil => exact Or.inl ⟨chained_nil, rfl⟩
  | cons x L ih =>
    rw [verify, chained_cons]
    by_cases hprev : C.prev x = g
    · by_cases hhash : C.hash x = C.digest x
      · simpa [hprev, hhash] using ih
      · exact Or.inr (by simp [hprev, hhash])
    · exact Or.inr (by simp [hprev])

lemma verify_eq_iff :
    C.verify breakMessage mismatchMessage g L = (true, none) ↔ C.Chained g L := by
  rcases verify_cases (C := C) (g := g) (L := L) with ⟨h, hv⟩ | ⟨h, hv⟩
  · exact iff_of_true hv h
  · exact iff_of_false (fun hv' => by rw [hv'] at hv; exact absurd hv (by simp)) h

end Verify

/-! ### What the tip fixes -/

/-- An entry of the first of two corresponding logs has a partner in the second. -/
lemma exists_of_forall₂ {β : Type*} {R : α → β → Prop} {M : List β} (h : List.Forall₂ R L M)
    (hx : x ∈ L) : ∃ y ∈ M, R x y := by
  induction h with
  | nil => exact absurd hx List.not_mem_nil
  | @cons a b L M hab _ ih =>
    rcases List.mem_cons.mp hx with rfl | hx
    · exact ⟨b, List.mem_cons_self, hab⟩
    · obtain ⟨y, hy, hxy⟩ := ih hx
      exact ⟨y, List.mem_cons_of_mem b hy, hxy⟩

/-- **Binding.**  Two hash chains with the same tip, whose entries correspond under `R`.  If for
corresponding entries an equal hash yields `S` and an equal previous hash, then all entries
correspond under `S`, and the chains start behind the same hash. -/
theorem Chained.forall₂_of_tip_eq {R S : α → α → Prop}
    (hstep : ∀ x y, R x y → C.hash x = C.digest x → C.hash y = C.digest y → C.hash x = C.hash y →
      S x y ∧ C.prev x = C.prev y)
    (hL : C.Chained g L) (hM : C.Chained h M) (hR : List.Forall₂ R L M)
    (htip : tip C.hash g L = tip C.hash h M) : List.Forall₂ S L M ∧ g = h := by
  induction hR generalizing g h with
  | nil => exact ⟨.nil, htip⟩
  | @cons x y L M hxy _ ih =>
    rw [tip_cons, tip_cons] at htip
    obtain ⟨hx, hxhash, hL⟩ := chained_cons.mp hL
    obtain ⟨hy, hyhash, hM⟩ := chained_cons.mp hM
    -- the tails end alike, so they start behind the same hash, which is that of `x` and of `y`
    obtain ⟨hrest, hhash⟩ := ih hL hM htip
    obtain ⟨hS, hprev⟩ := hstep x y hxy hxhash hyhash hhash
    refine ⟨.cons hS hrest, ?_⟩
    rw [← hx, ← hy, hprev]

end ChainFormat

end QuantumFoundation
