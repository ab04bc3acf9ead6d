import Mathlib.Data.Nat.Log
import Mathlib.Logic.Function.Iterate

/-!
# Levels of a tree over a list

A tree is built over a list by combining neighbours, level by level; a last node without a neighbour
is combined with itself.  Two lists of the same length with the same node on a level above are the
same, if no two different pairs that were combined on the way have the same result.
-/

namespace QuantumFoundation

namespace HashTree

variable {α : Type*}

/-! ### One level -/

/-- The neighbours on a level. -/
def neighbours : List α → List (α × α)
  | [] => []
  | [a] => [(a, a)]
  | a :: b :: l => (a, b) :: neighbours l

lemma length_neighbours (l : List α) : (neighbours l).length = (l.length + 1) / 2 := by
  fun_induction neighbours l with
  | case1 => simp
  | case2 a => simp
  | case3 a b l ih =>
    rw [List.length_cons, ih, List.length_cons, List.length_cons]
    omega

/-- The neighbours and the length fix the list. -/
lemma eq_of_neighbours_eq {l m : List α} (hlen : l.length = m.length)
    (h : neighbours l = neighbours m) : l = m := by
  fun_induction neighbours l generalizing m with
  | case1 => exact (List.length_eq_zero_iff.mp hlen.symm).symm
  | case2 a =>
    obtain ⟨b, rfl⟩ := List.length_eq_one_iff.mp hlen.symm
    rw [neighbours, List.cons.injEq, Prod.mk.injEq] at h
    rw [h.1.1]
  | case3 a b l ih =>
    match m with
    | [] => exact absurd hlen nofun
    | [d] => exact absurd (Nat.succ.inj hlen) nofun
    | d :: e :: m =>
      rw [neighbours, List.cons.injEq, Prod.mk.injEq] at h
      obtain ⟨⟨rfl, rfl⟩, hrest⟩ := h
      rw [ih (Nat.succ.inj (Nat.succ.inj hlen)) hrest]

/-- What holds of the nodes holds of the neighbours. -/
lemma forall_neighbours {P : α → Prop} {l : List α} (h : ∀ a ∈ l, P a) :
    ∀ p ∈ neighbours l, P p.1 ∧ P p.2 := by
  fun_induction neighbours l with
  | case1 => exact nofun
  | case2 a =>
    have ha := h a List.mem_cons_self
    exact List.forall_mem_singleton.mpr ⟨ha, ha⟩
  | case3 a b l ih =>
    rw [List.forall_mem_cons, List.forall_mem_cons] at h
    exact List.forall_mem_cons.mpr ⟨⟨h.1, h.2.1⟩, ih h.2.2⟩

/-! ### The levels above -/

variable (c : α → α → α)

/-- The level above. -/
def above (l : List α) : List α := (neighbours l).map fun p => c p.1 p.2

/-- The pairs that are combined on the first levels. -/
def combined : ℕ → List α → List (α × α)
  | 0, _ => []
  | n + 1, l => neighbours l ++ combined n (above c l)

lemma length_above (l : List α) : (above c l).length = (l.length + 1) / 2 := by
  rw [above, List.length_map, length_neighbours]

variable {c}

/-- What holds of the nodes and of all that is combined holds on all levels. -/
lemma forall_combined {P : α → Prop} (hc : ∀ a b, P (c a b)) (n : ℕ) {l : List α}
    (h : ∀ a ∈ l, P a) : ∀ p ∈ combined c n l, P p.1 ∧ P p.2 := by
  induction n generalizing l with
  | zero => exact nofun
  | succ n ih =>
    refine List.forall_mem_append.mpr ⟨forall_neighbours h, ih fun a ha => ?_⟩
    obtain ⟨p, -, rfl⟩ := List.mem_map.mp ha
    exact hc p.1 p.2

lemma eq_of_map_eq {β γ : Type*} {f : β → γ} {l m : List β}
    (hinj : ∀ p ∈ l, ∀ q ∈ m, f p = f q → p = q) (h : l.map f = m.map f) : l = m := by
  induction l generalizing m with
  | nil => exact (List.map_eq_nil_iff.mp h.symm).symm
  | cons p l ih =>
    cases m with
    | nil => exact absurd h nofun
    | cons q m =>
      obtain ⟨hpq, hrest⟩ := List.cons.inj h
      rw [hinj p List.mem_cons_self q List.mem_cons_self hpq, ih (fun a ha b hb =>
        hinj a (List.mem_cons_of_mem _ ha) b (List.mem_cons_of_mem _ hb)) hrest]

/-- **Binding.**  Lists of the same length that lead to the same level are the same, if there is no
collision among what was combined. -/
theorem eq_of_iterate_above_eq {n : ℕ} {l m : List α} (hlen : l.length = m.length)
    (hinj : ∀ p ∈ combined c n l, ∀ q ∈ combined c n m, c p.1 p.2 = c q.1 q.2 → p = q)
    (h : (above c)^[n] l = (above c)^[n] m) : l = m := by
  induction n generalizing l m with
  | zero => exact h
  | succ n ih =>
    have habove : above c l = above c m := by
      refine ih ?_ (fun p hp q hq => ?_) h
      · rw [length_above, length_above, hlen]
      · exact hinj p (List.mem_append_right _ hp) q (List.mem_append_right _ hq)
    refine eq_of_neighbours_eq hlen (eq_of_map_eq (fun p hp q hq => ?_) habove)
    exact hinj p (List.mem_append_left _ hp) q (List.mem_append_left _ hq)

/-- The number of levels up to the root. -/
lemma length_iterate_above {l : List α} (hl : l ≠ []) :
    ((above c)^[Nat.clog 2 l.length] l).length = 1 := by
  induction hn : l.length using Nat.strong_induction_on generalizing l with
  | _ n ih =>
    have hpos := List.length_pos_iff.mpr hl
    by_cases hone : n ≤ 1
    · rw [Nat.clog_of_right_le_one hone]
      show l.length = 1
      omega
    · have hlen : (above c l).length = (n + 2 - 1) / 2 := by
        rw [length_above, hn]
        rfl
      rw [Nat.clog_of_two_le (by decide) (by omega), Function.iterate_succ_apply]
      refine ih _ (by omega) (fun hnil => ?_) hlen
      rw [hnil, List.length_nil] at hlen
      omega

end HashTree

end QuantumFoundation
