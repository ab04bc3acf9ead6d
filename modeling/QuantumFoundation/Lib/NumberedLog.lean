import Mathlib.Algebra.Order.Ring.Int
import Mathlib.Data.Int.Range
import Mathlib.Data.List.Basic
import Mathlib.Tactic.Ring

/-!
# Consecutively numbered logs

A log whose entries carry the consecutive numbers `s, s+1, s+2, …` in order, and its
segments: the entries whose numbers lie in a half-open interval.
-/

namespace QuantumFoundation

/-- Adjacent ranges concatenate. -/
lemma range_append_range {a b c : ℤ} (hab : a ≤ b) (hbc : b ≤ c) :
    Int.range a b ++ Int.range b c = Int.range a c := by
  obtain ⟨m, rfl⟩ : ∃ m : ℕ, b = a + m := ⟨(b - a).toNat, by omega⟩
  obtain ⟨k, rfl⟩ : ∃ k : ℕ, c = a + m + k := ⟨(c - (a + m)).toNat, by omega⟩
  have hm : (a + m - a).toNat = m := by omega
  have hk : (a + m + k - (a + m)).toNat = k := by omega
  have hmk : (a + m + k - a).toNat = m + k := by omega
  rw [Int.range, Int.range, Int.range, hm, hk, hmk, List.range_add, List.map_append, List.map_map]
  refine congrArg _ (List.map_congr_left fun i _ => ?_)
  simp only [Function.comp_apply, Nat.cast_add]
  ring

lemma range_eq_nil_iff {a b : ℤ} : Int.range a b = [] ↔ b ≤ a := by
  rw [Int.range, List.map_eq_nil_iff, List.range_eq_nil]
  omega

variable {α β : Type*} (id : α → ℤ)

/-- The entries of the list are numbered `s, s+1, …` in order. -/
def NumberedFrom : ℤ → List α → Prop
  | _, [] => True
  | s, x :: xs => id x = s ∧ NumberedFrom (s + 1) xs

instance NumberedFrom.instDecidable : ∀ (s : ℤ) (L : List α), Decidable (NumberedFrom id s L)
  | _, [] => .isTrue trivial
  | s, x :: xs =>
      have : Decidable (NumberedFrom id (s + 1) xs) := NumberedFrom.instDecidable (s + 1) xs
      inferInstanceAs (Decidable (id x = s ∧ NumberedFrom id (s + 1) xs))

/-- The entries numbered from `c` up to, but not including, `d`. -/
def segment (L : List α) (c d : ℤ) : List α := L.filter fun x => c ≤ id x ∧ id x < d

variable {id} {s c d : ℤ} {L : List α} {x y : α}

lemma mem_segment : x ∈ segment id L c d ↔ x ∈ L ∧ c ≤ id x ∧ id x < d := by
  simp [segment]

lemma segment_eq_nil (h : d ≤ c) : segment id L c d = [] := by
  rw [segment, List.filter_eq_nil_iff]
  intro x _
  simp only [decide_eq_true_eq]
  omega

namespace NumberedFrom

lemma append {M : List α} :
    NumberedFrom id s (L ++ M) ↔ NumberedFrom id s L ∧ NumberedFrom id (s + L.length) M := by
  induction L generalizing s with
  | nil => simp [NumberedFrom]
  | cons y L ih =>
    rw [List.cons_append, NumberedFrom, NumberedFrom, ih, and_assoc, List.length_cons,
      show s + 1 + (L.length : ℤ) = s + ((L.length + 1 : ℕ) : ℤ) by push_cast; ring]

lemma append_singleton :
    NumberedFrom id s (L ++ [x]) ↔ NumberedFrom id s L ∧ id x = s + L.length := by
  simp [append, NumberedFrom]

/-- The numbers of the entries may be read off first. -/
lemma map {f : β → α} {M : List β} :
    NumberedFrom id s (M.map f) ↔ NumberedFrom (fun y => id (f y)) s M := by
  induction M generalizing s with
  | nil => exact Iff.rfl
  | cons y M ih => exact and_congr_right fun _ => ih

/-- Neighbours have consecutive numbers. -/
lemma isChain (h : NumberedFrom id s L) : L.IsChain fun x y => id y = id x + 1 := by
  induction L generalizing s with
  | nil => exact List.IsChain.nil
  | cons x L ih =>
    cases L with
    | nil => exact List.IsChain.singleton x
    | cons y L =>
      refine List.IsChain.cons_cons ?_ (ih h.2)
      rw [h.1, h.2.1]

lemma bounds (h : NumberedFrom id s L) (hx : x ∈ L) : s ≤ id x ∧ id x < s + L.length := by
  induction L generalizing s with
  | nil => exact absurd hx (by simp)
  | cons y L ih =>
    rw [List.length_cons]
    rcases List.mem_cons.mp hx with rfl | hx
    · have := h.1
      omega
    · have := ih h.2 hx
      omega

lemma exists_mem {k : ℤ} (h : NumberedFrom id s L) (hs : s ≤ k) (hk : k < s + L.length) :
    ∃ x ∈ L, id x = k := by
  induction L generalizing s with
  | nil => simp only [List.length_nil] at hk; omega
  | cons y L ih =>
    rw [List.length_cons] at hk
    by_cases hks : k = s
    · exact ⟨y, List.mem_cons_self, h.1.trans hks.symm⟩
    · obtain ⟨x, hx, hxk⟩ := ih h.2 (by omega) (by omega)
      exact ⟨x, List.mem_cons_of_mem _ hx, hxk⟩

/-- The number of an entry determines the entry. -/
lemma eq_of_id_eq (h : NumberedFrom id s L) (hx : x ∈ L) (hy : y ∈ L) (hxy : id x = id y) :
    x = y := by
  induction L generalizing s with
  | nil => exact absurd hx (by simp)
  | cons z L ih =>
    rcases List.mem_cons.mp hx with hxz | hx <;> rcases List.mem_cons.mp hy with hyz | hy
    · rw [hxz, hyz]
    · have := h.2.bounds hy
      have := h.1
      rw [hxz] at hxy
      omega
    · have := h.2.bounds hx
      have := h.1
      rw [hyz] at hxy
      omega
    · exact ih h.2 hx hy

lemma pairwise_lt (h : NumberedFrom id s L) : L.Pairwise fun x y => id x < id y := by
  induction L generalizing s with
  | nil => exact List.Pairwise.nil
  | cons z L ih =>
    refine List.Pairwise.cons (fun y hy => ?_) (ih h.2)
    have := h.2.bounds hy
    have := h.1
    omega

/-- The numbers of a numbered log, as a list. -/
lemma map_eq (h : NumberedFrom id s L) :
    L.map id = (List.range L.length).map fun i : ℕ => s + i := by
  induction L generalizing s with
  | nil => rfl
  | cons z L ih =>
    rw [List.map_cons, ih h.2, h.1, List.length_cons, List.range_succ_eq_map, List.map_cons,
      List.map_map]
    refine congrArg₂ _ (by simp) (List.map_congr_left fun i _ => ?_)
    simp only [Function.comp_apply, Nat.cast_succ]
    omega

lemma map_eq_range (h : NumberedFrom id s L) : L.map id = Int.range s (s + L.length) := by
  rw [h.map_eq, Int.range, add_sub_cancel_left, Int.toNat_natCast]

/-! ### Segments -/

/-- A segment begins with the entry that carries its lower bound. -/
lemma segment_cons (h : NumberedFrom id s L) (hx : x ∈ L) (hxd : id x < d) :
    segment id L (id x) d = x :: segment id L (id x + 1) d := by
  induction L generalizing s with
  | nil => exact absurd hx (by simp)
  | cons z L ih =>
    rcases List.mem_cons.mp hx with rfl | hx
    · have htail : segment id L (id x) d = segment id L (id x + 1) d := by
        refine List.filter_congr fun y hy => ?_
        have := h.2.bounds hy
        have := h.1
        simp only [decide_eq_decide]
        omega
      rw [segment, List.filter_cons_of_pos (by simpa using hxd), segment,
        List.filter_cons_of_neg (by simp only [decide_eq_true_eq]; omega)]
      exact congrArg (x :: ·) htail
    · have hz : id z < id x := by
        have := h.2.bounds hx
        have := h.1
        omega
      rw [segment, List.filter_cons_of_neg (by simp only [decide_eq_true_eq]; omega), segment,
        List.filter_cons_of_neg (by simp only [decide_eq_true_eq]; omega)]
      exact ih h.2 hx

/-- Adjacent segments concatenate. -/
lemma segment_append {e : ℤ} (h : NumberedFrom id s L) (hcd : c ≤ d) (hde : d ≤ e) :
    segment id L c d ++ segment id L d e = segment id L c e := by
  induction L generalizing s with
  | nil => rfl
  | cons z L ih =>
    have hz := h.1
    have ih := ih h.2
    by_cases hzc : id z < c
    · rw [segment, segment, segment,
        List.filter_cons_of_neg (by simp only [decide_eq_true_eq]; omega),
        List.filter_cons_of_neg (by simp only [decide_eq_true_eq]; omega),
        List.filter_cons_of_neg (by simp only [decide_eq_true_eq]; omega)]
      exact ih
    · by_cases hzd : id z < d
      · rw [segment, segment, segment,
          List.filter_cons_of_pos (by simp only [decide_eq_true_eq]; omega),
          List.filter_cons_of_neg (by simp only [decide_eq_true_eq]; omega),
          List.filter_cons_of_pos (by simp only [decide_eq_true_eq]; omega)]
        exact congrArg (z :: ·) ih
      · -- the first entry already lies past `d`, so the lower segment is empty
        have hnil : segment id (z :: L) c d = [] := by
          rw [segment, List.filter_eq_nil_iff]
          intro y hy
          have : id z ≤ id y := by
            rcases List.mem_cons.mp hy with rfl | hy
            · exact le_rfl
            · have := h.2.bounds hy
              omega
          simp only [decide_eq_true_eq]
          omega
        rw [hnil, List.nil_append]
        refine List.filter_congr fun y hy => ?_
        have : id z ≤ id y := by
          rcases List.mem_cons.mp hy with rfl | hy
          · exact le_rfl
          · have := h.2.bounds hy
            omega
        simp only [decide_eq_decide]
        omega

/-- A segment that ends where the log ends is not changed by appending to the log. -/
lemma segment_left {M : List α} (h : NumberedFrom id s (L ++ M)) (hd : d ≤ s + L.length) :
    segment id (L ++ M) c d = segment id L c d := by
  have hM : segment id M c d = [] := by
    rw [segment, List.filter_eq_nil_iff]
    intro y hy
    have := (append.mp h).2.bounds hy
    simp only [decide_eq_true_eq]
    omega
  rw [segment, List.filter_append]
  exact (congrArg _ hM).trans (List.append_nil _)

/-- The segment of the first `m` numbers is the prefix of length `m`. -/
lemma segment_eq_take (h : NumberedFrom id s L) (m : ℕ) : segment id L s (s + m) = L.take m := by
  induction L generalizing s m with
  | nil => simp [segment]
  | cons z L ih =>
    cases m with
    | zero => simpa using segment_eq_nil (le_refl s)
    | succ m =>
      have hz := h.1
      have hcons := h.segment_cons (x := z) (d := s + (m + 1 : ℕ)) List.mem_cons_self
        (by push_cast; omega)
      rw [hz] at hcons
      rw [hcons, List.take_succ_cons, ← ih h.2 m]
      have htail : segment id (z :: L) (s + 1) (s + (m + 1 : ℕ))
          = segment id L (s + 1) (s + 1 + m) := by
        rw [segment, List.filter_cons_of_neg (by simp only [decide_eq_true_eq]; omega), segment]
        refine List.filter_congr fun y _ => ?_
        simp only [decide_eq_decide]
        push_cast
        omega
      rw [htail]

/-- A list whose `i`-th element is the image of the entry numbered `c + i` is the image of
a segment. -/
lemma eq_map_segment (h : NumberedFrom id s L) (f : α → β) (l : List β)
    (hl : ∀ (i : ℕ) (hi : i < l.length), ∃ x ∈ L, id x = c + i ∧ l[i] = f x) :
    l = (segment id L c (c + l.length)).map f := by
  induction l generalizing c with
  | nil => simp [segment_eq_nil]
  | cons b l ih =>
    obtain ⟨x, hx, hxc, hb⟩ := hl 0 (by simp)
    have hxc : id x = c := by simpa using hxc
    have htail := ih (c := c + 1) fun i hi => by
      obtain ⟨y, hy, hyc, hb⟩ := hl (i + 1) (by simpa using hi)
      exact ⟨y, hy, by push_cast at hyc; omega, by simpa using hb⟩
    have hcons := h.segment_cons (d := c + (b :: l).length) hx
      (by rw [List.length_cons]; push_cast; omega)
    rw [hxc] at hcons
    rw [hcons, List.map_cons, ← hb]
    refine congrArg (b :: ·) ?_
    rw [List.length_cons, show c + ((l.length + 1 : ℕ) : ℤ) = c + 1 + l.length by push_cast; ring]
    exact htail

end NumberedFrom

end QuantumFoundation
