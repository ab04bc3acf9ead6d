import Mathlib.Algebra.BigOperators.Ring.List
import Mathlib.Algebra.Order.BigOperators.Group.List
import Mathlib.Algebra.Order.Field.Basic
import Mathlib.Tactic.FieldSimp
import Mathlib.Tactic.Linarith
import Mathlib.Tactic.Ring

/-!
# Entropies

Entropies over an ordered field, with a logarithm of which nothing is known but that it takes
products to sums and lies below its tangent at one.  Summands that are too small are left out, as
programs do.  One outcome is boosted by scaling the others down: the entropy then changes by about
the surprisal of that outcome, less the entropy, times the part that the others lose.
-/

namespace QuantumFoundation

variable {R : Type*} [Field R] [LinearOrder R]

/-- A logarithm, with its slope at one. -/
structure IsLogarithm (log : R → R) (κ : R) : Prop where
  slope_pos : 0 < κ
  map_mul : ∀ x y : R, 0 < x → 0 < y → log (x * y) = log x + log y
  le_tangent : ∀ x : R, 0 < x → log x ≤ κ * (x - 1)

/-- The part of a number that counts: all of it, or nothing if it is too small. -/
def countedPart (ε p : R) : R := if ε < p then p else 0

/-- What a number adds to an entropy, if it counts. -/
def entropyPart (log : R → R) (ε p : R) : R := if ε < p then -(p * log p) else 0

/-- The entropy of numbers. -/
def entropySum (log : R → R) (ε : R) (l : List R) : R := (l.map (entropyPart log ε)).sum

/-- The sum of the numbers that do not count. -/
def negligibleSum (ε : R) (l : List R) : R := l.sum - (l.map (countedPart ε)).sum

variable {log : R → R} {κ ε p q c x y : R} {l : List R}

lemma entropyPart_of_lt (hp : ε < p) : entropyPart log ε p = -(p * log p) := if_pos hp

lemma entropySum_cons :
    entropySum log ε (p :: l) = entropyPart log ε p + entropySum log ε l := List.sum_cons

variable [IsStrictOrderedRing R]

namespace IsLogarithm

lemma map_one (h : IsLogarithm log κ) : log 1 = 0 := by
  have hmul := h.map_mul 1 1 one_pos one_pos
  rw [mul_one] at hmul
  linarith

lemma map_div (h : IsLogarithm log κ) (hx : 0 < x) (hy : 0 < y) :
    log (x / y) = log x - log y := by
  have hmul := h.map_mul (x / y) y (div_pos hx hy) hy
  rw [div_mul_cancel₀ x hy.ne'] at hmul
  linarith

lemma nonpos (h : IsLogarithm log κ) (hx : 0 < x) (hx' : x ≤ 1) : log x ≤ 0 :=
  (h.le_tangent x hx).trans (mul_nonpos_of_nonneg_of_nonpos h.slope_pos.le (sub_nonpos.mpr hx'))

/-- Two logarithms differ by at most the relative difference. -/
lemma sub_le (h : IsLogarithm log κ) (hx : 0 < x) (hy : 0 < y) :
    log x - log y ≤ κ * (x - y) / y := by
  have htangent := h.le_tangent (x / y) (div_pos hx hy)
  rw [h.map_div hx hy] at htangent
  refine htangent.trans_eq ?_
  field_simp

/-- What the logarithm of a boosted number gains, at most. -/
lemma le_sub_log_boosted (h : IsLogarithm log κ) (hp : 0 < p) (hp' : p ≤ 1) (hc : c ≤ 1) :
    -(κ * (1 - c) * (1 / p)) ≤ (1 - p) * (log p - log (1 - c * (1 - p))) := by
  have hrest : 0 ≤ 1 - p := sub_nonneg.mpr hp'
  have hgrown : 0 < 1 - c * (1 - p) := by
    have hle := mul_le_mul_of_nonneg_right hc hrest
    linarith
  have hsub := h.sub_le hgrown hp
  have hdiff : κ * (1 - c * (1 - p) - p) / p = κ * (1 - c) * (1 / p) * (1 - p) := by ring
  rw [hdiff] at hsub
  have hscaled := mul_le_mul_of_nonneg_left hsub hrest
  have hfactor : 0 ≤ κ * (1 - c) * (1 / p) :=
    mul_nonneg (mul_nonneg h.slope_pos.le (sub_nonneg.mpr hc)) (div_pos one_pos hp).le
  have hsquare : (1 - p) * (1 - p) ≤ 1 :=
    mul_le_one₀ (by linarith) hrest (by linarith)
  have hbound := mul_le_mul_of_nonneg_left hsquare hfactor
  linarith

/-- What the logarithm of a factor takes away, at most. -/
lemma le_log_mul (h : IsLogarithm log κ) (hc : 1 / 2 ≤ c) (hc' : c ≤ 1) (hx : x ≤ 1) :
    -(κ * (1 - c) * 2) ≤ log c * x := by
  have hpos : 0 < c := lt_of_lt_of_le (by norm_num) hc
  have hsub := h.sub_le one_pos hpos
  rw [h.map_one, zero_sub, le_div_iff₀ hpos] at hsub
  have hlog := h.nonpos hpos hc'
  have hhalved : -log c * (1 / 2) ≤ -log c * c :=
    mul_le_mul_of_nonneg_left hc (neg_nonneg.mpr hlog)
  have hpart := mul_le_mul_of_nonpos_left hx hlog
  linarith

/-- **Gibbs' inequality**, for one summand: no code is better than the one for the number itself. -/
lemma gibbs (h : IsLogarithm log κ) (hx : 0 < x) (hy : 0 < y) :
    -(y * log y) ≤ -(y * log x) + κ * (x - y) := by
  have hsub := mul_le_mul_of_nonneg_left (h.sub_le hx hy) hy.le
  rw [mul_div_cancel₀ _ hy.ne'] at hsub
  linarith

end IsLogarithm

lemma sum_countedPart_le (hl : ∀ q ∈ l, 0 ≤ q) : (l.map (countedPart ε)).sum ≤ l.sum := by
  have hle : (l.map (countedPart ε)).sum ≤ (l.map id).sum := by
    refine List.sum_le_sum fun q hq => ?_
    rw [countedPart]
    split
    · exact le_refl q
    · exact hl q hq
  rwa [List.map_id] at hle

lemma entropyPart_nonneg (h : IsLogarithm log κ) (hε : 0 ≤ ε) (hq : q ≤ 1) :
    0 ≤ entropyPart log ε q := by
  rw [entropyPart]
  split
  · next hcounts =>
    have hpos := hε.trans_lt hcounts
    exact neg_nonneg.mpr (mul_nonpos_of_nonneg_of_nonpos hpos.le (h.nonpos hpos hq))
  · exact le_refl 0

/-! ### Scaling -/

/-- What is too small to count is so after it is scaled down. -/
lemma not_counts_scaled (hc' : c ≤ 1) (hq : 0 ≤ q) (hcounts : ¬ε < q) : ¬ε < c * q := by
  have hle := mul_le_mul_of_nonneg_right hc' hq
  intro hlt
  exact hcounts (by linarith)

/-- What a number adds after it is scaled down, at most. -/
lemma entropyPart_scaled_le (h : IsLogarithm log κ) (hε : 0 ≤ ε) (hc : 0 ≤ c) (hc' : c ≤ 1)
    (hq : 0 ≤ q) (hq' : q ≤ 1) :
    entropyPart log ε (c * q) ≤ c * entropyPart log ε q + κ * (1 - c) * countedPart ε q := by
  by_cases hcounts : ε < q
  · have hpos : 0 < q := hε.trans_lt hcounts
    by_cases hscaled : ε < c * q
    · rw [entropyPart_of_lt hscaled, entropyPart_of_lt hcounts, countedPart, if_pos hcounts]
      have hgibbs := h.gibbs hpos (hε.trans_lt hscaled)
      linarith
    · rw [entropyPart, if_neg hscaled, countedPart, if_pos hcounts]
      have hentropy := mul_nonneg hc (entropyPart_nonneg (q := q) h hε hq')
      have hrest := mul_nonneg (mul_nonneg h.slope_pos.le (sub_nonneg.mpr hc')) hq
      linarith
  · have hscaled := not_counts_scaled hc' hq hcounts
    rw [entropyPart, if_neg hscaled, entropyPart, if_neg hcounts, countedPart, if_neg hcounts]
    simp

/-- What a number adds after it is scaled down, at least, if it still counts. -/
lemma le_entropyPart_scaled (h : IsLogarithm log κ) (hε : 0 ≤ ε) (hc : 0 < c) (hc' : c ≤ 1)
    (hq : 0 ≤ q) (hstays : ε < q → ε < c * q) :
    c * entropyPart log ε q + (1 - c) * (log c + κ) * countedPart ε q
      ≤ entropyPart log ε (c * q) := by
  by_cases hcounts : ε < q
  · have hpos : 0 < q := hε.trans_lt hcounts
    rw [entropyPart_of_lt hcounts, countedPart, if_pos hcounts,
      entropyPart_of_lt (hstays hcounts)]
    have hgibbs := h.gibbs (mul_pos hc hpos) hpos
    rw [h.map_mul c q hc hpos] at hgibbs ⊢
    linarith
  · have hscaled := not_counts_scaled hc' hq hcounts
    rw [entropyPart, if_neg hcounts, countedPart, if_neg hcounts, entropyPart, if_neg hscaled]
    simp

/-! ### Boosting one outcome -/

/-- A summand is at most the sum. -/
lemma le_one_of_sum (hp : 0 ≤ p) (hl : ∀ q ∈ l, 0 ≤ q) (htotal : p + l.sum = 1) :
    ∀ q ∈ l, q ≤ 1 := fun q hq => by
  have hle := List.single_le_sum hl q hq
  linarith

/-- The outcome that is boosted becomes more probable. -/
lemma le_boosted (hl : ∀ q ∈ l, 0 ≤ q) (htotal : p + l.sum = 1) (hc' : c ≤ 1) :
    p ≤ 1 - c * (1 - p) := by
  have hsum : 0 ≤ l.sum := List.sum_nonneg hl
  have hle := mul_le_mul_of_nonneg_right hc' (show 0 ≤ 1 - p by linarith)
  linarith

omit [IsStrictOrderedRing R] in
lemma negligibleSum_eq (htotal : p + l.sum = 1) :
    negligibleSum ε l = 1 - p - (l.map (countedPart ε)).sum := by
  rw [negligibleSum, ← htotal]
  ring

lemma entropySum_scaled_le (h : IsLogarithm log κ) (hε : 0 ≤ ε) (hc : 0 ≤ c) (hc' : c ≤ 1)
    (hl : ∀ q ∈ l, 0 ≤ q ∧ q ≤ 1) :
    entropySum log ε (l.map (c * ·))
      ≤ c * entropySum log ε l + κ * (1 - c) * (l.map (countedPart ε)).sum := by
  rw [entropySum, entropySum, List.map_map, ← List.sum_map_mul_left, ← List.sum_map_mul_left,
    ← List.sum_map_add]
  exact List.sum_le_sum fun q hq => entropyPart_scaled_le h hε hc hc' (hl q hq).1 (hl q hq).2

lemma le_entropySum_scaled (h : IsLogarithm log κ) (hε : 0 ≤ ε) (hc : 0 < c) (hc' : c ≤ 1)
    (hl : ∀ q ∈ l, 0 ≤ q) (hstays : ∀ q ∈ l, ε < q → ε < c * q) :
    c * entropySum log ε l + (1 - c) * (log c + κ) * (l.map (countedPart ε)).sum
      ≤ entropySum log ε (l.map (c * ·)) := by
  rw [entropySum, entropySum, List.map_map, ← List.sum_map_mul_left, ← List.sum_map_mul_left,
    ← List.sum_map_add]
  exact List.sum_le_sum fun q hq => le_entropyPart_scaled h hε hc hc' (hl q hq) (hstays q hq)

/-- Numbers that count still do when they are scaled by almost one. -/
lemma exists_forall_stays (hε : 0 ≤ ε) (l : List R) :
    ∃ δ, 0 < δ ∧ ∀ c, 1 - δ < c → ∀ q ∈ l, ε < q → ε < c * q := by
  induction l with
  | nil => exact ⟨1, one_pos, fun _ _ _ hq => absurd hq List.not_mem_nil⟩
  | cons x l ih =>
    obtain ⟨δ, hδ, hl⟩ := ih
    by_cases hx : ε < x
    · have hpos : 0 < x := hε.trans_lt hx
      refine ⟨min δ ((x - ε) / x), lt_min hδ (div_pos (sub_pos.mpr hx) hpos), fun c hc q hq => ?_⟩
      obtain ⟨hrest, hhead⟩ := lt_min_iff.mp (show 1 - c < _ by linarith)
      rcases List.mem_cons.mp hq with rfl | hq
      · rw [lt_div_iff₀ hpos] at hhead
        intro _
        linarith
      · exact hl c (by linarith) q hq
    · refine ⟨δ, hδ, fun c hc q hq hcounts => ?_⟩
      rcases List.mem_cons.mp hq with rfl | hq
      · exact absurd hcounts hx
      · exact hl c hc q hq hcounts

section Boost

variable (h : IsLogarithm log κ) (hε : 0 ≤ ε) (hp : ε < p) (hl : ∀ q ∈ l, 0 ≤ q)
  (htotal : p + l.sum = 1)
include h hε hp hl htotal

/-- **The entropy after boosting, at most**: it changes by the surprisal of the outcome less the
entropy, times what the others lose. -/
theorem entropySum_boosted_le (hc : 0 ≤ c) (hc' : c ≤ 1) :
    entropySum log ε ((1 - c * (1 - p)) :: l.map (c * ·))
      ≤ entropySum log ε (p :: l)
        + (1 - c) * (-log p - entropySum log ε (p :: l) - κ * negligibleSum ε l) := by
  have hpos : 0 < p := hε.trans_lt hp
  have hgrown := le_boosted hl htotal hc'
  have hothers := entropySum_scaled_le h hε hc hc' fun q hq =>
    ⟨hl q hq, le_one_of_sum hpos.le hl htotal q hq⟩
  have hgibbs := h.gibbs hpos (hpos.trans_le hgrown)
  rw [entropySum_cons, entropySum_cons, negligibleSum_eq htotal, entropyPart_of_lt hp,
    entropyPart_of_lt (hp.trans_le hgrown)]
  linarith

/-- **The entropy after boosting, at least**, if all numbers that count still do. -/
theorem le_entropySum_boosted (hc : 0 < c) (hc' : c ≤ 1)
    (hstays : ∀ q ∈ l, ε < q → ε < c * q) :
    entropySum log ε (p :: l)
        + (1 - c) * ((1 - p) * (log p - log (1 - c * (1 - p)))
          + log c * (l.map (countedPart ε)).sum
          + (-log p - entropySum log ε (p :: l) - κ * negligibleSum ε l))
      ≤ entropySum log ε ((1 - c * (1 - p)) :: l.map (c * ·)) := by
  have hpos : 0 < p := hε.trans_lt hp
  have hgrown := le_boosted hl htotal hc'
  have hothers := le_entropySum_scaled h hε hc hc' hl hstays
  have hgibbs := h.gibbs (hpos.trans_le hgrown) hpos
  rw [entropySum_cons, entropySum_cons, negligibleSum_eq htotal, entropyPart_of_lt hp,
    entropyPart_of_lt (hp.trans_le hgrown)]
  linarith

/-- **Boosting slightly.**  An outcome whose surprisal exceeds the entropy raises the entropy when
it is boosted slightly. -/
theorem exists_lt_entropySum_boosted
    (hgap : entropySum log ε (p :: l) + κ * negligibleSum ε l < -log p) :
    ∃ δ, 0 < δ ∧ δ ≤ 1 ∧ ∀ c, 1 - δ < c → c < 1 → entropySum log ε (p :: l)
      < entropySum log ε ((1 - c * (1 - p)) :: l.map (c * ·)) := by
  have hpos : 0 < p := hε.trans_lt hp
  have hsum : 0 ≤ l.sum := List.sum_nonneg hl
  obtain ⟨δ, hδ, hstays⟩ := exists_forall_stays hε l
  set gap := -log p - entropySum log ε (p :: l) - κ * negligibleSum ε l with hgap_eq
  have hgap_pos : 0 < gap := by
    rw [hgap_eq]
    linarith
  -- what the change of the logarithms can take away from the gap
  have hrate : 0 < κ * (1 / p + 2) := mul_pos h.slope_pos (add_pos (div_pos one_pos hpos) two_pos)
  refine ⟨min (1 / 2) (min δ (gap / (κ * (1 / p + 2)))), lt_min (by norm_num)
    (lt_min hδ (div_pos hgap_pos hrate)), (min_le_left _ _).trans (by norm_num),
    fun c hnear hc => ?_⟩
  obtain ⟨hhalf, hnear⟩ := lt_min_iff.mp (show 1 - c < _ by linarith)
  obtain ⟨hclose, hslow⟩ := lt_min_iff.mp hnear
  rw [lt_div_iff₀ hrate] at hslow
  have hcpos : 0 < c := by linarith
  have hle := le_entropySum_boosted h hε hp hl htotal hcpos hc.le (hstays c (by linarith))
  have hboosted := h.le_sub_log_boosted hpos (show p ≤ 1 by linarith) hc.le
  have hothers := h.le_log_mul (le_of_lt (show 1 / 2 < c by linarith)) hc.le
    ((sum_countedPart_le (ε := ε) hl).trans (show l.sum ≤ 1 by linarith))
  have hgain : 0 < (1 - c) * ((1 - p) * (log p - log (1 - c * (1 - p)))
      + log c * (l.map (countedPart ε)).sum + gap) := by
    refine mul_pos (by linarith) ?_
    linarith
  linarith

end Boost

end QuantumFoundation
