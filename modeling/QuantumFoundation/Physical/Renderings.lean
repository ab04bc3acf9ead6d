import QuantumFoundation.Lib.Digest
import QuantumFoundation.Physical.Atomicity

/-!
# Numbers with eight decimals

The texts that `format(x, ".8f")` makes: digits, a point and eight more digits, or the name of
what is not finite, and perhaps a minus.  The eight decimals say where such a text ends, so none
of them is the beginning of another.  They do not say where it begins: what stands before it may
end with digits too.
-/

namespace QuantumFoundation

/-! ### The shape of a rendering -/

/-- A number without its sign. -/
inductive UnsignedRendering : List Char → Prop
  | finite {whole decimals : List Char} : whole ≠ [] → (∀ c ∈ whole, c.isDigit = true) →
      decimals.length = 8 → (∀ c ∈ decimals, c.isDigit = true) →
      UnsignedRendering (whole ++ '.' :: decimals)
  | inf : UnsignedRendering ['i', 'n', 'f']
  | nan : UnsignedRendering ['n', 'a', 'n']

/-- A number. -/
inductive Rendering : List Char → Prop
  | plus {l : List Char} : UnsignedRendering l → Rendering l
  | minus {l : List Char} : UnsignedRendering l → Rendering ('-' :: l)

/-- The length of the number without a sign with which a text begins. -/
def unsignedLength (l : List Char) : ℕ :=
  if l.takeWhile Char.isDigit = [] then 3 else (l.takeWhile Char.isDigit).length + 9

/-- The length of the number with which a text begins. -/
def renderingLength (l : List Char) : ℕ :=
  if l.head? = some '-' then unsignedLength l.tail + 1 else unsignedLength l

lemma UnsignedRendering.unsignedLength_append {l : List Char} (h : UnsignedRendering l)
    (x : List Char) : unsignedLength (l ++ x) = l.length := by
  cases h with
  | @finite whole decimals hne hwhole hlength hdecimals =>
    have htake : (whole ++ '.' :: decimals ++ x).takeWhile Char.isDigit = whole := by
      rw [List.append_assoc, List.takeWhile_append_of_pos hwhole, List.cons_append,
        List.takeWhile_cons_of_neg (by decide), List.append_nil]
    rw [unsignedLength, htake, if_neg hne]
    simp [hlength]
  | inf => rfl
  | nan => rfl

/-- A number without a sign begins with a digit or with a letter. -/
lemma UnsignedRendering.exists_cons {l : List Char} (h : UnsignedRendering l) :
    ∃ c m, l = c :: m ∧ (c.isDigit = true ∨ c = 'i' ∨ c = 'n') := by
  cases h with
  | @finite whole decimals hne hwhole hlength hdecimals =>
    obtain ⟨c, m, rfl⟩ := List.exists_cons_of_ne_nil hne
    exact ⟨c, _, rfl, Or.inl (hwhole c List.mem_cons_self)⟩
  | inf => exact ⟨'i', _, rfl, Or.inr (Or.inl rfl)⟩
  | nan => exact ⟨'n', _, rfl, Or.inr (Or.inr rfl)⟩

/-- What is not the first character of a number. -/
lemma Rendering.head_ne {l x : List Char} {c : Char} (h : Rendering l)
    (hc : c = '.' ∨ c = 'f' ∨ c = 'a') : (l ++ x).head? ≠ some c := by
  have hfirst : ∀ d : Char, d.isDigit = true ∨ d = 'i' ∨ d = 'n' → d ≠ c := by
    rintro d (hd | rfl | rfl)
    · rintro rfl
      rcases hc with rfl | rfl | rfl <;> exact absurd hd (by decide)
    · rcases hc with rfl | rfl | rfl <;> decide
    · rcases hc with rfl | rfl | rfl <;> decide
  cases h with
  | plus hl =>
    obtain ⟨d, m, rfl, hd⟩ := hl.exists_cons
    simpa using hfirst d hd
  | minus hl =>
    rcases hc with rfl | rfl | rfl <;> simp

lemma Rendering.renderingLength_append {l : List Char} (h : Rendering l) (x : List Char) :
    renderingLength (l ++ x) = l.length := by
  cases h with
  | plus hl =>
    obtain ⟨c, m, rfl, hc⟩ := hl.exists_cons
    have hne : c ≠ '-' := by
      rintro rfl
      exact absurd hc (by decide)
    rw [renderingLength, if_neg (by simpa using hne)]
    exact hl.unsignedLength_append x
  | @minus l hl =>
    have hlength := hl.unsignedLength_append x
    rw [List.cons_append, renderingLength, if_pos List.head?_cons, List.tail_cons, hlength,
      List.length_cons]

/-- **Reading a number.**  A text that begins with a number is read in one way. -/
theorem Rendering.append_inj {l m x y : List Char} (hl : Rendering l) (hm : Rendering m)
    (h : l ++ x = m ++ y) : l = m ∧ x = y := by
  have hlength := congrArg renderingLength h
  rw [hl.renderingLength_append, hm.renderingLength_append] at hlength
  exact List.append_inj h hlength

/-- The texts of numbers. -/
def renderings : Set String := { s | Rendering s.toList }

lemma prefixFree_renderings : PrefixFree renderings := by
  rintro s hs t ht ⟨r, hr⟩
  have heq : s.toList ++ r = t.toList ++ [] := by rw [hr, List.append_nil]
  exact String.toList_inj.mp (Rendering.append_inj hs ht heq).1

/-! ### The end of a number -/

/-- The characters of which every number has exactly one. -/
def isMark (c : Char) : Bool := c = '.' || c = 'f' || c = 'a'

lemma isMark_of_isDigit {c : Char} (h : c.isDigit = true) : isMark c = false := by
  have hne : ∀ d : Char, d.isDigit = false → c ≠ d := by
    rintro d hd rfl
    exact absurd (h.symm.trans hd) (by decide)
  simp [isMark, hne '.' (by decide), hne 'f' (by decide), hne 'a' (by decide)]

lemma countP_isMark_digits {l : List Char} (h : ∀ c ∈ l, c.isDigit = true) :
    l.countP isMark = 0 := by
  refine List.countP_eq_zero.mpr fun c hc => ?_
  rw [isMark_of_isDigit (h c hc)]
  exact Bool.false_ne_true

lemma Rendering.countP_isMark {l : List Char} (h : Rendering l) : l.countP isMark = 1 := by
  have hunsigned : ∀ {l : List Char}, UnsignedRendering l → l.countP isMark = 1 := by
    intro l hl
    cases hl with
    | finite hne hwhole hlength hdecimals =>
      rw [List.countP_append, List.countP_cons, countP_isMark_digits hwhole,
        countP_isMark_digits hdecimals]
      rfl
    | inf => rfl
    | nan => rfl
  cases h with
  | plus hl => exact hunsigned hl
  | minus hl =>
    rw [List.countP_cons, hunsigned hl]
    rfl

/-- No number begins with the letters that are left of an infinity without its first one. -/
lemma Rendering.append_ne_nf {l x y : List Char} (h : Rendering l) :
    l ++ x ≠ 'n' :: 'f' :: y := by
  intro heq
  cases h with
  | plus hl =>
    cases hl with
    | @finite whole decimals hne hwhole hlength hdecimals =>
      obtain ⟨c, m, rfl⟩ := List.exists_cons_of_ne_nil hne
      obtain ⟨rfl, -⟩ := List.cons.inj heq
      exact absurd (hwhole _ List.mem_cons_self) (by decide)
    | inf => exact absurd (List.cons.inj heq).1 (by decide)
    | nan => exact absurd (List.cons.inj (List.cons.inj heq).2).1 (by decide)
  | minus hl => exact absurd (List.cons.inj heq).1 (by decide)

/-- **Taking characters off a number.**  If what is left is read as a number, and the mark is
still there, then it is a number. -/
theorem UnsignedRendering.of_append {u w m x y : List Char} (h : UnsignedRendering (u ++ w))
    (hu : u.countP isMark = 0) (hm : Rendering m) (heq : m ++ x = w ++ y) :
    UnsignedRendering w := by
  have hhead : ∀ {c v}, w = c :: v → ¬(c = '.' ∨ c = 'f' ∨ c = 'a') := by
    rintro c v rfl hc
    exact hm.head_ne (x := x) hc (by rw [heq]; rfl)
  generalize hl : u ++ w = l at h
  cases h with
  | @finite whole decimals hne hwhole hlength hdecimals =>
    rcases List.append_eq_append_iff.mp hl with ⟨v, hv, hw⟩ | ⟨v, hv, hw⟩
    · cases v with
      | nil => exact absurd (Or.inl rfl) (hhead hw)
      | cons c v =>
        rw [hw]
        refine .finite (List.cons_ne_nil c v) (fun d hd => hwhole d ?_) hlength hdecimals
        rw [hv]
        exact List.mem_append_right u hd
    · cases v with
      | nil => exact absurd (Or.inl rfl) (hhead hw.symm)
      | cons c v =>
        -- the point would be among the characters that are taken off
        obtain ⟨rfl, -⟩ := List.cons.inj hw
        rw [hv, List.countP_append, List.countP_cons] at hu
        exact absurd hu (by simp [isMark])
  | inf =>
    rcases List.append_eq_cons_iff.mp hl with ⟨-, rfl⟩ | ⟨v, rfl, hv⟩
    · exact .inf
    · rcases List.append_eq_cons_iff.mp hv.symm with ⟨-, rfl⟩ | ⟨v', rfl, hv'⟩
      · exact absurd heq hm.append_ne_nf
      · rcases List.append_eq_cons_iff.mp hv'.symm with ⟨-, rfl⟩ | ⟨v'', rfl, -⟩
        · exact absurd (Or.inr (Or.inl rfl)) (hhead rfl)
        · exact absurd hu (by simp [isMark])
  | nan =>
    rcases List.append_eq_cons_iff.mp hl with ⟨-, rfl⟩ | ⟨v, rfl, hv⟩
    · exact .nan
    · rcases List.append_eq_cons_iff.mp hv.symm with ⟨-, rfl⟩ | ⟨v', rfl, -⟩
      · exact absurd (Or.inr (Or.inr rfl)) (hhead rfl)
      · exact absurd hu (by simp [isMark])

/-- The same of a number that may have a sign. -/
lemma Rendering.of_append {u w m x y : List Char} (h : Rendering (u ++ w))
    (hu : u.countP isMark = 0) (hm : Rendering m) (heq : m ++ x = w ++ y) : Rendering w := by
  generalize hl : u ++ w = l at h
  cases h with
  | plus hunsigned =>
    rw [← hl] at hunsigned
    exact .plus (hunsigned.of_append hu hm heq)
  | @minus l hunsigned =>
    rcases List.append_eq_cons_iff.mp hl with ⟨-, rfl⟩ | ⟨v, rfl, hv⟩
    · exact .minus hunsigned
    · rw [hv] at hunsigned
      rw [List.countP_cons] at hu
      exact .plus (hunsigned.of_append (by omega) hm heq)

/-! ### A name and numbers in a row -/

lemma countP_isMark_join {l : List String} (h : ∀ s ∈ l, s ∈ renderings) :
    (String.join l).toList.countP isMark = l.length := by
  induction l with
  | nil => rfl
  | cons s l ih =>
    rw [String.join_cons, String.toList_append, List.countP_append,
      Rendering.countP_isMark (h s List.mem_cons_self),
      ih fun t ht => h t (List.mem_cons_of_mem s ht), List.length_cons, Nat.add_comm]

section Names

variable {z z' r r' : String} {rs rs' : List String}

/-- If the second name is the first one and more, then what it has more is the beginning of the
first number. -/
lemma of_text_eq_of_append {u : String} (hr : r ∈ renderings) (hr' : r' ∈ renderings)
    (hrs : ∀ s ∈ rs, s ∈ renderings) (hrs' : ∀ s ∈ rs', s ∈ renderings)
    (hlen : rs.length = rs'.length)
    (h : r ++ String.join rs = u ++ (r' ++ String.join rs')) : r = u ++ r' ∧ rs = rs' := by
  have hlist : r.toList ++ (String.join rs).toList
      = u.toList ++ (r'.toList ++ (String.join rs').toList) := by
    rw [← String.toList_append, ← String.toList_append, ← String.toList_append, h]
  -- both sides have one mark for each number, so the additional characters have none
  have hu : u.toList.countP isMark = 0 := by
    have hcount := congrArg (List.countP isMark) hlist
    rw [List.countP_append, List.countP_append, List.countP_append, Rendering.countP_isMark hr,
      Rendering.countP_isMark hr', countP_isMark_join hrs, countP_isMark_join hrs', hlen] at hcount
    omega
  obtain ⟨w, hw, hrest⟩ : ∃ w, r.toList = u.toList ++ w ∧
      r'.toList ++ (String.join rs').toList = w ++ (String.join rs).toList := by
    rcases List.append_eq_append_iff.mp hlist with ⟨v, hv, hrest⟩ | ⟨v, hv, hrest⟩
    · -- the mark of the first number would be among the additional characters
      have hmark := Rendering.countP_isMark hr
      rw [hv, List.countP_append] at hu
      omega
    · exact ⟨v, hv, hrest⟩
  have hwr : Rendering w := Rendering.of_append (hw ▸ hr : Rendering (u.toList ++ w)) hu hr' hrest
  obtain ⟨rfl, htail⟩ := Rendering.append_inj hr' hwr hrest
  have hjoin : String.join rs ++ "" = String.join rs' ++ "" := by
    rw [String.toList_inj.mp htail]
  refine ⟨String.toList_inj.mp (by rw [hw, String.toList_append]), ?_⟩
  exact (prefixFree_renderings.join_append_inj hrs hrs' hlen hjoin).1

/-- **A name and numbers in a row.**  The text fixes all numbers but the first, and the name with
the first number behind it. -/
theorem text_eq_iff (hr : r ∈ renderings) (hr' : r' ∈ renderings) (hrs : ∀ s ∈ rs, s ∈ renderings)
    (hrs' : ∀ s ∈ rs', s ∈ renderings) (hlen : rs.length = rs'.length) :
    z ++ (r ++ String.join rs) = z' ++ (r' ++ String.join rs') ↔
      (∃ u, z' = z ++ u ∧ r = u ++ r' ∨ z = z' ++ u ∧ r' = u ++ r) ∧ rs = rs' := by
  constructor
  · intro h
    have hlist : z.toList ++ (r ++ String.join rs).toList
        = z'.toList ++ (r' ++ String.join rs').toList := by
      rw [← String.toList_append, ← String.toList_append, h]
    rcases List.append_eq_append_iff.mp hlist with ⟨u, hu, hrest⟩ | ⟨u, hu, hrest⟩
    · obtain ⟨hfirst, hothers⟩ := of_text_eq_of_append (u := String.ofList u) hr hr' hrs hrs' hlen
        (String.toList_inj.mp (by simpa [String.toList_append] using hrest))
      exact ⟨⟨_, Or.inl ⟨String.toList_inj.mp (by simpa using hu), hfirst⟩⟩, hothers⟩
    · obtain ⟨hfirst, hothers⟩ := of_text_eq_of_append (u := String.ofList u) hr' hr hrs' hrs
        hlen.symm (String.toList_inj.mp (by simpa [String.toList_append] using hrest))
      exact ⟨⟨_, Or.inr ⟨String.toList_inj.mp (by simpa using hu), hfirst⟩⟩, hothers.symm⟩
  · rintro ⟨⟨u, ⟨rfl, rfl⟩ | ⟨rfl, rfl⟩⟩, rfl⟩ <;> simp only [String.append_assoc]

end Names

/-! ### Fractions -/

/-- The integer next to a fraction, and the even one of two. -/
def roundHalfEven (m n : ℕ) : ℕ :=
  if 2 * (m % n) < n ∨ 2 * (m % n) = n ∧ m / n % 2 = 0 then m / n else m / n + 1

/-- The magnitude of a fraction in units of the eighth decimal. -/
def scaled8 (q : ℚ) : ℕ := roundHalfEven (q.num.natAbs * 10 ^ 8) q.den

/-- The last eight digits of a number. -/
def lastDigits8 (n : ℕ) : List Char :=
  [7, 6, 5, 4, 3, 2, 1, 0].map fun i => Nat.digitChar (n / 10 ^ i % 10)

/-- `format(x, ".8f")`, of a fraction. -/
def decimal8 (q : ℚ) : String :=
  String.ofList ((if q < 0 then ['-'] else [])
    ++ (Nat.toDigits 10 (scaled8 q / 10 ^ 8) ++ '.' :: lastDigits8 (scaled8 q)))

lemma unsignedRendering_digits (m n : ℕ) :
    UnsignedRendering (Nat.toDigits 10 m ++ '.' :: lastDigits8 n) := by
  refine .finite Nat.toDigits_ne_nil (fun c hc => ?_) rfl fun c hc => ?_
  · exact Nat.isDigit_of_mem_toDigits (by decide) (by decide) hc
  · obtain ⟨i, -, rfl⟩ := List.mem_map.mp hc
    rw [Nat.isDigit_digitChar, decide_eq_true_eq]
    exact Nat.mod_lt _ (by decide)

lemma decimal8_mem (q : ℚ) : decimal8 q ∈ renderings := by
  have hdigits := unsignedRendering_digits (scaled8 q / 10 ^ 8) (scaled8 q)
  rw [renderings, Set.mem_ofPred_eq, decimal8, String.toList_ofList]
  split
  · rw [List.singleton_append]
    exact .minus hdigits
  · rw [List.nil_append]
    exact .plus hdigits

/-- Fractions with eight decimals, and an ideal digest. -/
def decimalEnv : FloatEnv ℚ where
  round8 q := (if q < 0 then -1 else 1) * scaled8 q / 10 ^ 8
  fmt8 := decimal8
  str := decimal8
  sha256 := announcedText

example : decimal8 (-1 / 3) = "-0.33333333" := by decide +kernel

end QuantumFoundation
