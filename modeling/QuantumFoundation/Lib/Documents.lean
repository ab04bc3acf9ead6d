import Mathlib.Data.List.Nodup

/-!
# Documents

A collection of documents in the order in which they were inserted, of which an update changes the
first that matches.  Where the documents have different keys, an update by key changes one of them
and leaves the others.
-/

namespace QuantumFoundation

namespace Documents

variable {δ κ : Type*}

/-- The first document that matches is changed. -/
def updateOne (p : δ → Bool) (f : δ → δ) : List δ → List δ
  | [] => []
  | d :: l => if p d then f d :: l else d :: updateOne p f l

variable {p : δ → Bool} {f g : δ → δ}

lemma updateOne_cons (d : δ) (l : List δ) :
    updateOne p f (d :: l) = if p d then f d :: l else d :: updateOne p f l := rfl

/-- What an update does not look at it leaves as it is. -/
lemma map_updateOne {key : δ → κ} (hf : ∀ d, key (f d) = key d) (l : List δ) :
    (updateOne p f l).map key = l.map key := by
  induction l with
  | nil => rfl
  | cons d l ih =>
    rw [updateOne_cons]
    split_ifs
    · rw [List.map_cons, List.map_cons, hf]
    · rw [List.map_cons, List.map_cons, ih]

/-- The document that was changed is the one that is found afterwards. -/
lemma find?_updateOne (hf : ∀ d, p (f d) = p d) (l : List δ) :
    (updateOne p f l).find? p = (l.find? p).map f := by
  induction l with
  | nil => rfl
  | cons d l ih =>
    rw [updateOne_cons]
    split_ifs with hd
    · rw [List.find?_cons_of_pos ((hf d).trans hd), List.find?_cons_of_pos hd, Option.map_some]
    · rw [List.find?_cons_of_neg hd, List.find?_cons_of_neg hd, ih]

/-- Two updates of the same document. -/
lemma updateOne_updateOne (hf : ∀ d, p (f d) = p d) (l : List δ) :
    updateOne p g (updateOne p f l) = updateOne p (fun d => g (f d)) l := by
  induction l with
  | nil => rfl
  | cons d l ih =>
    rw [updateOne_cons, updateOne_cons]
    split_ifs with hd
    · rw [updateOne_cons, if_pos ((hf d).trans hd)]
    · rw [updateOne_cons, if_neg hd, ih]

/-- What does not match is left alone, wherever it stands. -/
lemma eq_of_getElem?_updateOne {l : List δ} {i : ℕ} {d d' : δ} (h : l[i]? = some d)
    (h' : (updateOne p f l)[i]? = some d') (hd : ¬p d = true) : d' = d := by
  induction l generalizing i with
  | nil => exact absurd h nofun
  | cons e l ih =>
    rw [updateOne_cons] at h'
    cases i with
    | zero =>
      obtain rfl := Option.some.inj h
      rw [if_neg hd] at h'
      exact (Option.some.inj h').symm
    | succ i =>
      split_ifs at h'
      · exact Option.some.inj (h'.symm.trans h)
      · exact ih h h'

/-- What holds of every document, and of what it is changed to, holds after the update. -/
lemma forall_mem_updateOne {P : δ → Prop} {l : List δ} (h : ∀ d ∈ l, P d)
    (hf : ∀ d, P d → P (f d)) : ∀ d ∈ updateOne p f l, P d := by
  induction l with
  | nil => exact h
  | cons e l ih =>
    rw [List.forall_mem_cons] at h
    rw [updateOne_cons]
    split_ifs
    · exact List.forall_mem_cons.mpr ⟨hf e h.1, h.2⟩
    · exact List.forall_mem_cons.mpr ⟨h.1, ih h.2⟩

/-- A narrower search finds the same document, if it matches. -/
lemma find?_and {q : δ → Bool} {l : List δ} {d : δ} (h : l.find? p = some d) (hd : q d = true) :
    l.find? (fun d => p d && q d) = some d := by
  rw [List.find?_eq_some_iff_append] at h ⊢
  obtain ⟨hp, before, after, heq, hbefore⟩ := h
  refine ⟨by simp [hp, hd], before, after, heq, fun a ha => ?_⟩
  have hpa : p a = false := by simpa using hbefore a ha
  simp [hpa]

variable [DecidableEq κ] {key : δ → κ} {k : κ} {l : List δ} {d d' : δ}

/-- A document after an update by key is the one that was changed, or one with another key. -/
lemma mem_updateOne_cases (hnodup : (l.map key).Nodup)
    (hfind : l.find? (fun d => key d = k) = some d)
    (h : d' ∈ updateOne (fun d => key d = k) f l) : d' = f d ∨ d' ∈ l ∧ key d' ≠ k := by
  induction l with
  | nil => exact absurd h List.not_mem_nil
  | cons e l ih =>
    rw [List.map_cons, List.nodup_cons] at hnodup
    rw [updateOne_cons] at h
    by_cases he : key e = k
    · rw [List.find?_cons_of_pos (by simpa using he)] at hfind
      rw [if_pos (decide_eq_true he), List.mem_cons, Option.some.inj hfind] at h
      refine h.imp_right fun hmem => ⟨List.mem_cons_of_mem _ hmem, fun hk => hnodup.1 ?_⟩
      rw [he, ← hk]
      exact List.mem_map_of_mem hmem
    · rw [List.find?_cons_of_neg (by simpa using he)] at hfind
      rw [if_neg (by simpa using he), List.mem_cons] at h
      rcases h with rfl | hmem
      · exact Or.inr ⟨List.mem_cons_self, he⟩
      · exact (ih hnodup.2 hfind hmem).imp_right fun h => ⟨List.mem_cons_of_mem _ h.1, h.2⟩

/-- With different keys, a document is the only one with its key. -/
lemma filter_key_eq_singleton (hnodup : (l.map key).Nodup) (hd : d ∈ l) :
    l.filter (fun e => key e = key d) = [d] := by
  induction l with
  | nil => exact absurd hd List.not_mem_nil
  | cons e l ih =>
    rw [List.map_cons, List.nodup_cons] at hnodup
    rcases List.mem_cons.mp hd with rfl | hd
    · rw [List.filter_cons_of_pos (by simp), List.filter_eq_nil_iff.mpr fun a ha hkey => ?_]
      exact hnodup.1 (of_decide_eq_true hkey ▸ List.mem_map_of_mem ha)
    · rw [List.filter_cons_of_neg fun hkey => ?_, ih hnodup.2 hd]
      exact hnodup.1 (of_decide_eq_true hkey ▸ List.mem_map_of_mem hd)

end Documents

end QuantumFoundation
