import Mathlib.Data.Finset.Insert
import QuantumFoundation.Lib.Run

/-!
# Repeated commands

Commands may carry a key.  A system that takes note of the keys, and does nothing for a command
whose key it has noted, cannot tell a run with repetitions from the run without them.
-/

namespace QuantumFoundation

namespace Run

variable {σ α κ : Type*} [DecidableEq κ] {step : σ → α → σ} {key : α → Option κ}

/-- The actions without those that repeat a key: one of the given keys, or that of an earlier
action. -/
def firsts (key : α → Option κ) : Finset κ → List α → List α
  | _, [] => []
  | seen, a :: as =>
    match key a with
    | none => a :: firsts key seen as
    | some k => if k ∈ seen then firsts key seen as else a :: firsts key (insert k seen) as

lemma firsts_of_none {a : α} (h : key a = none) (seen : Finset κ) (as : List α) :
    firsts key seen (a :: as) = a :: firsts key seen as := by
  rw [firsts, h]

lemma firsts_of_mem {a : α} {k : κ} (h : key a = some k) {seen : Finset κ} (hk : k ∈ seen)
    (as : List α) : firsts key seen (a :: as) = firsts key seen as := by
  rw [firsts, h]
  exact if_pos hk

lemma firsts_of_notMem {a : α} {k : κ} (h : key a = some k) {seen : Finset κ} (hk : k ∉ seen)
    (as : List α) : firsts key seen (a :: as) = a :: firsts key (insert k seen) as := by
  rw [firsts, h]
  exact if_neg hk

/-- No key is left twice, and none of those that were given. -/
lemma nodup_firsts (key : α → Option κ) (seen : Finset κ) (as : List α) :
    ((firsts key seen as).filterMap key).Nodup ∧
      ∀ k ∈ (firsts key seen as).filterMap key, k ∉ seen := by
  induction as generalizing seen with
  | nil => simp [firsts]
  | cons a as ih =>
    cases hkey : key a with
    | none =>
      rw [firsts_of_none hkey, List.filterMap_cons_none hkey]
      exact ih seen
    | some k =>
      by_cases hk : k ∈ seen
      · rw [firsts_of_mem hkey hk]
        exact ih seen
      · rw [firsts_of_notMem hkey hk, List.filterMap_cons_some hkey]
        obtain ⟨hnodup, hnew⟩ := ih (insert k seen)
        refine ⟨List.nodup_cons.mpr ⟨fun hmem => ?_, hnodup⟩, fun j hj => ?_⟩
        · exact hnew k hmem (Finset.mem_insert_self k seen)
        · rcases List.mem_cons.mp hj with rfl | hj
          · exact hk
          · exact fun hseen => hnew j hj (Finset.mem_insert_of_mem hseen)

/-- The actions that are left stand in their order. -/
lemma firsts_sublist (seen : Finset κ) (as : List α) : (firsts key seen as).Sublist as := by
  induction as generalizing seen with
  | nil => exact List.Sublist.refl []
  | cons a as ih =>
    cases hkey : key a with
    | none =>
      rw [firsts_of_none hkey]
      exact (ih seen).cons_cons a
    | some k =>
      by_cases hk : k ∈ seen
      · rw [firsts_of_mem hkey hk]
        exact (ih seen).cons a
      · rw [firsts_of_notMem hkey hk]
        exact (ih (insert k seen)).cons_cons a

/-- What a system guarantees that does nothing for the command with a key it has noted: keys
stay noted, every command notes its key, and a command with a noted key changes nothing. -/
structure Notes (step : σ → α → σ) (key : α → Option κ) (noted : κ → σ → Prop) : Prop where
  keeps : ∀ k s a, noted k s → noted k (step s a)
  notes : ∀ k s a, key a = some k → noted k (step s a)
  skips : ∀ k s a, key a = some k → noted k s → step s a = s

/-- **Repetitions leave no trace.** -/
theorem Notes.exec_firsts {noted : κ → σ → Prop} (h : Notes step key noted) {s : σ}
    {seen : Finset κ} (hseen : ∀ k ∈ seen, noted k s) (as : List α) :
    exec step s (firsts key seen as) = exec step s as := by
  induction as generalizing s seen with
  | nil => rfl
  | cons a as ih =>
    cases hkey : key a with
    | none =>
      rw [firsts_of_none hkey, exec_cons, exec_cons]
      exact ih fun k hk => h.keeps k s a (hseen k hk)
    | some k =>
      by_cases hk : k ∈ seen
      · rw [firsts_of_mem hkey hk, exec_cons, h.skips k s a hkey (hseen k hk)]
        exact ih hseen
      · rw [firsts_of_notMem hkey hk, exec_cons, exec_cons]
        refine ih fun j hj => ?_
        rcases Finset.mem_insert.mp hj with rfl | hj
        · exact h.notes j s a hkey
        · exact h.keeps j s a (hseen j hj)

end Run

end QuantumFoundation
