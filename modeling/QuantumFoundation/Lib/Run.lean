import Mathlib.Data.List.Basic
import Mathlib.Data.List.Induction

/-!
# Runs of a deterministic system

A system is a step function from a state and an action to a state; a run performs a list
of actions one after the other.  `Along` says that every step of a run meets a condition
on the state before it and on the action, and is what invariants that hold only under
such a condition are proved along.  The last section is about replicas: a list of states
that all take the same step.
-/

namespace QuantumFoundation

namespace Run

variable {σ α : Type*} {step : σ → α → σ}

/-- The state reached from `s` by performing the actions in order. -/
def exec (step : σ → α → σ) (s : σ) (as : List α) : σ := as.foldl step s

@[simp] lemma exec_nil (s : σ) : exec step s [] = s := rfl

@[simp] lemma exec_cons (s : σ) (a : α) (as : List α) :
    exec step s (a :: as) = exec step (step s a) as := rfl

lemma exec_append (s : σ) (as bs : List α) :
    exec step s (as ++ bs) = exec step (exec step s as) bs := by
  simp [exec]

/-- Every step of the run satisfies `C`, a condition on the state before the step and on
the action. -/
def Along (step : σ → α → σ) (C : σ → α → Prop) : σ → List α → Prop
  | _, [] => True
  | s, a :: as => C s a ∧ Along step C (step s a) as

instance Along.instDecidable {C : σ → α → Prop} [∀ s a, Decidable (C s a)] :
    ∀ (s : σ) (as : List α), Decidable (Along step C s as)
  | _, [] => .isTrue trivial
  | s, a :: as =>
      have : Decidable (Along step C (step s a) as) := Along.instDecidable (step s a) as
      inferInstanceAs (Decidable (C s a ∧ Along step C (step s a) as))

/-- **Conditional invariant.**  An invariant that every step meeting `C` preserves holds
at the end of every run along `C`. -/
theorem invariant {C : σ → α → Prop} {I : σ → Prop} (hstep : ∀ s a, I s → C s a → I (step s a))
    {s : σ} {as : List α} (h₀ : I s) (h : Along step C s as) : I (exec step s as) := by
  induction as generalizing s with
  | nil => exact h₀
  | cons a as ih => exact ih (hstep s a h₀ h.1) h.2

/-- What is known of all actions of the run may be added to the condition. -/
lemma Along.and_mem {C : σ → α → Prop} {P : α → Prop} {s : σ} {as : List α}
    (h : Along step C s as) (hP : ∀ a ∈ as, P a) : Along step (fun s a => P a ∧ C s a) s as := by
  induction as generalizing s with
  | nil => trivial
  | cons a as ih =>
    exact ⟨⟨hP a List.mem_cons_self, h.1⟩, ih h.2 fun b hb => hP b (List.mem_cons_of_mem _ hb)⟩

lemma along_of_forall {C : σ → α → Prop} (s : σ) {as : List α} (h : ∀ s, ∀ a ∈ as, C s a) :
    Along step C s as := by
  induction as generalizing s with
  | nil => trivial
  | cons a as ih =>
    exact ⟨h s a List.mem_cons_self, ih _ fun s b hb => h s b (List.mem_cons_of_mem _ hb)⟩

lemma along_iff_forall_mem {P : α → Prop} {s : σ} {as : List α} :
    Along step (fun _ a => P a) s as ↔ ∀ a ∈ as, P a := by
  induction as generalizing s with
  | nil => simp [Along]
  | cons a as ih => rw [Along, ih, List.forall_mem_cons]

/-- An invariant that the actions of a run preserve holds at its end. -/
lemma invariant_of_mem {I : σ → Prop} {as : List α} (hstep : ∀ s, ∀ a ∈ as, I s → I (step s a))
    {s : σ} (h₀ : I s) : I (exec step s as) :=
  List.foldlRecOn as step h₀ fun s hs a ha => hstep s a ha hs

/-- An invariant that every step preserves holds at the end of every run. -/
lemma invariant_of_forall {I : σ → Prop} (hstep : ∀ s a, I s → I (step s a)) {s : σ} (h₀ : I s)
    (as : List α) : I (exec step s as) :=
  invariant_of_mem (fun s a _ h => hstep s a h) h₀

/-- Whatever steps that meet `C` follow, `P` holds after them. -/
def Henceforth (step : σ → α → σ) (C : σ → α → Prop) (P : σ → Prop) (s : σ) : Prop :=
  ∀ as, Along step C s as → P (exec step s as)

lemma Henceforth.now {C : σ → α → Prop} {P : σ → Prop} {s : σ} (h : Henceforth step C P s) :
    P s := h [] trivial

/-- A property that an invariant implies holds henceforth. -/
lemma henceforth_of_invariant {C : σ → α → Prop} {I P : σ → Prop}
    (hstep : ∀ s a, I s → C s a → I (step s a)) (hP : ∀ s, I s → P s) {s : σ} (h₀ : I s) :
    Henceforth step C P s :=
  fun _ h => hP _ (invariant hstep h₀ h)

/-- Two conditions that agree wherever an invariant holds and an assumption is met, and of which one
keeps the invariant, hold along the same of the runs that meet the assumption. -/
lemma along_congr_of_along {A C D : σ → α → Prop} {I : σ → Prop}
    (hiff : ∀ s a, A s a → I s → (C s a ↔ D s a))
    (hstep : ∀ s a, A s a → I s → C s a → I (step s a)) {s : σ} {as : List α}
    (hA : Along step A s as) (h₀ : I s) : Along step C s as ↔ Along step D s as := by
  induction as generalizing s with
  | nil => exact Iff.rfl
  | cons a as ih =>
    obtain ⟨ha, has⟩ := hA
    constructor
    · rintro ⟨hC, hrest⟩
      exact ⟨(hiff s a ha h₀).mp hC, (ih has (hstep s a ha h₀ hC)).mp hrest⟩
    · rintro ⟨hD, hrest⟩
      have hC := (hiff s a ha h₀).mpr hD
      exact ⟨hC, (ih has (hstep s a ha h₀ hC)).mpr hrest⟩

/-- Two conditions that agree wherever an invariant holds, and of which one keeps the
invariant, hold along the same runs. -/
lemma along_congr {C D : σ → α → Prop} {I : σ → Prop} {P : α → Prop}
    (hiff : ∀ s a, P a → I s → (C s a ↔ D s a))
    (hstep : ∀ s a, P a → I s → C s a → I (step s a)) {s : σ} {as : List α}
    (hP : ∀ a ∈ as, P a) (h₀ : I s) : Along step C s as ↔ Along step D s as :=
  along_congr_of_along hiff hstep (along_iff_forall_mem.mpr hP) h₀

lemma along_append {C : σ → α → Prop} {s : σ} {as bs : List α} :
    Along step C s (as ++ bs) ↔ Along step C s as ∧ Along step C (exec step s as) bs := by
  induction as generalizing s with
  | nil => simp [Along]
  | cons a as ih => exact (and_congr_right fun _ => ih).trans and_assoc.symm

/-- A property of the actions so far and the state they lead to that every step keeps. -/
lemma history_invariant {I : List α → σ → Prop} {s : σ} (h₀ : I [] s)
    (hstep : ∀ as a s, I as s → I (as ++ [a]) (step s a)) (as : List α) :
    I as (exec step s as) := by
  induction as using List.reverseRecOn with
  | nil => exact h₀
  | append_singleton as a ih =>
    rw [exec_append]
    exact hstep _ _ _ ih

/-- **Exact condition of a history property.**  Where a step keeps `Q`, a property of the
actions so far and the state they lead to, exactly under `C`, it holds all the way along a
run exactly if every step of the run meets `C`. -/
theorem forall_prefix_iff_along {C : σ → α → Prop} {I Q : List α → σ → Prop} {s : σ}
    (hI₀ : I [] s) (hQ₀ : Q [] s) (hI : ∀ as a s, I as s → I (as ++ [a]) (step s a))
    (hiff : ∀ as a s, I as s → Q as s → (Q (as ++ [a]) (step s a) ↔ C s a)) (as : List α) :
    (∀ bs, bs <+: as → Q bs (exec step s bs)) ↔ Along step C s as := by
  induction as using List.reverseRecOn with
  | nil =>
    refine ⟨fun _ => trivial, fun _ bs hbs => ?_⟩
    rw [List.prefix_nil.mp hbs]
    exact hQ₀
  | append_singleton as a ih =>
    rw [along_append, ← ih]
    have hlast : Q as (exec step s as) →
        (Q (as ++ [a]) (exec step s (as ++ [a])) ↔ C (exec step s as) a) := by
      rw [exec_append]
      exact hiff _ _ _ (history_invariant hI₀ hI as)
    constructor
    · intro h
      have hall : ∀ bs, bs <+: as → Q bs (exec step s bs) := fun bs hbs =>
        h bs (hbs.trans (List.prefix_append as [a]))
      exact ⟨hall, (hlast (hall as List.prefix_rfl)).mp (h _ List.prefix_rfl), trivial⟩
    · rintro ⟨hall, hC, -⟩ bs hbs
      rcases List.prefix_concat_iff.mp hbs with rfl | hbs
      · exact (hlast (hall as List.prefix_rfl)).mpr hC
      · exact hall bs hbs

/-- A relation between a state and its successor that is reflexive and transitive holds
between the start and the end of a run. -/
lemma rel_exec {C : σ → α → Prop} {R : σ → σ → Prop} (hrefl : ∀ s, R s s)
    (htrans : ∀ s t u, R s t → R t u → R s u) (hstep : ∀ s a, C s a → R s (step s a))
    {s : σ} {as : List α} (h : Along step C s as) : R s (exec step s as) := by
  induction as generalizing s with
  | nil => exact hrefl s
  | cons a as ih => exact htrans _ _ _ (hstep s a h.1) (ih h.2)

/-- A condition along a run, one step at a time. -/
lemma along_iff_forall_split {C : σ → α → Prop} {s : σ} {as : List α} : Along step C s as ↔
    ∀ before a after, as = before ++ a :: after → C (exec step s before) a := by
  constructor
  · rintro h before a after rfl
    exact (along_append.mp h).2.1
  · intro h
    induction as generalizing s with
    | nil => trivial
    | cons a as ih =>
      exact ⟨h [] a as rfl, ih fun before b after heq => h (a :: before) b after (by rw [heq]; rfl)⟩

/-- Throughout the run `P` holds of every state reached, and `R` between every state reached and
every later one. -/
def Throughout (step : σ → α → σ) (P : σ → Prop) (R : σ → σ → Prop) (s : σ) (as : List α) : Prop :=
  ∀ earlier later rest, as = earlier ++ later ++ rest →
    P (exec step s (earlier ++ later)) ∧
      R (exec step s earlier) (exec step s (earlier ++ later))

/-- It is enough to look at the steps, for a relation that is reflexive and transitive. -/
lemma throughout_iff_along {P : σ → Prop} {R : σ → σ → Prop} (hrefl : ∀ s, R s s)
    (htrans : ∀ s t u, R s t → R t u → R s u) {s : σ} (h₀ : P s) {as : List α} :
    Throughout step P R s as ↔ Along step (fun s a => P (step s a) ∧ R s (step s a)) s as := by
  constructor
  · intro h
    refine along_iff_forall_split.mpr fun before a after heq => ?_
    have hstep := h before [a] after (by rw [heq, List.append_assoc]; rfl)
    rwa [exec_append] at hstep
  · rintro h earlier later rest rfl
    obtain ⟨hrun, -⟩ := along_append.mp h
    refine ⟨invariant (fun _ _ _ hC => hC.1) h₀ hrun, ?_⟩
    rw [exec_append]
    exact rel_exec hrefl htrans (fun _ _ hC => hC.2) (along_append.mp hrun).2

/-- **Exact condition of a property of runs.**  Where an invariant holds that the steps which meet
`C` keep, and a step is as required exactly if it meets `C`, a run is as required throughout exactly
if all its steps meet `C`; `A` is what is assumed of all steps. -/
theorem throughout_iff_along_of_iff {P : σ → Prop} {R : σ → σ → Prop} {A C : σ → α → Prop}
    {I : σ → Prop} (hrefl : ∀ s, R s s) (htrans : ∀ s t u, R s t → R t u → R s u)
    (hP : ∀ s, I s → P s) (hstep : ∀ s a, A s a → I s → C s a → I (step s a) ∧ R s (step s a))
    (hbad : ∀ s a, A s a → I s → P (step s a) → R s (step s a) → C s a) {s : σ} (h₀ : I s)
    {as : List α} (hA : Along step A s as) : Throughout step P R s as ↔ Along step C s as := by
  rw [throughout_iff_along hrefl htrans (hP s h₀)]
  refine (along_congr_of_along (fun s a ha hs => ?_)
    (fun s a ha hs hC => (hstep s a ha hs hC).1) hA h₀).symm
  refine ⟨fun hC => ?_, fun hgood => hbad s a ha hs hgood.1 hgood.2⟩
  obtain ⟨hI, hR⟩ := hstep s a ha hs hC
  exact ⟨hP _ hI, hR⟩

/-- **Two runs.**  A relation between the states of two systems that related actions keep, where the
first one meets a condition, holds at the end of two runs with related actions. -/
theorem rel_exec_of_forall₂ {τ β : Type*} {step' : τ → β → τ} {C : σ → α → Prop}
    {P : α → β → Prop} {R : σ → τ → Prop}
    (hstep : ∀ s t a b, R s t → P a b → C s a → R (step s a) (step' t b)) {s : σ} {t : τ}
    {as : List α} {bs : List β} (h₀ : R s t) (h : List.Forall₂ P as bs) (hC : Along step C s as) :
    R (exec step s as) (exec step' t bs) := by
  induction h generalizing s t with
  | nil => exact h₀
  | cons hab _ ih => exact ih (hstep _ _ _ _ h₀ hab hC.1) hC.2

/-! ### Replicas -/

variable {β : Type*}

/-- All members of the list look the same through `f`. -/
def Agree (f : σ → β) (l : List σ) : Prop := ∀ a ∈ l, ∀ b ∈ l, f a = f b

/-- **Lockstep.**  Replicas that agree and all take a step that `f` sees as a function of
what it saw before still agree. -/
theorem Agree.map {f : σ → β} {g : σ → σ} (hg : ∀ a b, f a = f b → f (g a) = f (g b))
    {l : List σ} (h : Agree f l) : Agree f (l.map g) := by
  intro a ha b hb
  obtain ⟨a', ha', rfl⟩ := List.mem_map.mp ha
  obtain ⟨b', hb', rfl⟩ := List.mem_map.mp hb
  exact hg _ _ (h a' ha' b' hb')

/-- Replacing the member at one position, seen through `f`. -/
lemma map_getElem?_set (f : σ → β) (l : List σ) (i : Fin l.length) (b : σ) (j : ℕ) :
    (l.set i b)[j]?.map f = l[j]?.map fun a => if i.val = j then f b else f a := by
  rw [List.getElem?_set]
  by_cases hij : i.val = j
  · subst hij
    simp
  · simp [hij]

/-- Changing the member at one position, seen through `f`. -/
lemma map_getElem?_modify (f : σ → β) (l : List σ) (i : ℕ) (g : σ → σ) (j : ℕ) :
    (l.modify i g)[j]?.map f = l[j]?.map fun a => if i = j then f (g a) else f a := by
  rw [List.getElem?_modify]
  by_cases hij : i = j <;> simp [hij, Function.comp_def]

/-- A member of the list with the one at position `i` replaced. -/
lemma mem_set_cases {l : List σ} {i : Fin l.length} {a b : σ} (h : b ∈ l.set i a) :
    b = a ∨ ∃ j : Fin l.length, j ≠ i ∧ b = l[j] := by
  obtain ⟨j, hj, rfl⟩ := List.mem_iff_getElem.mp h
  rw [List.length_set] at hj
  by_cases hij : i.val = j
  · subst hij
    exact Or.inl (by simp)
  · exact Or.inr ⟨⟨j, hj⟩, fun h => hij (congrArg Fin.val h).symm, by simp [hij]⟩

/-- Where `f` tells the members apart, those that are left when one is replaced are the others. -/
lemma mem_set_cases_of_nodup {f : σ → β} {l : List σ} (hnodup : (l.map f).Nodup) {i : ℕ}
    {a b c : σ} (ha : l[i]? = some a) (h : c ∈ l.set i b) : c = b ∨ c ∈ l ∧ f c ≠ f a := by
  obtain ⟨hi, rfl⟩ := List.getElem?_eq_some_iff.mp ha
  rcases mem_set_cases (i := ⟨i, hi⟩) h with rfl | ⟨j, hj, rfl⟩
  · exact Or.inl rfl
  · refine Or.inr ⟨List.getElem_mem _, fun heq => hj (Fin.ext ?_)⟩
    have hmap : (l.map f)[j.val]? = (l.map f)[i]? := by simpa [hi] using heq
    exact (List.getElem?_inj (by simp) hnodup).mp hmap

/-- Replacing a member by one that looks the same through `f`. -/
lemma map_set_of_eq {f : σ → β} {l : List σ} {i : ℕ} {a b : σ} (ha : l[i]? = some a)
    (hf : f b = f a) : (l.set i b).map f = l.map f := by
  obtain ⟨hi, rfl⟩ := List.getElem?_eq_some_iff.mp ha
  rw [List.map_set, hf, ← List.getElem_map f (h := by simpa using hi), List.set_getElem_self]

lemma getElem_of_mem {l : List σ} {i : Fin l.length} {a : σ} (h : a ∈ l[i.val]?) : l[i] = a := by
  simpa using h

/-- A loop over the replicas that collects what each of them adds. -/
lemma foldl_collects {δ : Type*} {f : δ → σ → δ} (out : δ → List β) (g : σ → List β)
    (h : ∀ d a, out (f d a) = out d ++ g a) (l : List σ) (d : δ) :
    out (l.foldl f d) = out d ++ l.flatMap g := by
  induction l generalizing d with
  | nil => simp
  | cons a l ih => rw [List.foldl_cons, ih, h, List.flatMap_cons, List.append_assoc]

end Run

end QuantumFoundation
