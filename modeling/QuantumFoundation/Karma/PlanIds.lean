import QuantumFoundation.Karma.Atonement

/-!
# The ids of the atonement plans

The id of a plan joins its user, its action and the number of plans that the user had before it.
The number stands behind the last underscore, so two plans of one user have different ids; those of
two users agree if the numbers do and the users and actions are joined to the same text.
-/

namespace QuantumFoundation.Karma

variable {F : Type*}

/-- The number of plans of a user. -/
def plansOf (userId : String) (plans : List (AtonementPlan F)) : ℕ :=
  (plans.filter fun plan => plan.userId = userId).length

/-- What the numbering reads of a plan. -/
def AtonementPlan.label (plan : AtonementPlan F) : String × String × String :=
  (plan.planId, plan.userId, plan.paapAction)

/-- The id that a plan gets after some others. -/
def planIdAfter (plans : List (AtonementPlan F)) (userId paapAction : String) : String :=
  userId ++ "_" ++ paapAction ++ "_" ++ toString (plansOf userId plans)

/-- Every plan has the id that the plans before it gave it. -/
def Numbered (plans : List (AtonementPlan F)) : Prop :=
  ∀ (i : ℕ) (plan : AtonementPlan F), plans[i]? = some plan →
    plan.planId = planIdAfter (plans.take i) plan.userId plan.paapAction

/-- No other user has a plan for which he and its action are joined to the same text as this user
and this action, and before which he had as many plans as this user has. -/
def Unambiguous (plans : List (AtonementPlan F)) (userId paapAction : String) : Prop :=
  ∀ i < plans.length, ∀ plan ∈ plans[i]?, plan.userId ≠ userId →
    plansOf plan.userId (plans.take i) = plansOf userId plans →
    plan.userId ++ "_" ++ plan.paapAction ≠ userId ++ "_" ++ paapAction

instance Unambiguous.instDecidable (plans : List (AtonementPlan F)) (userId paapAction : String) :
    Decidable (Unambiguous plans userId paapAction) :=
  inferInstanceAs (Decidable (∀ i < plans.length, ∀ plan ∈ plans[i]?, _))

variable {plans plans' : List (AtonementPlan F)} {userId paapAction : String}

/-- What the ids are made of. -/
lemma planIdAfter_eq_iff {userId' paapAction' : String} :
    planIdAfter plans userId paapAction = planIdAfter plans' userId' paapAction' ↔
      userId ++ "_" ++ paapAction = userId' ++ "_" ++ paapAction' ∧
        plansOf userId plans = plansOf userId' plans' := by
  constructor
  · intro h
    -- the digits of the numbers hold no underscore
    obtain ⟨hname, hnumber⟩ := append_separator_inj (c := '_') (by simp)
      (not_mem_repr_nat (by decide) _) (not_mem_repr_nat (by decide) _) h
    exact ⟨hname, repr_nat_inj hnumber⟩
  · rintro ⟨hname, hnumber⟩
    rw [planIdAfter, planIdAfter, hname, hnumber]

lemma plansOf_append (userId : String) (l l' : List (AtonementPlan F)) :
    plansOf userId (l ++ l') = plansOf userId l + plansOf userId l' := by
  rw [plansOf, List.filter_append, List.length_append]
  rfl

/-- A user had fewer plans before each of his plans than he has. -/
lemma plansOf_take_lt {i : ℕ} {plan : AtonementPlan F} (h : plans[i]? = some plan) :
    plansOf plan.userId (plans.take i) < plansOf plan.userId plans := by
  obtain ⟨hi, hget⟩ := List.getElem?_eq_some_iff.mp h
  have hsplit : plans = plans.take i ++ plan :: plans.drop (i + 1) := by
    rw [← hget, ← List.drop_eq_getElem_cons hi, List.take_append_drop]
  have hsum : plansOf plan.userId plans = plansOf plan.userId (plans.take i)
      + plansOf plan.userId (plan :: plans.drop (i + 1)) := by
    conv_lhs => rw [hsplit]
    exact plansOf_append _ _ _
  have hpos : 0 < plansOf plan.userId (plan :: plans.drop (i + 1)) := by
    rw [plansOf, List.filter_cons_of_pos (by simp)]
    exact Nat.succ_pos _
  omega

/-- The users of the plans tell their numbers. -/
lemma plansOf_eq_of_labels (h : plans.map AtonementPlan.label = plans'.map AtonementPlan.label)
    (userId : String) : plansOf userId plans = plansOf userId plans' := by
  have hlabels (l : List (AtonementPlan F)) :
      plansOf userId l = ((l.map AtonementPlan.label).filter fun r => r.2.1 = userId).length := by
    rw [List.filter_map, List.length_map]
    rfl
  rw [hlabels, hlabels, h]

namespace Numbered

lemma nil : Numbered ([] : List (AtonementPlan F)) := fun _ _ h => absurd h nofun

/-- **New ids.**  The id of a plan is new exactly if its user and its action are not ambiguous. -/
theorem not_mem_iff (h : Numbered plans) :
    planIdAfter plans userId paapAction ∉ plans.map AtonementPlan.planId ↔
      Unambiguous plans userId paapAction := by
  constructor
  · intro hnew i _ plan hplan _ hnumber hname
    refine hnew (List.mem_map.mpr ⟨plan, List.mem_of_getElem? hplan, ?_⟩)
    rw [h i plan hplan]
    exact planIdAfter_eq_iff.mpr ⟨hname, hnumber⟩
  · intro hclear hmem
    obtain ⟨plan, hplan, hid⟩ := List.mem_map.mp hmem
    obtain ⟨i, hi, hget⟩ := List.getElem_of_mem hplan
    have hget' : plans[i]? = some plan := List.getElem?_eq_some_iff.mpr ⟨hi, hget⟩
    rw [h i plan hget'] at hid
    obtain ⟨hname, hnumber⟩ := planIdAfter_eq_iff.mp hid
    by_cases huser : plan.userId = userId
    · have hlt := plansOf_take_lt hget'
      rw [hnumber, huser] at hlt
      exact hlt.false
    · exact hclear i hi plan hget' huser hnumber hname

lemma append (h : Numbered plans) {plan : AtonementPlan F}
    (hid : plan.planId = planIdAfter plans plan.userId plan.paapAction) :
    Numbered (plans ++ [plan]) := by
  intro i p hp
  rcases Nat.lt_or_ge i plans.length with hi | hi
  · rw [List.getElem?_append_left hi] at hp
    rw [List.take_append_of_le_length hi.le]
    exact h i p hp
  · obtain ⟨hi', -⟩ := List.getElem?_eq_some_iff.mp hp
    have hi'' : i = plans.length := by
      rw [List.length_append, List.length_singleton] at hi'
      omega
    subst hi''
    rw [List.getElem?_concat_length] at hp
    rw [List.take_left, ← Option.some.inj hp]
    exact hid

/-- Plans with the same labels are numbered in the same way. -/
lemma of_labels (h : Numbered plans)
    (hlabels : plans'.map AtonementPlan.label = plans.map AtonementPlan.label) :
    Numbered plans' := by
  intro i plan' hplan'
  have hlabel : (plans.map AtonementPlan.label)[i]? = some plan'.label := by
    rw [← hlabels, List.getElem?_map, hplan', Option.map_some]
  rw [List.getElem?_map] at hlabel
  obtain ⟨plan, hplan, hsame⟩ := Option.map_eq_some_iff.mp hlabel
  obtain ⟨hid, huser, haction⟩ :
      plan.planId = plan'.planId ∧ plan.userId = plan'.userId ∧
        plan.paapAction = plan'.paapAction := by simpa [AtonementPlan.label] using hsame
  have htake :
      (plans'.take i).map AtonementPlan.label = (plans.take i).map AtonementPlan.label := by
    rw [List.map_take, List.map_take, hlabels]
  rw [← hid, h i plan hplan, huser, haction]
  exact planIdAfter_eq_iff.mpr ⟨rfl, (plansOf_eq_of_labels htake _).symm⟩

end Numbered

end QuantumFoundation.Karma
