import Mathlib.Algebra.Order.Field.Rat
import QuantumFoundation.Karma.PlanIds
import QuantumFoundation.Lib.Run

/-!
# The rewards of the atonement plans

The id of a plan joins a user, an action and a number, which two plans can share, and a completed
plan completes again with every further proof.  A run pays every reward at most once exactly if it
makes use of neither.
-/

namespace QuantumFoundation.Karma

open Documents (updateOne)

/-! ### Runs -/

/-- The calls. -/
inductive AtonementCall (F : Type*)
  | createAtonementPlan (userId paapAction severityClass : String)
  | validateAtonementProof (planId atonementType : String) (amount : F)
    (proofText txHash : Option String)

/-- The call is a proof for the plans with an id. -/
def AtonementCall.Addresses {F : Type*} (planId : String) : AtonementCall F → Prop
  | .createAtonementPlan .. => False
  | .validateAtonementProof id .. => id = planId

/-- The collections, and the ids of the plans of which the completion was triggered, in order. -/
structure Atonements (F : Type*) where
  store : KarmaStore F
  triggered : List String

namespace Atonements

variable {F : Type*} [Field F] [LinearOrder F]

/-- No plans. -/
def start (users : Dict String (KarmaUser F)) : Atonements F := ⟨⟨users, [], [], []⟩, []⟩

/-- One call.  The completion is triggered for a plan that a proof was accepted for and that has
then met its requirements. -/
def perform (s : Atonements F) : AtonementCall F → Atonements F
  | .createAtonementPlan userId paapAction severityClass =>
    { s with store := (Karma.createAtonementPlan s.store userId paapAction severityClass).1 }
  | .validateAtonementProof planId atonementType amount proofText txHash =>
    let r := Karma.validateAtonementProof s.store planId atonementType amount proofText txHash
    { store := r.1
      triggered := s.triggered ++
        match r.2 with
        | .ok (true, _, some plan) => if plan.isComplete then [planId] else []
        | _ => [] }

/-- The ids of the plans. -/
def planIds (s : Atonements F) : List String := s.store.atonements.map AtonementPlan.planId

/-- The Paap tokens of a user and a class. -/
def paapBalance (s : Atonements F) (userId severityClass : String) : F :=
  ((s.store.users.get? userId).bind fun user => user.paapTokens.get? severityClass).getD 0

/-- The sum of some rewards, for a user and a class. -/
def paidTo (rewards : List (RewardTransaction F)) (userId severityClass : String) : F :=
  ((rewards.filter fun r => r.userId = userId ∧ r.token = "PaapTokens." ++ severityClass).map
    RewardTransaction.amount).sum

/-- What the law asks of a call: afterwards the ids of the plans are distinct, the completion was
triggered at most once for a plan and at most one reward was paid for it; a proof leaves all plans
with another id as they were, and the rewards recorded are those that were paid. -/
structure Respected (s : Atonements F) (call : AtonementCall F) : Prop where
  distinct : (s.perform call).planIds.Nodup
  addressed : ∀ (i : ℕ) (plan plan' : AtonementPlan F), s.store.atonements[i]? = some plan →
    (s.perform call).store.atonements[i]? = some plan' → plan' ≠ plan →
    call.Addresses plan.planId
  triggeredOnce : (s.perform call).triggered.Nodup
  paidOnce : ((s.perform call).store.transactions.map RewardTransaction.planId).Nodup
  recorded : ∃ rewards, (s.perform call).store.transactions = s.store.transactions ++ rewards ∧
    ∀ userId severityClass, (s.perform call).paapBalance userId severityClass =
      s.paapBalance userId severityClass + paidTo rewards userId severityClass

/-- The plan that a proof completes, as it was before. -/
def completedBy (s : Atonements F) (planId atonementType : String) (amount : F)
    (proofText txHash : Option String) : Option (AtonementPlan F) :=
  (s.store.atonements.find? fun plan => plan.planId = planId).filter fun plan =>
    match checkProof atonementType amount proofText txHash with
    | .error _ => false
    | .ok proof => (plan.record proof).isComplete

/-- A plan that is created is not ambiguous, and a plan that a proof completes was not completed. -/
def Careful (s : Atonements F) : AtonementCall F → Prop
  | .createAtonementPlan userId paapAction severityClass =>
    (prayaschittaMap severityClass : Option (Amounts F)).isSome → s.store.users.contains userId →
      Unambiguous s.store.atonements userId paapAction
  | .validateAtonementProof planId atonementType amount proofText txHash =>
    ∀ plan ∈ s.completedBy planId atonementType amount proofText txHash, plan.status = .pending

instance Careful.instDecidable (s : Atonements F) (call : AtonementCall F) :
    Decidable (s.Careful call) :=
  match call with
  | .createAtonementPlan .. => inferInstanceAs (Decidable (_ → _ → Unambiguous _ _ _))
  | .validateAtonementProof .. => Option.decidableForallMem _

/-! ### What a call does -/

/-- The plan can be paid for when it is completed. -/
structure Payable (s : Atonements F) (plan : AtonementPlan F) : Prop where
  known : s.store.users.contains plan.userId = true
  severity : plan.severityClass ≠ ""
  reward : ∃ value : F, 0 < value ∧
    atonementRewards plan.severityClass = some (plan.severityClass, value)

/-- A plan is stored. -/
def create (plan : AtonementPlan F) (appeal : Appeal) (s : Atonements F) : Atonements F :=
  { s with
    store := { s.store with
      appeals := s.store.appeals ++ [appeal]
      atonements := s.store.atonements ++ [plan] } }

/-- A proof is recorded. -/
def record (planId : String) (proof : AtonementProof F) (s : Atonements F) : Atonements F :=
  { s with
    store := { s.store with
      atonements := updateOne (fun plan => plan.planId = planId) (AtonementPlan.record proof)
        s.store.atonements } }

/-- A proof is recorded, and the plan completed and paid for. -/
def pay (planId : String) (proof : AtonementProof F) (plan : AtonementPlan F) (value : F)
    (s : Atonements F) : Atonements F where
  store :=
    { users := s.store.users.modify plan.userId (KarmaUser.incPaap plan.severityClass value)
      atonements := updateOne (fun plan => plan.planId = planId)
        (fun plan => (plan.record proof).complete) s.store.atonements
      appeals := s.store.appeals
      transactions := s.store.transactions ++ [⟨plan.userId, "atonement_completion_reward",
        "PaapTokens." ++ plan.severityClass, value, planId⟩] }
  triggered := s.triggered ++ [planId]

variable [IsStrictOrderedRing F]

/-- What is prescribed for is rewarded. -/
lemma rewards_of_prescribed {severityClass : String} {prescribed : Amounts F}
    (h : prayaschittaMap severityClass = some prescribed) : severityClass ≠ "" ∧
      ∃ value : F, 0 < value ∧ atonementRewards severityClass = some (severityClass, value) := by
  unfold prayaschittaMap at h
  split at h
  · exact ⟨by decide, 2, Nat.ofNat_pos, rfl⟩
  · exact ⟨by decide, 5, Nat.ofNat_pos, rfl⟩
  · exact ⟨by decide, 10, Nat.ofNat_pos, rfl⟩
  · exact absurd h nofun

omit [IsStrictOrderedRing F] in
/-- **Creating** is refused, or stores a plan that is pending. -/
theorem perform_create_cases (s : Atonements F) (userId paapAction severityClass : String) :
    (s.perform (.createAtonementPlan userId paapAction severityClass) = s ∧
      s.Careful (.createAtonementPlan userId paapAction severityClass)) ∨
    ∃ (prescribed : Amounts F) (appeal : Appeal), prayaschittaMap severityClass = some prescribed ∧
      s.store.users.contains userId = true ∧
      s.perform (.createAtonementPlan userId paapAction severityClass) =
        s.create ⟨s.store.nextPlanId userId paapAction, userId, paapAction, severityClass, .pending,
          prescribed, .zero, []⟩ appeal := by
  cases hsev : (prayaschittaMap severityClass : Option (Amounts F)) with
  | none =>
    refine Or.inl ⟨by simp [perform, createAtonementPlan, hsev], fun hsome => ?_⟩
    rw [hsev] at hsome
    exact absurd hsome nofun
  | some prescribed =>
    cases hknown : s.store.users.contains userId with
    | false =>
      refine Or.inl ⟨by simp [perform, createAtonementPlan, hsev, hknown], fun _ htrue => ?_⟩
      exact absurd (hknown.symm.trans htrue) nofun
    | true =>
      refine Or.inr ⟨prescribed, ⟨userId, paapAction, severityClass, "pending"⟩, rfl, rfl, ?_⟩
      simp [perform, create, createAtonementPlan, hsev, hknown]

omit [IsStrictOrderedRing F] in
/-- Completing a plan that can be paid for. -/
lemma markAtonementCompleted_eq (planId : String) {s : Atonements F} {plan : AtonementPlan F}
    (hfind : s.store.atonements.find? (fun plan => plan.planId = planId) = some plan)
    (hpay : s.Payable plan) :
    ∃ value, 0 < value ∧ (markAtonementCompleted s.store plan.userId planId).1 =
      { users := s.store.users.modify plan.userId (KarmaUser.incPaap plan.severityClass value)
        atonements := updateOne (fun plan => plan.planId = planId) AtonementPlan.complete
          s.store.atonements
        appeals := s.store.appeals
        transactions := s.store.transactions ++ [⟨plan.userId, "atonement_completion_reward",
          "PaapTokens." ++ plan.severityClass, value, planId⟩] } := by
  obtain ⟨value, hpos, hreward⟩ := hpay.reward
  have hboth : s.store.atonements.find?
      (fun p => decide (p.planId = planId) && decide (p.userId = plan.userId)) = some plan :=
    Documents.find?_and hfind (decide_eq_true rfl)
  cases hget : s.store.users.get? plan.userId with
  | none =>
    have hknown := hpay.known
    rw [Dict.contains_eq_true] at hknown
    exact absurd hknown (Dict.get?_eq_none.mp hget)
  | some user =>
    have hstep : atonementQLearningStep s.store plan.userId plan.severityClass =
        ({ s.store with
            users := s.store.users.modify plan.userId
              (KarmaUser.incPaap plan.severityClass value) },
          value, some (determineRoleFromMerit (estimatedMerit user.balances))) := by
      simp [atonementQLearningStep, hget, hreward]
    refine ⟨value, hpos, ?_⟩
    simp [markAtonementCompleted, hboth, hpay.severity, hpay.known, hstep, hpos]

omit [IsStrictOrderedRing F] in
/-- **Submitting a proof** is refused, records the proof, or records it and completes the plan. -/
theorem perform_validate_cases {s : Atonements F}
    (hpay : ∀ plan ∈ s.store.atonements, s.Payable plan)
    (planId atonementType : String) (amount : F) (proofText txHash : Option String) :
    (s.perform (.validateAtonementProof planId atonementType amount proofText txHash) = s ∧
      s.completedBy planId atonementType amount proofText txHash = none) ∨
    (∃ proof, s.perform (.validateAtonementProof planId atonementType amount proofText txHash)
        = s.record planId proof ∧
      s.completedBy planId atonementType amount proofText txHash = none) ∨
    ∃ proof plan value, 0 < value ∧
      s.store.atonements.find? (fun plan => plan.planId = planId) = some plan ∧
      s.perform (.validateAtonementProof planId atonementType amount proofText txHash)
        = s.pay planId proof plan value ∧
      s.completedBy planId atonementType amount proofText txHash = some plan := by
  cases hfind : s.store.atonements.find? fun plan => plan.planId = planId with
  | none => exact Or.inl (by simp [perform, validateAtonementProof, completedBy, hfind])
  | some plan =>
    cases hcheck : checkProof atonementType amount proofText txHash with
    | error message =>
      exact Or.inl (by simp [perform, validateAtonementProof, completedBy, hfind, hcheck])
    | ok proof =>
      have hfind' : (s.record planId proof).store.atonements.find?
          (fun plan => plan.planId = planId) = some (plan.record proof) :=
        (Documents.find?_updateOne (f := AtonementPlan.record proof) (fun _ => rfl) _).trans
          (congrArg _ hfind)
      rw [record] at hfind'
      cases hcomplete : (plan.record proof).isComplete with
      | false =>
        refine Or.inr (Or.inl ⟨proof, ?_, ?_⟩)
        · simp [perform, record, validateAtonementProof, hfind, hcheck, hfind', hcomplete]
        · simp [completedBy, hfind, hcheck, hcomplete]
      | true =>
        obtain ⟨hknown, hseverity, hreward⟩ := hpay plan (List.mem_of_find?_eq_some hfind)
        obtain ⟨value, hpos, hmark⟩ := markAtonementCompleted_eq planId
          (s := s.record planId proof) hfind' ⟨hknown, hseverity, hreward⟩
        refine Or.inr (Or.inr ⟨proof, plan, value, hpos, rfl, ?_, ?_⟩)
        · have htwice : updateOne (fun plan => plan.planId = planId) AtonementPlan.complete
              (updateOne (fun plan => plan.planId = planId) (AtonementPlan.record proof)
                s.store.atonements) = _ :=
            Documents.updateOne_updateOne (f := AtonementPlan.record proof) (fun _ => rfl) _
          rw [record] at hmark
          simp only [perform, validateAtonementProof, hfind, hcheck, hfind', hcomplete, if_true,
            hmark, htwice]
          rfl
        · simp [completedBy, hfind, hcheck, hcomplete]

/-! ### Order -/

/-- **The invariant.**  The plans of which the completion was triggered are those that are
completed, and one reward was paid for each of them. -/
structure InOrder (s : Atonements F) : Prop where
  distinct : s.planIds.Nodup
  numbered : Numbered s.store.atonements
  triggeredOnce : s.triggered.Nodup
  known : ∀ planId ∈ s.triggered, planId ∈ s.planIds
  completed : ∀ plan ∈ s.store.atonements, plan.planId ∈ s.triggered ↔ plan.status = .completed
  paid : s.store.transactions.map RewardTransaction.planId = s.triggered
  payable : ∀ plan ∈ s.store.atonements, s.Payable plan

section Step

variable {s : Atonements F} {plan : AtonementPlan F} {appeal : Appeal} {planId : String}
  {proof : AtonementProof F} {value : F}

omit [IsStrictOrderedRing F]

lemma Payable.create {p : AtonementPlan F} (h : s.Payable p) (plan : AtonementPlan F) :
    (s.create plan appeal).Payable p := ⟨h.known, h.severity, h.reward⟩

lemma InOrder.create (h : s.InOrder) (hnew : plan.planId ∉ s.planIds)
    (hid : plan.planId = planIdAfter s.store.atonements plan.userId plan.paapAction)
    (hpending : plan.status = .pending) (hpay : s.Payable plan) :
    (s.create plan appeal).InOrder := by
  have hids : (s.create plan appeal).planIds = s.planIds ++ [plan.planId] := List.map_append
  refine ⟨?_, h.numbered.append hid, h.triggeredOnce, fun id hid => ?_, fun p hp => ?_, h.paid,
    fun p hp => ?_⟩
  · rw [hids]
    exact h.distinct.append (List.nodup_singleton plan.planId) (List.disjoint_singleton.mpr hnew)
  · rw [hids]
    exact List.mem_append_left _ (h.known id hid)
  · rcases List.mem_append.mp hp with hp | hp
    · exact h.completed p hp
    · rw [List.mem_singleton.mp hp, hpending]
      exact ⟨fun hid => absurd (h.known _ hid) hnew, nofun⟩
  · rcases List.mem_append.mp hp with hp | hp
    · exact (h.payable p hp).create plan
    · rw [List.mem_singleton.mp hp]
      exact hpay.create plan

lemma Payable.record {p : AtonementPlan F} (h : s.Payable p) :
    (s.record planId proof).Payable p := ⟨h.known, h.severity, h.reward⟩

lemma InOrder.record (h : s.InOrder) : (s.record planId proof).InOrder := by
  have hids : (s.record planId proof).planIds = s.planIds :=
    Documents.map_updateOne (f := AtonementPlan.record proof) (fun _ => rfl) _
  refine ⟨?_, ?_, h.triggeredOnce, ?_, ?_, h.paid, ?_⟩
  · rw [hids]
    exact h.distinct
  · exact h.numbered.of_labels
      (Documents.map_updateOne (f := AtonementPlan.record proof) (fun _ => rfl) _)
  · rw [hids]
    exact h.known
  · exact Documents.forall_mem_updateOne h.completed fun _ hp => hp
  · exact Documents.forall_mem_updateOne (fun p hp => (h.payable p hp).record) fun _ hp =>
      ⟨hp.known, hp.severity, hp.reward⟩

lemma Payable.pay (h : s.Payable plan) (p : AtonementPlan F) :
    (s.pay planId proof p value).Payable plan := by
  refine ⟨?_, h.severity, h.reward⟩
  rw [Atonements.pay, Dict.contains_eq_true, Dict.mem_keys_modify]
  exact Dict.contains_eq_true.mp h.known

lemma InOrder.pay (h : s.InOrder)
    (hfind : s.store.atonements.find? (fun plan => plan.planId = planId) = some plan)
    (hpending : plan.status = .pending) : (s.pay planId proof plan value).InOrder := by
  have hids : (s.pay planId proof plan value).planIds = s.planIds :=
    Documents.map_updateOne (f := fun plan : AtonementPlan F => (plan.record proof).complete)
      (fun _ => rfl) _
  have hmem := List.mem_of_find?_eq_some hfind
  have hid : plan.planId = planId := by simpa using List.find?_some hfind
  have hnew : planId ∉ s.triggered := fun htriggered => by
    have hcompleted := (h.completed plan hmem).mp (hid ▸ htriggered)
    rw [hpending] at hcompleted
    exact absurd hcompleted nofun
  refine ⟨?_, ?_, ?_, fun id hmem' => ?_, fun p hp => ?_, ?_, ?_⟩
  · rw [hids]
    exact h.distinct
  · exact h.numbered.of_labels (Documents.map_updateOne
      (f := fun plan : AtonementPlan F => (plan.record proof).complete) (fun _ => rfl) _)
  · exact h.triggeredOnce.append (List.nodup_singleton _) (List.disjoint_singleton.mpr hnew)
  · rw [hids]
    rcases List.mem_append.mp hmem' with hmem' | hmem'
    · exact h.known id hmem'
    · rw [List.mem_singleton.mp hmem', ← hid]
      exact List.mem_map_of_mem hmem
  · rcases Documents.mem_updateOne_cases h.distinct hfind hp with rfl | ⟨hp, hne⟩
    · exact iff_of_true (List.mem_append_right _ (List.mem_singleton.mpr hid)) rfl
    · rw [← h.completed p hp, Atonements.pay, List.mem_append, List.mem_singleton]
      exact or_iff_left hne
  · rw [Atonements.pay, List.map_append, h.paid]
    rfl
  · exact Documents.forall_mem_updateOne (fun p hp => (h.payable p hp).pay plan) fun _ hp =>
      ⟨hp.known, hp.severity, hp.reward⟩

/-- What is paid for a plan is what its user gets. -/
lemma paapBalance_pay (hpay : s.Payable plan) (userId severityClass : String) :
    (s.pay planId proof plan value).paapBalance userId severityClass =
      s.paapBalance userId severityClass + paidTo [⟨plan.userId, "atonement_completion_reward",
        "PaapTokens." ++ plan.severityClass, value, planId⟩] userId severityClass := by
  rw [paapBalance, paapBalance, Atonements.pay, Dict.get?_modify]
  by_cases huser : userId = plan.userId
  · rw [if_pos huser]
    cases hget : s.store.users.get? userId with
    | none =>
      rw [huser] at hget
      exact absurd (Dict.contains_eq_true.mp hpay.known) (Dict.get?_eq_none.mp hget)
    | some user =>
      rw [Option.map_some, Option.bind_some, Option.bind_some, KarmaUser.incPaap, Dict.get?_set]
      by_cases hclass : severityClass = plan.severityClass
      · simp [paidTo, huser, hclass]
      · simp [paidTo, hclass, Ne.symm hclass]
  · simp [paidTo, huser, Ne.symm huser]

omit [Field F] [LinearOrder F] in
/-- A proof changes no plan but one with its id. -/
lemma planId_eq_of_updated {l : List (AtonementPlan F)} {f : AtonementPlan F → AtonementPlan F}
    {i : ℕ} {p p' : AtonementPlan F} (hp : l[i]? = some p)
    (hp' : (updateOne (fun plan => plan.planId = planId) f l)[i]? = some p') (hne : p' ≠ p) :
    planId = p.planId := by
  by_contra hid
  refine hne (Documents.eq_of_getElem?_updateOne hp hp' ?_)
  simpa using Ne.symm hid

end Step

/-- **Calling.**  A call is refused, stores a plan, records a proof, or completes a plan. -/
theorem InOrder.perform_cases {s : Atonements F} (h : s.InOrder) (call : AtonementCall F) :
    (s.perform call = s ∧ s.Careful call) ∨
    (∃ plan appeal, s.perform call = s.create plan appeal ∧
      plan.planId = planIdAfter s.store.atonements plan.userId plan.paapAction ∧
      plan.status = .pending ∧ s.Payable plan ∧ (s.Careful call ↔ plan.planId ∉ s.planIds)) ∨
    (∃ planId proof, call.Addresses planId ∧ s.perform call = s.record planId proof ∧
      s.Careful call) ∨
    ∃ planId proof plan value, call.Addresses planId ∧
      s.store.atonements.find? (fun plan => plan.planId = planId) = some plan ∧
      s.perform call = s.pay planId proof plan value ∧
      (s.Careful call ↔ plan.status = .pending) := by
  cases call with
  | createAtonementPlan userId paapAction severityClass =>
    rcases s.perform_create_cases userId paapAction severityClass with
      ⟨hr, hcareful⟩ | ⟨prescribed, appeal, hsev, hknown, hr⟩
    · exact Or.inl ⟨hr, hcareful⟩
    · obtain ⟨hne, hreward⟩ := rewards_of_prescribed hsev
      refine Or.inr (Or.inl ⟨_, appeal, hr, rfl, rfl, ⟨hknown, hne, hreward⟩, ?_⟩)
      rw [Careful, hsev, Option.isSome_some, imp_iff_right rfl, imp_iff_right hknown]
      exact h.numbered.not_mem_iff.symm
  | validateAtonementProof planId atonementType amount proofText txHash =>
    rcases perform_validate_cases h.payable planId atonementType amount proofText txHash with
      ⟨hr, hby⟩ | ⟨proof, hr, hby⟩ | ⟨proof, plan, value, -, hfind, hr, hby⟩
    · exact Or.inl ⟨hr, by simp [Careful, hby]⟩
    · exact Or.inr (Or.inr (Or.inl ⟨planId, proof, rfl, hr, by simp [Careful, hby]⟩))
    · refine Or.inr (Or.inr (Or.inr ⟨planId, proof, plan, value, rfl, hfind, hr, ?_⟩))
      simp [Careful, hby]

omit [IsStrictOrderedRing F] in
lemma InOrder.start (users : Dict String (KarmaUser F)) : (start users).InOrder where
  distinct := List.nodup_nil
  numbered := .nil
  triggeredOnce := List.nodup_nil
  known := nofun
  completed := nofun
  paid := rfl
  payable := nofun

variable {s : Atonements F} {call : AtonementCall F}

/-- **Step lemma.**  A careful call keeps the order, and does as the law asks. -/
theorem InOrder.perform (h : s.InOrder) (hcareful : s.Careful call) :
    (s.perform call).InOrder ∧ s.Respected call := by
  suffices hstep : (s.perform call).InOrder ∧
      (∀ (i : ℕ) (plan plan' : AtonementPlan F), s.store.atonements[i]? = some plan →
        (s.perform call).store.atonements[i]? = some plan' → plan' ≠ plan →
        call.Addresses plan.planId) ∧
      ∃ rewards, (s.perform call).store.transactions = s.store.transactions ++ rewards ∧
        ∀ userId severityClass, (s.perform call).paapBalance userId severityClass =
          s.paapBalance userId severityClass + paidTo rewards userId severityClass by
    obtain ⟨horder, haddressed, hrecorded⟩ := hstep
    refine ⟨horder, horder.distinct, haddressed, horder.triggeredOnce, ?_, hrecorded⟩
    rw [horder.paid]
    exact horder.triggeredOnce
  rcases h.perform_cases call with ⟨hr, -⟩ | ⟨plan, appeal, hr, hid, hpending, hpay, hiff⟩ |
    ⟨planId, proof, haddr, hr, -⟩ | ⟨planId, proof, plan, value, haddr, hfind, hr, hiff⟩
  · rw [hr]
    refine ⟨h, fun i p p' hp hp' hne => ?_, [], (List.append_nil _).symm, fun _ _ =>
      (add_zero _).symm⟩
    exact absurd (Option.some.inj (hp'.symm.trans hp)) hne
  · rw [hr]
    refine ⟨h.create (hiff.mp hcareful) hid hpending hpay, fun i p p' hp hp' hne => ?_, [],
      (List.append_nil _).symm, fun _ _ => (add_zero _).symm⟩
    obtain ⟨hi, -⟩ := List.getElem?_eq_some_iff.mp hp
    have hp'' := (List.getElem?_append_left hi).symm.trans hp'
    exact absurd (Option.some.inj (hp''.symm.trans hp)) hne
  · rw [hr]
    refine ⟨h.record, fun i p p' hp hp' hne => ?_, [], (List.append_nil _).symm, fun _ _ =>
      (add_zero _).symm⟩
    rw [← planId_eq_of_updated hp hp' hne]
    exact haddr
  · rw [hr]
    refine ⟨h.pay hfind (hiff.mp hcareful), fun i p p' hp hp' hne => ?_, _, rfl,
      paapBalance_pay (h.payable plan (List.mem_of_find?_eq_some hfind))⟩
    rw [← planId_eq_of_updated hp hp' hne]
    exact haddr

/-- A call that does as the law asks was careful. -/
lemma InOrder.careful (h : s.InOrder) (hrespected : s.Respected call) : s.Careful call := by
  rcases h.perform_cases call with ⟨-, hcareful⟩ | ⟨plan, appeal, hr, -, -, -, hiff⟩ |
    ⟨planId, proof, -, -, hcareful⟩ | ⟨planId, proof, plan, value, -, hfind, hr, hiff⟩
  · exact hcareful
  · have hdistinct := hrespected.distinct
    rw [hr, planIds, Atonements.create, List.map_append] at hdistinct
    exact hiff.mpr fun hmem => (List.nodup_append.mp hdistinct).2.2 _ hmem _ List.mem_cons_self rfl
  · exact hcareful
  · have honce := hrespected.triggeredOnce
    have hid : plan.planId = planId := by simpa using List.find?_some hfind
    rw [hr, Atonements.pay] at honce
    have hnew : planId ∉ s.triggered := fun hmem =>
      (List.nodup_append.mp honce).2.2 _ hmem _ List.mem_cons_self rfl
    rw [← hid, h.completed plan (List.mem_of_find?_eq_some hfind)] at hnew
    refine hiff.mpr ?_
    cases hstatus : plan.status with
    | pending => rfl
    | completed => exact absurd hstatus hnew

end Atonements

end QuantumFoundation.Karma
