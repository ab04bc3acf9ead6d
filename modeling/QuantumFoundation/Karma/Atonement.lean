import Mathlib.Algebra.Order.Field.Basic
import QuantumFoundation.Lib.Documents
import QuantumFoundation.Python

/-!
# Atonement

The atonement plans of `atonement.py`: a plan is made for an action of a user, its progress is the
sum of the proofs submitted for it, and when the progress meets the requirements the user is paid a
reward in Paap tokens.
-/

namespace QuantumFoundation.Karma

open Documents (updateOne)

/-! ### Documents -/

/-- The kinds of atonement. -/
inductive AtonementType
  | jap
  | tap
  | bhakti
  | daan
deriving DecidableEq

/-- The kind with a name. -/
def AtonementType.ofName? : String → Option AtonementType
  | "Jap" => some .jap
  | "Tap" => some .tap
  | "Bhakti" => some .bhakti
  | "Daan" => some .daan
  | _ => none

/-- An amount of each kind. -/
structure Amounts (F : Type*) where
  jap : F
  tap : F
  bhakti : F
  daan : F
deriving DecidableEq

/-- A proof that was accepted. -/
structure AtonementProof (F : Type*) where
  type : AtonementType
  amount : F
  status : String
  text : Option String
  txHash : Option String
deriving DecidableEq

/-- The status of a plan. -/
inductive PlanStatus
  | pending
  | completed
deriving DecidableEq

/-- The document of a plan. -/
structure AtonementPlan (F : Type*) where
  planId : String
  userId : String
  paapAction : String
  severityClass : String
  status : PlanStatus
  requirements : Amounts F
  progress : Amounts F
  proofs : List (AtonementProof F)
deriving DecidableEq

/-- The document of an appeal. -/
structure Appeal where
  userId : String
  paapAction : String
  severityClass : String
  status : String
deriving DecidableEq

/-- The document of a user: its balances, of which those of the Paap tokens are kept by class. -/
structure KarmaUser (F : Type*) where
  role : Option String
  balances : Dict String F
  paapTokens : Dict String F

/-- The document of a reward. -/
structure RewardTransaction (F : Type*) where
  userId : String
  type : String
  token : String
  amount : F
  planId : String
deriving DecidableEq

/-- The collections. -/
structure KarmaStore (F : Type*) where
  users : Dict String (KarmaUser F)
  atonements : List (AtonementPlan F)
  appeals : List Appeal
  transactions : List (RewardTransaction F)

/-! ### Tables -/

section Tables

variable {F : Type*} [Field F]

/-- `PRAYASCHITTA_MAP`. -/
def prayaschittaMap : String → Option (Amounts F)
  | "minor" => some ⟨108, 1, 1, 10⟩
  | "medium" => some ⟨1008, 3, 3, 50⟩
  | "maha" => some ⟨10008, 7, 7, 100⟩
  | _ => none

/-- `ATONEMENT_REWARDS`: the class of the Paap tokens, and their number. -/
def atonementRewards : String → Option (String × F)
  | "minor" => some ("minor", 2)
  | "medium" => some ("medium", 5)
  | "maha" => some ("maha", 10)
  | _ => none

/-- `ROLE_SEQUENCE`. -/
def roleSequence : List String := ["learner", "volunteer", "seva", "guru"]

/-- `LEVEL_THRESHOLDS`, in the order of the thresholds. -/
def levelThresholds : List (String × F) :=
  [("learner", 0), ("volunteer", 50), ("seva", 200), ("guru", 500)]

end Tables

section Operations

variable {F : Type*} [Field F] [LinearOrder F]

/-! ### Plans -/

namespace Amounts

/-- No progress. -/
def zero : Amounts F := ⟨0, 0, 0, 0⟩

/-- The `$inc` of one kind. -/
def inc (type : AtonementType) (amount : F) (amounts : Amounts F) : Amounts F :=
  match type with
  | .jap => { amounts with jap := amounts.jap + amount }
  | .tap => { amounts with tap := amounts.tap + amount }
  | .bhakti => { amounts with bhakti := amounts.bhakti + amount }
  | .daan => { amounts with daan := amounts.daan + amount }

/-- The check that no kind falls short of what is required. -/
def meets (progress required : Amounts F) : Bool :=
  !decide (progress.jap < required.jap) && !decide (progress.tap < required.tap) &&
    !decide (progress.bhakti < required.bhakti) && !decide (progress.daan < required.daan)

end Amounts

namespace AtonementPlan

/-- What an accepted proof changes. -/
def record (proof : AtonementProof F) (plan : AtonementPlan F) : AtonementPlan F :=
  { plan with
    progress := plan.progress.inc proof.type proof.amount
    proofs := plan.proofs ++ [proof] }

/-- What the completion changes. -/
def complete (plan : AtonementPlan F) : AtonementPlan F := { plan with status := .completed }

/-- The check for completion. -/
def isComplete (plan : AtonementPlan F) : Bool := plan.progress.meets plan.requirements

end AtonementPlan

variable (store : KarmaStore F)

/-- The id of the next plan, from the user, the action and the number of the user's plans. -/
def KarmaStore.nextPlanId (userId paapAction : String) : String :=
  let existingPlans := store.atonements.filter fun plan => plan.userId = userId
  userId ++ "_" ++ paapAction ++ "_" ++ toString existingPlans.length

/-- `create_atonement_plan`. -/
def createAtonementPlan (userId paapAction severityClass : String) :
    KarmaStore F × Option (AtonementPlan F) :=
  match prayaschittaMap severityClass with
  | none => (store, none)
  | some prescribed =>
    if !store.users.contains userId then (store, none)
    else
      let plan : AtonementPlan F :=
        ⟨store.nextPlanId userId paapAction, userId, paapAction, severityClass, .pending,
          prescribed, .zero, []⟩
      ({ store with
          appeals := store.appeals ++ [⟨userId, paapAction, severityClass, "pending"⟩]
          atonements := store.atonements ++ [plan] },
        some plan)

/-! ### Rewards -/

/-- The estimate of the merit from the balances. -/
def estimatedMerit (balances : Dict String F) : F :=
  (balances.get? "DharmaPoints").getD 0 * 1 + (balances.get? "SevaPoints").getD 0 * (12 / 10)
    + (balances.get? "PunyaTokens").getD 0 * 3

/-- `determine_role_from_merit`. -/
def determineRoleFromMerit (score : F) : String :=
  levelThresholds.foldl (fun current r => if r.2 ≤ score then r.1 else current) "learner"

/-- The `$inc` of the Paap tokens of a class. -/
def KarmaUser.incPaap (severityClass : String) (value : F) (user : KarmaUser F) : KarmaUser F :=
  { user with
    paapTokens := user.paapTokens.set severityClass
      ((user.paapTokens.get? severityClass).getD 0 + value) }

/-- `atonement_q_learning_step`: the reward, and the next role. -/
def atonementQLearningStep (userId severityClass : String) :
    KarmaStore F × F × Option String :=
  match store.users.get? userId with
  | none => (store, 0, none)
  | some user =>
    let state := (user.role.filter fun role => roleSequence.contains role).getD "learner"
    match atonementRewards severityClass with
    | none => (store, 0, some state)
    | some (paapSeverity, rewardValue) =>
      ({ store with
          users := store.users.modify userId (KarmaUser.incPaap paapSeverity rewardValue) },
        rewardValue, some (determineRoleFromMerit (estimatedMerit user.balances)))

/-- `mark_atonement_completed`. -/
def markAtonementCompleted (userId atonementPlanId : String) : KarmaStore F × Bool :=
  match store.atonements.find? fun plan =>
    plan.planId = atonementPlanId && plan.userId = userId with
  | none => (store, false)
  | some atonement =>
    if atonement.severityClass = "" then (store, false)
    else if !store.users.contains userId then (store, false)
    else
      let (store, rewardValue, _) := atonementQLearningStep store userId atonement.severityClass
      let transactions :=
        if 0 < rewardValue then
          store.transactions ++ [⟨userId, "atonement_completion_reward",
            "PaapTokens." ++ atonement.severityClass, rewardValue, atonementPlanId⟩]
        else store.transactions
      ({ store with
          transactions := transactions
          atonements := updateOne (fun plan => plan.planId = atonementPlanId)
            AtonementPlan.complete store.atonements },
        true)

/-! ### Proofs -/

/-- The checks of a proof, and the record of it. -/
def checkProof (atonementType : String) (amount : F) (proofText txHash : Option String) :
    Except String (AtonementProof F) :=
  match AtonementType.ofName? atonementType with
  | none => .error "Invalid atonement type"
  | some type =>
    if type = .daan ∧ (txHash.filter fun tx => tx ≠ "") = none then
      .error "Transaction hash required for Daan"
    else
      .ok ⟨type, amount, "verified", proofText.filter fun text => text ≠ "",
        txHash.filter fun tx => tx ≠ ""⟩

/-- `validate_atonement_proof`: whether the proof was accepted, a message, and the plan. -/
def validateAtonementProof (planId atonementType : String) (amount : F)
    (proofText txHash : Option String) :
    Attempt (KarmaStore F) (Bool × String × Option (AtonementPlan F)) :=
  match store.atonements.find? fun plan => plan.planId = planId with
  | none => (store, .ok (false, "Atonement plan not found", none))
  | some plan =>
    match checkProof atonementType amount proofText txHash with
    | .error message => (store, .ok (false, message, some plan))
    | .ok proof =>
      let store := { store with
        atonements := updateOne (fun plan => plan.planId = planId)
          (AtonementPlan.record proof) store.atonements }
      match store.atonements.find? fun plan => plan.planId = planId with
      | none => (store, .error ⟨.typeError, "'NoneType' object is not subscriptable"⟩)
      | some plan =>
        let store :=
          if plan.isComplete then (markAtonementCompleted store plan.userId planId).1 else store
        (store, .ok (true, "Atonement progress updated", some plan))

end Operations

end QuantumFoundation.Karma
