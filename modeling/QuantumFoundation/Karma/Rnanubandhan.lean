import Mathlib.Algebra.Order.Group.Defs
import QuantumFoundation.Python

/-!
# Karmic debts

The relationships of `rnanubandhan.py` between debtors and receivers: they are created with an
amount, repaid in parts, and transferred to other debtors.  The amounts are finite floats, which are
compared as the numbers that they are; their difference is rounded.
-/

namespace QuantumFoundation.Karma

/-! ### Relationships -/

/-- The status of a relationship. -/
inductive DebtStatus
  | active
  | repaid
  | transferred
deriving DecidableEq

/-- An entry of the repayment history. -/
structure RepaymentRecord (F : Type*) where
  amount : F
  method : String
deriving DecidableEq

/-- The document of a relationship. -/
structure Relationship (F : Type*) where
  debtorId : String
  receiverId : String
  actionType : String
  severity : String
  amount : F
  description : String
  status : DebtStatus
  repaymentHistory : List (RepaymentRecord F)
deriving DecidableEq

/-- What a call finds outside of the relationships: the users that have a document, and the id that
the driver generates for a document that is inserted. -/
structure DebtContext (ι : Type*) where
  knows : String → Bool
  insertedId : ι

section Operations

variable {ι F : Type*} [DecidableEq ι] [AddCommGroup F] [LinearOrder F]
  (objectId : String → Option ι) (round : F → F) (ctx : DebtContext ι)

/-- `insert_one`, into a collection that is keyed by the ids of its documents. -/
def insertOne {δ : Type*} (insertedId : ι) (document : δ) (collection : Dict ι δ) :
    Except Raised (Dict ι δ) :=
  if collection.contains insertedId then
    .error ⟨.other "DuplicateKeyError", "E11000 duplicate key error"⟩
  else .ok (collection.set insertedId document)

/-- `create_debt_relationship`. -/
def createDebtRelationship (debtorId receiverId actionType severity : String) (amount : F)
    (description : String) (collection : Dict ι (Relationship F)) :
    Attempt (Dict ι (Relationship F)) (ι × Relationship F) :=
  if debtorId = receiverId then
    (collection, .error ⟨.valueError, "Debtor and receiver cannot be the same user"⟩)
  else if !ctx.knows debtorId then
    (collection, .error ⟨.valueError, "Debtor user " ++ debtorId ++ " not found"⟩)
  else if !ctx.knows receiverId then
    (collection, .error ⟨.valueError, "Receiver user " ++ receiverId ++ " not found"⟩)
  else
    let relationship : Relationship F :=
      ⟨debtorId, receiverId, actionType, severity, amount, description, .active, []⟩
    match insertOne ctx.insertedId relationship collection with
    | .error exc => (collection, .error exc)
    | .ok collection => (collection, .ok (ctx.insertedId, relationship))

/-- How `repay_debt` and `transfer_debt` find the relationship. -/
def findRelationship (relationshipId : String) (collection : Dict ι (Relationship F)) :
    Except Raised (ι × Relationship F) :=
  match objectId relationshipId with
  | none => .error ⟨.valueError, "Invalid relationship ID format: " ++ relationshipId
      ++ ". Must be a valid ObjectId."⟩
  | some oid =>
    match collection.get? oid with
    | none => .error ⟨.valueError, "Relationship " ++ relationshipId ++ " not found"⟩
    | some relationship => .ok (oid, relationship)

/-- What a repayment sets in the document. -/
def Relationship.repay (amount : F) (repaymentMethod : String) (relationship : Relationship F) :
    Relationship F :=
  let newAmount := round (relationship.amount - amount)
  { relationship with
    amount := if newAmount ≤ 0 then 0 else newAmount
    status := if newAmount ≤ 0 then .repaid else relationship.status
    repaymentHistory := relationship.repaymentHistory ++ [⟨amount, repaymentMethod⟩] }

/-- `repay_debt`. -/
def repayDebt (relationshipId : String) (amount : F) (repaymentMethod : String)
    (collection : Dict ι (Relationship F)) :
    Attempt (Dict ι (Relationship F)) (Relationship F) :=
  match findRelationship objectId relationshipId collection with
  | .error exc => (collection, .error exc)
  | .ok (oid, relationship) =>
    if amount ≤ 0 then
      (collection, .error ⟨.valueError, "Repayment amount must be positive"⟩)
    else if relationship.amount < amount then
      (collection, .error ⟨.valueError, "Repayment amount cannot exceed debt amount"⟩)
    else
      (collection.modify oid (Relationship.repay round amount repaymentMethod),
        .ok (relationship.repay round amount repaymentMethod))

/-- The document that a transfer inserts. -/
def Relationship.transferTo (newDebtorId : String) (relationship : Relationship F) :
    Relationship F :=
  { relationship with
    debtorId := newDebtorId
    description := "Transferred from " ++ relationship.debtorId ++ ": " ++ relationship.description
    status := .active }

/-- `transfer_debt`. -/
def transferDebt (relationshipId newDebtorId : String) (collection : Dict ι (Relationship F)) :
    Attempt (Dict ι (Relationship F)) (ι × Relationship F) :=
  match findRelationship objectId relationshipId collection with
  | .error exc => (collection, .error exc)
  | .ok (oid, relationship) =>
    if !ctx.knows newDebtorId then
      (collection, .error ⟨.valueError, "New debtor user " ++ newDebtorId ++ " not found"⟩)
    else
      match insertOne ctx.insertedId (relationship.transferTo newDebtorId) collection with
      | .error exc => (collection, .error exc)
      | .ok collection =>
        (collection.modify oid fun original => { original with status := .transferred },
          .ok (ctx.insertedId, relationship.transferTo newDebtorId))

end Operations

end QuantumFoundation.Karma
