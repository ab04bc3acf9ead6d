import Mathlib.Algebra.Order.Field.Basic
import Mathlib.Algebra.Order.Group.Abs
import QuantumFoundation.Python

/-!
# The karmic lifecycle

The lives of `karma_lifecycle.py`: a life has balances, its death is recorded with the loka that the
net karma assigns, and its rebirth makes a new user that inherits a part of the karma and marks the
old one as deceased.
-/

namespace QuantumFoundation.Karma

/-! ### Documents -/

/-- An entry of a list of debts: a dictionary with a severity and an amount, which may be missing,
or a bare value.  A value that is not a number is `none`. -/
inductive DebtEntry (F : Type*)
  | dict (severity : Option String) (amount : Option (Option F))
  | bare (value : Option F)

/-- The debts in a document, in one of three forms. -/
inductive DebtLedger (F : Type*)
  | bySeverity (amounts : Dict String (Option F))
  | entries (debts : List (DebtEntry F))
  | scalar (value : Option F)

/-- The balances of a user. -/
structure LifeBalances (F : Type*) where
  tokens : Dict String F
  paapTokens : Option (Dict String F)
  rnanubandhan : Option (DebtLedger F)

/-- What a user inherits. -/
structure Inheritance (F : Type*) where
  inheritedSanchita : F
  carryoverPositive : F
  carryoverNegative : F
  netKarma : F

/-- The document of a user. -/
structure LifeUser (F : Type*) where
  username : Option String
  balances : Option (LifeBalances F)
  role : Option String
  meritScore : Option F
  rebirthCount : Option ℕ
  status : Option String
  /-- The previous user and the inheritance, for a user that was reborn. -/
  lastRebirth : Option (String × Inheritance F)

/-- The document of a death. -/
structure DeathEvent (F : Type*) where
  userId : String
  username : String
  loka : String
  description : String
  inheritance : Inheritance F
  finalBalances : Option (LifeBalances F)
  netKarma : F
  meritScore : F
  role : String
  rebirthCount : ℕ
  status : String

/-- A loka, with the least and the greatest net karma if it has them. -/
structure Loka (F : Type*) where
  name : String
  minKarma : Option F
  maxKarma : Option F
  description : String

/-- The collections. -/
structure LifeStore (F : Type*) where
  users : Dict String (LifeUser F)
  deathEvents : List (DeathEvent F)

section Operations

variable {F : Type*} [Field F] [LinearOrder F]

/-! ### Net karma -/

/-- The multipliers of the Paap tokens in `TOKEN_ATTRIBUTES`. -/
def paapMultiplier : String → Option F
  | "minor" => some 1
  | "medium" => some (25 / 10)
  | "maha" => some 5
  | _ => none

/-- The multipliers of the debts in `TOKEN_ATTRIBUTES`, with that of `major` as the default. -/
def debtMultiplier : String → F
  | "minor" => 1
  | "medium" => 2
  | _ => 4

/-- The amount of a debt, if it is a number, times the multiplier of its severity. -/
def debtValue (severity : String) (amount : Option F) : F :=
  match amount with
  | none => 0
  | some amount => |amount| * debtMultiplier severity

/-- The value of an entry, with the defaults of the source. -/
def DebtEntry.value : DebtEntry F → F
  | .dict severity amount => debtValue (severity.getD "major") (amount.getD (some 0))
  | .bare value => debtValue "major" value

/-- The total of the debts. -/
def DebtLedger.total : DebtLedger F → F
  | .bySeverity amounts => (amounts.entries.map fun p => debtValue p.1 p.2).sum
  | .entries debts => (debts.map DebtEntry.value).sum
  | .scalar value => debtValue "major" value

/-- `balances.get(token, 0)`. -/
def LifeBalances.get (balances : LifeBalances F) (token : String) : F :=
  (balances.tokens.get? token).getD 0

/-- `calculate_net_karma`, up to the breakdown.  The weighted score, which is not used here, raises
if there are no balances. -/
def calculateNetKarma (user : LifeUser F) : Except Raised F :=
  match user.balances with
  | none => .error ⟨.keyError, "'balances'"⟩
  | some balances =>
    let positiveKarma :=
      balances.get "DharmaPoints" + balances.get "SevaPoints" + balances.get "PunyaTokens"
    let negativeKarma := match balances.paapTokens with
      | none => 0
      | some paap => (paap.entries.map fun p => p.2 * (paapMultiplier p.1).getD 0).sum
    let rnanubandhanTotal := match balances.rnanubandhan with
      | none => 0
      | some ledger => ledger.total
    .ok (positiveKarma - negativeKarma + balances.get "DridhaKarma" * (8 / 10)
      + balances.get "AdridhaKarma" * (3 / 10) + balances.get "SanchitaKarma"
      + balances.get "PrarabdhaKarma" - rnanubandhanTotal)

/-! ### Life, death and rebirth -/

/-- The exception for a user without a document. -/
def userNotFound (userId : String) : Raised := ⟨.valueError, "User " ++ userId ++ " not found"⟩

/-- The `$set` of the Prarabdha karma. -/
def LifeUser.setPrarabdha (newPrarabdha : F) (user : LifeUser F) : LifeUser F :=
  let balances := user.balances.getD ⟨.empty, none, none⟩
  { user with
    balances := some { balances with tokens := balances.tokens.set "PrarabdhaKarma" newPrarabdha } }

/-- The current Prarabdha karma. -/
def LifeUser.prarabdha (user : LifeUser F) : F :=
  (user.balances.map fun balances => balances.get "PrarabdhaKarma").getD 0

/-- `update_prarabdha`. -/
def updatePrarabdha (userId : String) (increment : F) (store : LifeStore F) :
    Attempt (LifeStore F) F :=
  match store.users.get? userId with
  | none => (store, .error (userNotFound userId))
  | some user =>
    let newPrarabdha := user.prarabdha + increment
    ({ store with users := store.users.modify userId (LifeUser.setPrarabdha newPrarabdha) },
      .ok newPrarabdha)

/-- `calculate_sanchita_inheritance`. -/
def calculateSanchitaInheritance (user : LifeUser F) : Except Raised (Inheritance F) :=
  match calculateNetKarma user with
  | .error exc => .error exc
  | .ok netKarma =>
    let carryoverPositive := if 0 < netKarma then netKarma * (2 / 10) else 0
    let carryoverNegative := if netKarma < 0 then |netKarma| * (5 / 10) else 0
    let currentSanchita := (user.balances.map fun balances => balances.get "SanchitaKarma").getD 0
    .ok ⟨max 0 (currentSanchita + carryoverPositive - carryoverNegative), carryoverPositive,
      carryoverNegative, netKarma⟩

/-- `LOKA_THRESHOLDS`. -/
def lokaThresholds : List (Loka F) :=
  [⟨"Swarga", some 500, none, "Heavenly realm of light and bliss"⟩,
    ⟨"Mrityuloka", some 0, some 499, "Middle realm (human world) of learning and growth"⟩,
    ⟨"Antarloka", some (-200), some (-1), "Intermediate realm of reflection and transition"⟩,
    ⟨"Naraka", none, some (-201), "Lower realm of purification through suffering"⟩]

/-- The first loka whose bounds the net karma meets, or the middle realm. -/
def assignLoka (netKarma : F) : String × String :=
  match lokaThresholds.find? fun loka =>
    loka.minKarma.all (fun bound => bound ≤ netKarma) &&
      loka.maxKarma.all (fun bound => netKarma ≤ bound) with
  | some loka => (loka.name, loka.description)
  | none => ("Mrityuloka", "The mortal realm, where souls continue their journey.")

/-- `trigger_death_event`: the loka, its description and the inheritance. -/
def triggerDeathEvent (userId : String) (store : LifeStore F) :
    Attempt (LifeStore F) (String × String × Inheritance F) :=
  match store.users.get? userId with
  | none => (store, .error (userNotFound userId))
  | some user =>
    match calculateNetKarma user with
    | .error exc => (store, .error exc)
    | .ok netKarma =>
      let (assignedLoka, description) := assignLoka netKarma
      match calculateSanchitaInheritance user with
      | .error exc => (store, .error exc)
      | .ok inheritance =>
        ({ store with
            deathEvents := store.deathEvents ++ [⟨userId, user.username.getD "Unknown",
              assignedLoka, description, inheritance, user.balances, netKarma,
              user.meritScore.getD 0,
              user.role.getD "Unknown", user.rebirthCount.getD 0, "completed"⟩] },
          .ok (assignedLoka, description, inheritance))

/-- The level at which a new life starts. -/
def startingLevel (inheritedSanchita : F) : String :=
  if 300 < inheritedSanchita then "seva"
  else if 100 < inheritedSanchita then "volunteer"
  else "learner"

/-- The document of a new life. -/
def LifeUser.reborn (userId : String) (inheritance : Inheritance F) (user : LifeUser F) :
    LifeUser F where
  username := some (user.username.getD "Unknown" ++ "_" ++ toString (user.rebirthCount.getD 0 + 1))
  balances := some {
    tokens := .ofList [("DharmaPoints", 0), ("SevaPoints", 0), ("PunyaTokens", 0),
      ("SanchitaKarma", inheritance.inheritedSanchita), ("PrarabdhaKarma", 0), ("DridhaKarma", 0),
      ("AdridhaKarma", 0)]
    paapTokens := some (.ofList [("minor", 0), ("medium", 0), ("maha", 0)])
    rnanubandhan := none }
  role := some (startingLevel inheritance.inheritedSanchita)
  meritScore := none
  rebirthCount := some (user.rebirthCount.getD 0 + 1)
  status := none
  lastRebirth := some (userId, inheritance)

/-- `rebirth_user`, with the id that is generated for the new life: the id, the inheritance and the
starting level. -/
def rebirthUser (userId newUserId : String) (store : LifeStore F) :
    Attempt (LifeStore F) (String × Inheritance F × String) :=
  match store.users.get? userId with
  | none => (store, .error (userNotFound userId))
  | some user =>
    match calculateSanchitaInheritance user with
    | .error exc => (store, .error exc)
    | .ok inheritance =>
      let inserted := store.users.set newUserId (user.reborn userId inheritance)
      ({ store with
          users := inserted.modify userId fun user => { user with status := some "deceased" } },
        .ok (newUserId, inheritance, startingLevel inheritance.inheritedSanchita))

end Operations

end QuantumFoundation.Karma
