import QuantumFoundation.Karma.Rnanubandhan
import QuantumFoundation.Lib.Run
import QuantumFoundation.Lib.Totals

/-!
# The books of the karmic debts

Neither a repayment nor a transfer looks at the status of the relationship, and a transfer does not
look at the receiver either; and what a repayment leaves is rounded.  The books are in order
throughout a run exactly if no call makes use of that, and no repayment is rounded.
-/

namespace QuantumFoundation.Karma

/-! ### Runs -/

/-- The calls. -/
inductive DebtCall (F : Type*)
  | createDebtRelationship (debtorId receiverId actionType severity : String) (amount : F)
    (description : String)
  | repayDebt (relationshipId : String) (amount : F) (repaymentMethod : String)
  | transferDebt (relationshipId newDebtorId : String)

/-- The collection, with what was created and repaid so far. -/
structure Books (ι F : Type*) where
  collection : Dict ι (Relationship F)
  created : F
  repaid : F

namespace Books

variable {ι F : Type*} [DecidableEq ι] [AddCommGroup F] [LinearOrder F]
  (objectId : String → Option ι) (round : F → F)

/-- No relationships. -/
def start : Books ι F := ⟨.empty, 0, 0⟩

/-- One call, whether it returns or raises. -/
def perform (books : Books ι F) : DebtContext ι × DebtCall F → Books ι F
  | (ctx, .createDebtRelationship debtorId receiverId actionType severity amount description) =>
    let r := Karma.createDebtRelationship ctx debtorId receiverId actionType severity amount
      description books.collection
    { books with
      collection := r.1
      created := books.created + if r.2.isOk then amount else 0 }
  | (_, .repayDebt relationshipId amount repaymentMethod) =>
    let r := Karma.repayDebt objectId round relationshipId amount repaymentMethod books.collection
    { books with
      collection := r.1
      repaid := books.repaid + if r.2.isOk then amount else 0 }
  | (ctx, .transferDebt relationshipId newDebtorId) =>
    { books with
      collection :=
        (Karma.transferDebt objectId ctx relationshipId newDebtorId books.collection).1 }

/-! ### What a call does -/

section Cases

variable {objectId} {round} {relationshipId newDebtorId repaymentMethod : String} {amount : F}
  {ctx : DebtContext ι} {collection : Dict ι (Relationship F)}

/-- The relationship that a repayment changes, if nothing refuses it. -/
def repayTarget (objectId : String → Option ι) (relationshipId : String) (amount : F)
    (collection : Dict ι (Relationship F)) : Option (ι × Relationship F) :=
  (findRelationship objectId relationshipId collection).toOption.filter fun p =>
    0 < amount ∧ amount ≤ p.2.amount

/-- The relationship that a transfer changes, if nothing refuses it. -/
def transferTarget (objectId : String → Option ι) (ctx : DebtContext ι)
    (relationshipId newDebtorId : String) (collection : Dict ι (Relationship F)) :
    Option (ι × Relationship F) :=
  (findRelationship objectId relationshipId collection).toOption.filter fun _ =>
    ctx.knows newDebtorId ∧ ¬collection.contains ctx.insertedId

omit [AddCommGroup F] [LinearOrder F] in
lemma get?_of_findRelationship {p : ι × Relationship F}
    (h : findRelationship objectId relationshipId collection = .ok p) :
    collection.get? p.1 = some p.2 := by
  rw [findRelationship] at h
  cases hoid : objectId relationshipId with
  | none => simp [hoid] at h
  | some oid =>
    cases hget : collection.get? oid with
    | none => simp [hoid, hget] at h
    | some relationship =>
      simp only [hoid, hget] at h
      rw [← Except.ok.inj h]
      exact hget

lemma insertOne_cases {δ : Type*} (insertedId : ι) (document : δ) (collection : Dict ι δ) :
    (collection.contains insertedId = true ∧
      ∃ exc, insertOne insertedId document collection = .error exc) ∨
    collection.get? insertedId = none ∧
      insertOne insertedId document collection = .ok (collection.set insertedId document) := by
  rw [insertOne]
  by_cases hmem : collection.contains insertedId = true
  · rw [if_pos hmem]
    exact Or.inl ⟨hmem, _, rfl⟩
  · rw [if_neg hmem]
    exact Or.inr ⟨Dict.get?_eq_none_of_contains hmem, rfl⟩

omit [AddCommGroup F] [LinearOrder F] in
/-- **Creating** is refused, or inserts an active relationship between two users. -/
theorem createDebtRelationship_cases (ctx : DebtContext ι)
    (debtorId receiverId actionType severity : String) (amount : F) (description : String)
    (collection : Dict ι (Relationship F)) :
    (∃ exc, createDebtRelationship ctx debtorId receiverId actionType severity amount description
      collection = (collection, .error exc)) ∨
    ∃ relationship : Relationship F, collection.get? ctx.insertedId = none ∧
      relationship.debtorId ≠ relationship.receiverId ∧ relationship.amount = amount ∧
      relationship.status = .active ∧
      createDebtRelationship ctx debtorId receiverId actionType severity amount description
        collection = (collection.set ctx.insertedId relationship,
          .ok (ctx.insertedId, relationship)) := by
  rw [createDebtRelationship]
  by_cases hsame : debtorId = receiverId
  · rw [if_pos hsame]
    exact Or.inl ⟨_, rfl⟩
  · rw [if_neg hsame]
    split_ifs
    · exact Or.inl ⟨_, rfl⟩
    · exact Or.inl ⟨_, rfl⟩
    · rcases insertOne_cases ctx.insertedId (⟨debtorId, receiverId, actionType, severity, amount,
          description, .active, []⟩ : Relationship F) collection with
        ⟨-, exc, hr⟩ | ⟨hnone, hr⟩
      · exact Or.inl ⟨exc, by simp only [hr]⟩
      · refine Or.inr ⟨⟨debtorId, receiverId, actionType, severity, amount, description, .active,
          []⟩, hnone, hsame, rfl, rfl, by simp only [hr]⟩

/-- **Repaying** is refused, or changes the relationship. -/
theorem repayDebt_cases (objectId : String → Option ι) (round : F → F) (relationshipId : String)
    (amount : F) (repaymentMethod : String) (collection : Dict ι (Relationship F)) :
    (repayTarget objectId relationshipId amount collection = none ∧
      ∃ exc, repayDebt objectId round relationshipId amount repaymentMethod collection
        = (collection, .error exc)) ∨
    ∃ oid relationship,
      repayTarget objectId relationshipId amount collection = some (oid, relationship) ∧
      collection.get? oid = some relationship ∧ 0 < amount ∧ amount ≤ relationship.amount ∧
      repayDebt objectId round relationshipId amount repaymentMethod collection
        = (collection.modify oid (Relationship.repay round amount repaymentMethod),
          .ok (relationship.repay round amount repaymentMethod)) := by
  rw [repayDebt, repayTarget]
  cases hfind : findRelationship objectId relationshipId collection with
  | error exc => exact Or.inl ⟨rfl, exc, rfl⟩
  | ok p =>
    obtain ⟨oid, relationship⟩ := p
    by_cases hpos : amount ≤ 0
    · refine Or.inl ⟨?_, _, if_pos hpos⟩
      simp [Except.toOption, hpos.not_gt]
    · by_cases hle : relationship.amount < amount
      · refine Or.inl ⟨?_, _, (if_neg hpos).trans (if_pos hle)⟩
        simp [Except.toOption, hle]
      · refine Or.inr ⟨oid, relationship, ?_, get?_of_findRelationship hfind, not_le.mp hpos,
          not_lt.mp hle, (if_neg hpos).trans (if_neg hle)⟩
        simp [Except.toOption, not_le.mp hpos, not_lt.mp hle]

omit [AddCommGroup F] [LinearOrder F] in
/-- **Transferring** is refused, or inserts a copy for the new debtor and marks the original. -/
theorem transferDebt_cases (objectId : String → Option ι) (ctx : DebtContext ι)
    (relationshipId newDebtorId : String) (collection : Dict ι (Relationship F)) :
    (transferTarget objectId ctx relationshipId newDebtorId collection = none ∧
      ∃ exc, transferDebt objectId ctx relationshipId newDebtorId collection
        = (collection, .error exc)) ∨
    ∃ oid relationship,
      transferTarget objectId ctx relationshipId newDebtorId collection
        = some (oid, relationship) ∧
      collection.get? oid = some relationship ∧ collection.get? ctx.insertedId = none ∧
      transferDebt objectId ctx relationshipId newDebtorId collection
        = ((collection.set ctx.insertedId (relationship.transferTo newDebtorId)).modify oid
            fun original => { original with status := .transferred },
          .ok (ctx.insertedId, relationship.transferTo newDebtorId)) := by
  rw [transferDebt, transferTarget]
  cases hfind : findRelationship objectId relationshipId collection with
  | error exc => exact Or.inl ⟨rfl, exc, rfl⟩
  | ok p =>
    obtain ⟨oid, relationship⟩ := p
    cases hknows : ctx.knows newDebtorId with
    | false =>
      refine Or.inl ⟨?_, _, rfl⟩
      simp [Except.toOption]
    | true =>
      rcases insertOne_cases ctx.insertedId (relationship.transferTo newDebtorId) collection with
        ⟨hmem, exc, hr⟩ | ⟨hnone, hr⟩
      · refine Or.inl ⟨?_, exc, ?_⟩
        · simp [Except.toOption, hmem]
        · simp [hr]
      · refine Or.inr ⟨oid, relationship, ?_, get?_of_findRelationship hfind, hnone, ?_⟩
        · have hmem : collection.contains ctx.insertedId = false :=
            decide_eq_false (Dict.get?_eq_none.mp hnone)
          simp [Except.toOption, hmem]
        · simp [hr]

end Cases

/-! ### Order -/

/-- What an active relationship owes. -/
def owed (_ : ι) (relationship : Relationship F) : F :=
  if relationship.status = .active then relationship.amount else 0

/-- What is owed is what was created and not repaid; no amount is negative, and nobody owes
anything to himself. -/
structure Sound (books : Books ι F) : Prop where
  conserved : books.collection.total owed = books.created - books.repaid
  nonneg : ∀ id relationship, books.collection.get? id = some relationship →
    0 ≤ relationship.amount
  distinct : ∀ id relationship, books.collection.get? id = some relationship →
    relationship.status = .active → relationship.debtorId ≠ relationship.receiverId

/-- What is repaid or transferred in the first books is the same in the second. -/
def Freezes (books books' : Books ι F) : Prop :=
  ∀ id relationship, books.collection.get? id = some relationship →
    relationship.status ≠ .active → books'.collection.get? id = some relationship

/-- A call that changes a relationship finds an active one, does not transfer it to its own
receiver, and repays an amount after which the rest need not be rounded. -/
def Lawful (books : Books ι F) : DebtContext ι × DebtCall F → Prop
  | (_, .createDebtRelationship ..) => True
  | (_, .repayDebt relationshipId amount _) =>
    ∀ p ∈ repayTarget objectId relationshipId amount books.collection,
      p.2.status = .active ∧ round (p.2.amount - amount) = p.2.amount - amount
  | (ctx, .transferDebt relationshipId newDebtorId) =>
    ∀ p ∈ transferTarget objectId ctx relationshipId newDebtorId books.collection,
      p.2.status = .active ∧ newDebtorId ≠ p.2.receiverId

/-- What is created has a positive amount. -/
def Positive : DebtContext ι × DebtCall F → Prop
  | (_, .createDebtRelationship _ _ _ _ amount _) => 0 < amount
  | _ => True

instance Lawful.instDecidable (books : Books ι F) (call : DebtContext ι × DebtCall F) :
    Decidable (books.Lawful objectId round call) :=
  match call with
  | (_, .createDebtRelationship ..) => .isTrue trivial
  | (_, .repayDebt ..) => Option.decidableForallMem _
  | (_, .transferDebt ..) => Option.decidableForallMem _

instance Positive.instDecidable (call : DebtContext ι × DebtCall F) : Decidable (Positive call) :=
  match call with
  | (_, .createDebtRelationship _ _ _ _ amount _) => inferInstanceAs (Decidable (0 < amount))
  | (_, .repayDebt ..) => .isTrue trivial
  | (_, .transferDebt ..) => .isTrue trivial

/-- What holds of every document while the books are in order. -/
structure Fair (relationship : Relationship F) : Prop where
  repaid : relationship.status = .repaid → relationship.amount = 0
  positive : relationship.status ≠ .repaid → 0 < relationship.amount
  distinct : relationship.status = .active → relationship.debtorId ≠ relationship.receiverId

/-- **The invariant.** -/
structure InOrder (books : Books ι F) : Prop where
  conserved : books.collection.total owed = books.created - books.repaid
  fair : ∀ id relationship, books.collection.get? id = some relationship → Fair relationship

lemma InOrder.start : (start : Books ι F).InOrder :=
  ⟨(sub_zero _).symm, fun _ _ h => absurd h nofun⟩

lemma InOrder.sound {books : Books ι F} (h : books.InOrder) : books.Sound where
  conserved := h.conserved
  nonneg id r hr := by
    by_cases hstatus : r.status = .repaid
    · exact ((h.fair id r hr).repaid hstatus).ge
    · exact ((h.fair id r hr).positive hstatus).le
  distinct id r hr := (h.fair id r hr).distinct

omit [AddCommGroup F] [LinearOrder F] in
lemma Freezes.refl (books : Books ι F) : Freezes books books := fun _ _ h _ => h

omit [AddCommGroup F] [LinearOrder F] in
lemma Freezes.trans (a b c : Books ι F) (h : Freezes a b) (h' : Freezes b c) : Freezes a c :=
  fun id r hr hstatus => h' id r (h id r hr hstatus) hstatus

/-- The books with a relationship created. -/
def create (id : ι) (relationship : Relationship F) (books : Books ι F) : Books ι F :=
  { books with
    collection := books.collection.set id relationship
    created := books.created + relationship.amount }

/-- The books with a relationship repaid in part. -/
def repay (round : F → F) (oid : ι) (amount : F) (repaymentMethod : String) (books : Books ι F) :
    Books ι F :=
  { books with
    collection := books.collection.modify oid (Relationship.repay round amount repaymentMethod)
    repaid := books.repaid + amount }

/-- The books with a copy of a relationship for a new debtor, and the original marked. -/
def transfer (oid : ι) (relationship : Relationship F) (id : ι) (newDebtorId : String)
    (books : Books ι F) : Books ι F :=
  { books with
    collection := (books.collection.set id (relationship.transferTo newDebtorId)).modify oid
      fun original => { original with status := .transferred } }

/-- **Calling.**  A call is refused, which is lawful; or it creates, which is lawful, repays, or
transfers. -/
theorem perform_cases (books : Books ι F) (call : DebtContext ι × DebtCall F) :
    (books.perform objectId round call = books ∧ books.Lawful objectId round call) ∨
    (∃ id r, books.perform objectId round call = books.create id r ∧
      books.Lawful objectId round call ∧ books.collection.get? id = none ∧
      r.debtorId ≠ r.receiverId ∧ r.status = .active ∧ (Positive call → 0 < r.amount)) ∨
    (∃ oid r amount repaymentMethod,
      books.perform objectId round call = books.repay round oid amount repaymentMethod ∧
      (books.Lawful objectId round call ↔
        r.status = .active ∧ round (r.amount - amount) = r.amount - amount) ∧
      books.collection.get? oid = some r ∧ 0 < amount ∧ amount ≤ r.amount) ∨
    ∃ oid r id newDebtorId,
      books.perform objectId round call = books.transfer oid r id newDebtorId ∧
      (books.Lawful objectId round call ↔ r.status = .active ∧ newDebtorId ≠ r.receiverId) ∧
      books.collection.get? oid = some r ∧ books.collection.get? id = none := by
  obtain ⟨ctx, call⟩ := call
  cases call with
  | createDebtRelationship debtorId receiverId actionType severity amount description =>
    rcases createDebtRelationship_cases ctx debtorId receiverId actionType severity amount
      description books.collection with ⟨exc, hr⟩ | ⟨r, hnone, hne, hamount, hactive, hr⟩
    · exact Or.inl ⟨by simp [perform, hr, Except.isOk, Except.toBool], trivial⟩
    · refine Or.inr (Or.inl ⟨ctx.insertedId, r, ?_, trivial, hnone, hne, hactive, ?_⟩)
      · simp [perform, create, hr, hamount, Except.isOk, Except.toBool]
      · rw [hamount]
        exact id
  | repayDebt relationshipId amount repaymentMethod =>
    rcases repayDebt_cases objectId round relationshipId amount repaymentMethod
        books.collection with ⟨htarget, exc, hr⟩ | ⟨oid, r, htarget, hget, hamount, hle, hr⟩
    · refine Or.inl ⟨by simp [perform, hr, Except.isOk, Except.toBool], fun p hp => ?_⟩
      exact absurd (htarget.symm.trans hp) nofun
    · refine Or.inr (Or.inr (Or.inl ⟨oid, r, amount, repaymentMethod, ?_, ?_, hget, hamount,
        hle⟩))
      · simp [perform, repay, hr, Except.isOk, Except.toBool]
      · simp [Lawful, htarget]
  | transferDebt relationshipId newDebtorId =>
    rcases transferDebt_cases objectId ctx relationshipId newDebtorId books.collection with
      ⟨htarget, exc, hr⟩ | ⟨oid, r, htarget, hget, hnone, hr⟩
    · refine Or.inl ⟨by simp [perform, hr], fun p hp => ?_⟩
      exact absurd (htarget.symm.trans hp) nofun
    · refine Or.inr (Or.inr (Or.inr ⟨oid, r, ctx.insertedId, newDebtorId, ?_, ?_, hget, hnone⟩))
      · simp [perform, transfer, hr]
      · simp [Lawful, htarget]

lemma Fair.repay {relationship : Relationship F} (h : Fair relationship)
    (hstatus : relationship.status = .active) (amount : F) (repaymentMethod : String) :
    Fair (relationship.repay round amount repaymentMethod) := by
  rw [Relationship.repay]
  by_cases hnew : round (relationship.amount - amount) ≤ 0
  · simp only [hnew, if_true]
    exact ⟨fun _ => rfl, fun hne => absurd rfl hne, nofun⟩
  · simp only [hnew, if_false]
    refine ⟨fun hrepaid => ?_, fun _ => not_le.mp hnew, h.distinct⟩
    rw [hstatus] at hrepaid
    exact absurd hrepaid nofun

variable [IsOrderedAddMonoid F]

omit [DecidableEq ι] in
/-- A repayment leaves what is owed after rounding. -/
lemma owed_repay (hround : ∀ x, 0 ≤ x → 0 ≤ round x) {relationship : Relationship F}
    (h : relationship.status = .active) {amount : F} (hle : amount ≤ relationship.amount)
    (repaymentMethod : String) (oid : ι) :
    owed oid (relationship.repay round amount repaymentMethod)
      = round (relationship.amount - amount) := by
  rw [owed, Relationship.repay]
  by_cases hnew : round (relationship.amount - amount) ≤ 0
  · simp only [hnew, if_true, reduceCtorEq, if_false]
    exact le_antisymm (hround _ (sub_nonneg.mpr hle)) hnew
  · simp only [hnew, if_false, h, if_true]

variable {books : Books ι F} {oid id : ι} {r : Relationship F}

omit [IsOrderedAddMonoid F] in
lemma InOrder.create (h : books.InOrder) (hnone : books.collection.get? id = none)
    (hfair : Fair r) (hactive : r.status = .active) :
    (books.create id r).InOrder ∧ Freezes books (books.create id r) := by
  refine ⟨⟨?_, fun j s hs => ?_⟩, fun j s hs _ => ?_⟩
  · show (books.collection.set id r).total owed = books.created + r.amount - books.repaid
    rw [Dict.total_set_of_get?_eq_none hnone, h.conserved, owed, if_pos hactive]
    abel
  · rw [Books.create, Dict.get?_set] at hs
    split at hs
    · rwa [← Option.some.inj hs]
    · exact h.fair j s hs
  · have hj : j ≠ id := fun hj => by
      rw [hj, hnone] at hs
      exact Option.some_ne_none s hs.symm
    rw [Books.create, Dict.get?_set, if_neg hj]
    exact hs

/-- What is owed after a repayment, and what the relationship owed before. -/
lemma total_repay (hround : ∀ x, 0 ≤ x → 0 ≤ round x)
    (hget : books.collection.get? oid = some r) (hactive : r.status = .active) {amount : F}
    (hle : amount ≤ r.amount) (repaymentMethod : String) :
    (books.repay round oid amount repaymentMethod).collection.total owed + r.amount
      = books.collection.total owed + round (r.amount - amount) := by
  have htotal :=
    Dict.total_modify (f := owed) hget (Relationship.repay round amount repaymentMethod)
  rwa [owed_repay round hround hactive hle, owed, if_pos hactive] at htotal

lemma InOrder.repay (hround : ∀ x, 0 ≤ x → 0 ≤ round x) (h : books.InOrder)
    (hget : books.collection.get? oid = some r) (hactive : r.status = .active) {amount : F}
    (hle : amount ≤ r.amount) (hexact : round (r.amount - amount) = r.amount - amount)
    (repaymentMethod : String) : (books.repay round oid amount repaymentMethod).InOrder ∧
      Freezes books (books.repay round oid amount repaymentMethod) := by
  refine ⟨⟨?_, fun j s hs => ?_⟩, fun j s hs hstatus => ?_⟩
  · have htotal := total_repay round hround hget hactive hle repaymentMethod
    rw [hexact, h.conserved] at htotal
    refine add_right_cancel (b := r.amount) (htotal.trans ?_)
    show _ = books.created - (books.repaid + amount) + r.amount
    abel
  · rw [Books.repay, Dict.get?_modify] at hs
    split at hs
    · next hj =>
      rw [hj, hget] at hs
      rw [← Option.some.inj hs]
      exact (h.fair oid r hget).repay round hactive amount repaymentMethod
    · exact h.fair j s hs
  · have hj : j ≠ oid := fun hj => by
      rw [hj, hget] at hs
      exact hstatus (Option.some.inj hs ▸ hactive)
    rw [Books.repay, Dict.get?_modify, if_neg hj]
    exact hs

section Transfer

variable (newDebtorId : String)

omit [AddCommGroup F] [LinearOrder F] [IsOrderedAddMonoid F] in
/-- The documents after a transfer. -/
lemma get?_transfer (hget : books.collection.get? oid = some r)
    (hnone : books.collection.get? id = none) (j : ι) :
    (books.transfer oid r id newDebtorId).collection.get? j =
      if j = oid then some { r with status := .transferred }
      else if j = id then some (r.transferTo newDebtorId)
      else books.collection.get? j := by
  have hne : oid ≠ id := fun heq => by
    rw [heq, hnone] at hget
    exact absurd hget nofun
  rw [transfer, Dict.get?_modify, Dict.get?_set]
  split_ifs with hj hj'
  · exact absurd (hj.symm.trans hj') hne
  · rw [hj, hget]
    rfl
  · rfl
  · rfl

omit [LinearOrder F] [IsOrderedAddMonoid F] in
/-- A transfer moves what an active relationship owes, and adds what another one does not. -/
lemma total_transfer (hget : books.collection.get? oid = some r)
    (hnone : books.collection.get? id = none) :
    (books.transfer oid r id newDebtorId).collection.total owed + owed oid r
      = books.collection.total owed + r.amount := by
  have hne : oid ≠ id := fun heq => by
    rw [heq, hnone] at hget
    exact absurd hget nofun
  have hset : (books.collection.set id (r.transferTo newDebtorId)).get? oid = some r := by
    rw [Dict.get?_set, if_neg hne, hget]
  have hzero : owed oid ({ r with status := .transferred } : Relationship F) = 0 := if_neg nofun
  refine (Dict.total_modify hset _).trans ?_
  rw [hzero, add_zero, Dict.total_set_of_get?_eq_none hnone]
  rfl

omit [IsOrderedAddMonoid F] in
lemma InOrder.transfer (h : books.InOrder) (hget : books.collection.get? oid = some r)
    (hnone : books.collection.get? id = none) (hactive : r.status = .active)
    (hne : newDebtorId ≠ r.receiverId) : (books.transfer oid r id newDebtorId).InOrder ∧
      Freezes books (books.transfer oid r id newDebtorId) := by
  have hfair := h.fair oid r hget
  have hpos : 0 < r.amount := hfair.positive (by rw [hactive]; decide)
  refine ⟨⟨?_, fun j s hs => ?_⟩, fun j s hs hstatus => ?_⟩
  · have htotal := total_transfer newDebtorId hget hnone
    rw [h.conserved, owed, if_pos hactive] at htotal
    exact add_right_cancel htotal
  · rw [get?_transfer newDebtorId hget hnone] at hs
    split_ifs at hs
    · rw [← Option.some.inj hs]
      refine ⟨fun hstatus => ?_, fun _ => hpos, fun hstatus => ?_⟩
      · cases hstatus
      · cases hstatus
    · rw [← Option.some.inj hs]
      refine ⟨fun hstatus => ?_, fun _ => hpos, fun _ => hne⟩
      cases hstatus
    · exact h.fair j s hs
  · rw [get?_transfer newDebtorId hget hnone, if_neg, if_neg, hs]
    · rintro rfl
      exact Option.some_ne_none s (hs.symm.trans hnone)
    · rintro rfl
      exact hstatus (Option.some.inj (hs.symm.trans hget) ▸ hactive)

end Transfer

/-- **Step lemma.**  A lawful call keeps the books in order, and what is settled as it is. -/
theorem InOrder.perform (hround : ∀ x, 0 ≤ x → 0 ≤ round x) (h : books.InOrder)
    {call : DebtContext ι × DebtCall F} (hpos : Positive call)
    (hlawful : books.Lawful objectId round call) :
    (books.perform objectId round call).InOrder ∧
      Freezes books (books.perform objectId round call) := by
  rcases books.perform_cases objectId round call with ⟨hr, -⟩ |
    ⟨id, r, hr, -, hnone, hne, hactive, hamount⟩ |
    ⟨oid, r, amount, method, hr, hiff, hget, -, hle⟩ |
    ⟨oid, r, id, newDebtorId, hr, hiff, hget, hnone⟩
  · rw [hr]
    exact ⟨h, .refl _⟩
  · rw [hr]
    refine h.create hnone ⟨fun hrepaid => ?_, fun _ => hamount hpos, fun _ => hne⟩ hactive
    rw [hactive] at hrepaid
    exact absurd hrepaid nofun
  · rw [hr]
    exact h.repay round hround hget (hiff.mp hlawful).1 hle (hiff.mp hlawful).2 method
  · rw [hr]
    exact h.transfer newDebtorId hget hnone (hiff.mp hlawful).1 (hiff.mp hlawful).2

end Books

end QuantumFoundation.Karma
