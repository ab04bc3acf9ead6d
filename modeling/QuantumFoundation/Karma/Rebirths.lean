import Mathlib.Algebra.Order.Field.Rat
import QuantumFoundation.Karma.Lifecycle
import QuantumFoundation.Lib.Documents
import QuantumFoundation.Lib.Run

/-!
# One rebirth for each life

Nothing in the lifecycle looks at the status of a user.  Every life ends in at most one rebirth, and
stays as it ended, exactly if no call makes use of that.
-/

namespace QuantumFoundation.Karma

/-! ### Runs -/

/-- The calls; a rebirth with the id that is generated. -/
inductive LifeCall (F : Type*)
  | updatePrarabdha (userId : String) (increment : F)
  | triggerDeathEvent (userId : String)
  | rebirthUser (userId newUserId : String)

/-- The karma that a user passed on. -/
structure Grant (F : Type*) where
  userId : String
  newUserId : String
  inheritedSanchita : F

/-- The collections, the users reborn so far, and what they passed on in this run. -/
structure Lives (F : Type*) where
  store : LifeStore F
  reborn : List String
  grants : List (Grant F)

/-- The user is marked as deceased. -/
def LifeUser.Deceased {F : Type*} (user : LifeUser F) : Prop := user.status = some "deceased"

instance {F : Type*} (user : LifeUser F) : Decidable user.Deceased :=
  inferInstanceAs (Decidable (_ = _))

/-- The Prarabdha karma is stored. -/
def LifeUser.hasPrarabdha {F : Type*} (user : LifeUser F) : Bool :=
  user.balances.any fun balances => balances.tokens.contains "PrarabdhaKarma"

namespace Lives

variable {F : Type*} [Field F] [LinearOrder F]

/-- Whoever is marked as deceased was reborn before. -/
def start (store : LifeStore F) : Lives F :=
  ⟨store, (store.users.entries.filter fun p => p.2.Deceased).map Prod.fst, []⟩

/-- One call, whether it returns or raises. -/
def perform (s : Lives F) : LifeCall F → Lives F
  | .updatePrarabdha userId increment =>
    { s with store := (Karma.updatePrarabdha userId increment s.store).1 }
  | .triggerDeathEvent userId => { s with store := (Karma.triggerDeathEvent userId s.store).1 }
  | .rebirthUser userId newUserId =>
    let r := Karma.rebirthUser userId newUserId s.store
    { store := r.1
      reborn := s.reborn ++ if r.2.isOk then [userId] else []
      grants := s.grants ++ match r.2 with
        | .ok (newUserId, inheritance, _) => [⟨userId, newUserId, inheritance.inheritedSanchita⟩]
        | .error _ => [] }

/-- The karma that descends from a life. -/
def inheritedFrom (s : Lives F) (userId : String) : F :=
  ((s.grants.filter fun g => g.userId = userId).map Grant.inheritedSanchita).sum

/-- Nobody is reborn twice, and what descends from a life was granted once. -/
structure Sound (s : Lives F) : Prop where
  once : s.reborn.Nodup
  granted : ∀ g ∈ s.grants, s.inheritedFrom g.userId = g.inheritedSanchita

/-- Whoever is deceased at first is the same later. -/
def Freezes (s s' : Lives F) : Prop :=
  ∀ userId user, s.store.users.get? userId = some user → user.Deceased →
    s'.store.users.get? userId = some user

/-- A rebirth gets a new id. -/
def Fresh (s : Lives F) : LifeCall F → Prop
  | .rebirthUser _ newUserId => newUserId ∉ s.store.users.keys
  | _ => True

/-- Nobody who is deceased is reborn, nor has the Prarabdha karma changed. -/
def Careful (s : Lives F) : LifeCall F → Prop
  | .updatePrarabdha userId increment =>
    ∀ user ∈ s.store.users.get? userId, user.Deceased → increment = 0 ∧ user.hasPrarabdha = true
  | .triggerDeathEvent _ => True
  | .rebirthUser userId _ =>
    ∀ user ∈ s.store.users.get? userId, user.balances.isSome = true → ¬user.Deceased

/-! ### What a call does -/

section Cases

variable {userId newUserId : String} {user : LifeUser F} {increment : F} {store : LifeStore F}

omit [LinearOrder F] in
/-- **Living.**  The Prarabdha karma stays as it is if nothing is added to what is stored. -/
theorem setPrarabdha_eq_self_iff : user.setPrarabdha (user.prarabdha + increment) = user ↔
    increment = 0 ∧ user.hasPrarabdha = true := by
  cases hbalances : user.balances with
  | none =>
    refine iff_of_false (fun h => ?_) fun h => ?_
    · have hsome := congrArg LifeUser.balances h
      rw [LifeUser.setPrarabdha, hbalances] at hsome
      exact absurd hsome nofun
    · rw [LifeUser.hasPrarabdha, hbalances] at h
      exact absurd h.2 nofun
  | some balances =>
    have hprarabdha : user.prarabdha = (balances.tokens.get? "PrarabdhaKarma").getD 0 := by
      rw [LifeUser.prarabdha, hbalances]
      rfl
    have hhas : user.hasPrarabdha = balances.tokens.contains "PrarabdhaKarma" := by
      rw [LifeUser.hasPrarabdha, hbalances]
      rfl
    rw [hhas, Dict.contains_eq_true]
    constructor
    · intro h
      have htokens := congrArg (fun u => u.balances.map LifeBalances.tokens) h
      simp only [LifeUser.setPrarabdha, hbalances, Option.getD_some, Option.map_some] at htokens
      have hget := Dict.get?_set_self balances.tokens "PrarabdhaKarma" (user.prarabdha + increment)
      rw [Option.some.inj htokens] at hget
      rw [hget, Option.getD_some] at hprarabdha
      exact ⟨left_eq_add.mp hprarabdha, Dict.mem_keys_of_get? hget⟩
    · rintro ⟨rfl, hmem⟩
      cases hget : balances.tokens.get? "PrarabdhaKarma" with
      | none => exact absurd hmem (Dict.get?_eq_none.mp hget)
      | some value =>
        rw [hget, Option.getD_some] at hprarabdha
        rw [add_zero, hprarabdha, LifeUser.setPrarabdha, hbalances, Option.getD_some,
          Dict.set_eq_self hget, ← hbalances]

/-- **Dying** changes no user. -/
theorem users_triggerDeathEvent (userId : String) (store : LifeStore F) :
    (Karma.triggerDeathEvent userId store).1.users = store.users := by
  rw [Karma.triggerDeathEvent]
  cases store.users.get? userId with
  | none => rfl
  | some user =>
    dsimp only
    cases calculateNetKarma user with
    | error exc => rfl
    | ok netKarma =>
      dsimp only
      cases calculateSanchitaInheritance user with
      | error exc => rfl
      | ok inheritance => rfl

/-- Karma is inherited from whoever has balances. -/
lemma calculateSanchitaInheritance_cases (user : LifeUser F) :
    (user.balances = none ∧ ∃ exc, calculateSanchitaInheritance user = .error exc) ∨
    user.balances.isSome = true ∧
      ∃ inheritance, calculateSanchitaInheritance user = .ok inheritance := by
  cases hbalances : user.balances with
  | none =>
    have hnet : calculateNetKarma user = .error ⟨.keyError, "'balances'"⟩ := by
      rw [calculateNetKarma, hbalances]
    exact Or.inl ⟨rfl, _, by rw [calculateSanchitaInheritance, hnet]⟩
  | some balances =>
    obtain ⟨netKarma, hnet⟩ : ∃ netKarma, calculateNetKarma user = .ok netKarma :=
      ⟨_, by rw [calculateNetKarma, hbalances]⟩
    exact Or.inr ⟨rfl, _, by rw [calculateSanchitaInheritance, hnet]⟩

/-- **Being reborn** is refused to whoever has no balances; otherwise there is a new user, and the
old one is marked. -/
theorem rebirthUser_cases (userId newUserId : String) (store : LifeStore F) :
    ((∃ exc, Karma.rebirthUser userId newUserId store = (store, .error exc)) ∧
      ∀ user ∈ store.users.get? userId, user.balances.isSome = false) ∨
    ∃ user inheritance, store.users.get? userId = some user ∧ user.balances.isSome = true ∧
      Karma.rebirthUser userId newUserId store =
        ({ store with
            users := (store.users.set newUserId (user.reborn userId inheritance)).modify userId
              fun user => { user with status := some "deceased" } },
          .ok (newUserId, inheritance, startingLevel inheritance.inheritedSanchita)) := by
  cases hget : store.users.get? userId with
  | none =>
    refine Or.inl ⟨⟨_, by rw [Karma.rebirthUser, hget]⟩, fun user huser => ?_⟩
    exact absurd huser (Option.not_mem_none user)
  | some user =>
    rcases calculateSanchitaInheritance_cases user with ⟨hnone, exc, hr⟩ | ⟨hsome, inheritance, hr⟩
    · refine Or.inl ⟨⟨exc, by simp only [Karma.rebirthUser, hget, hr]⟩, fun user' huser => ?_⟩
      rw [← Option.some.inj huser, hnone]
      rfl
    · exact Or.inr ⟨user, inheritance, rfl, hsome, by simp only [Karma.rebirthUser, hget, hr]⟩

end Cases

/-- **Calling.**  A call changes no user, changes the Prarabdha karma, or lets a user be reborn. -/
theorem perform_cases (s : Lives F) (call : LifeCall F) :
    ((s.perform call).store.users = s.store.users ∧ (s.perform call).reborn = s.reborn ∧
      (s.perform call).grants = s.grants ∧ s.Careful call) ∨
    (∃ userId user increment, s.store.users.get? userId = some user ∧
      (s.perform call).store.users =
        s.store.users.modify userId (LifeUser.setPrarabdha (user.prarabdha + increment)) ∧
      (s.perform call).reborn = s.reborn ∧ (s.perform call).grants = s.grants ∧
      (s.Careful call ↔ (user.Deceased → increment = 0 ∧ user.hasPrarabdha = true))) ∨
    ∃ userId newUserId user inheritance, s.store.users.get? userId = some user ∧
      (s.Fresh call → newUserId ∉ s.store.users.keys) ∧
      (s.perform call).store.users =
        (s.store.users.set newUserId (user.reborn userId inheritance)).modify userId
          (fun user => { user with status := some "deceased" }) ∧
      (s.perform call).reborn = s.reborn ++ [userId] ∧
      (s.perform call).grants =
        s.grants ++ [⟨userId, newUserId, inheritance.inheritedSanchita⟩] ∧
      (s.Careful call ↔ ¬user.Deceased) := by
  cases call with
  | updatePrarabdha userId increment =>
    cases hget : s.store.users.get? userId with
    | none =>
      refine Or.inl ⟨?_, rfl, rfl, fun user huser => ?_⟩
      · simp only [perform, Karma.updatePrarabdha, hget]
      · rw [hget] at huser
        exact absurd huser (Option.not_mem_none user)
    | some user =>
      refine Or.inr (Or.inl ⟨userId, user, increment, hget, ?_, rfl, rfl, ?_⟩)
      · simp only [perform, Karma.updatePrarabdha, hget]
      · simp [Careful, hget]
  | triggerDeathEvent userId =>
    exact Or.inl ⟨users_triggerDeathEvent userId s.store, rfl, rfl, trivial⟩
  | rebirthUser userId newUserId =>
    rcases rebirthUser_cases userId newUserId s.store with
      ⟨⟨exc, hr⟩, hnone⟩ | ⟨user, inheritance, hget, hsome, hr⟩
    · refine Or.inl ⟨by simp only [perform, hr], ?_, ?_, fun user huser htrue => ?_⟩
      · simp [perform, hr, Except.isOk, Except.toBool]
      · simp [perform, hr]
      · exact absurd ((hnone user huser).symm.trans htrue) Bool.false_ne_true
    · refine Or.inr (Or.inr ⟨userId, newUserId, user, inheritance, hget, id, ?_, ?_, ?_, ?_⟩)
      · simp only [perform, hr]
      · simp [perform, hr, Except.isOk, Except.toBool]
      · simp [perform, hr]
      · simp [Careful, hget, hsome]

/-! ### Order -/

/-- **The invariant.**  Those who were reborn are those who are marked as deceased, and what was
granted in the run was granted by them, once each. -/
structure InOrder (s : Lives F) : Prop where
  once : s.reborn.Nodup
  marked : ∀ userId, userId ∈ s.reborn ↔
    ∃ user, s.store.users.get? userId = some user ∧ user.Deceased
  granted : s.grants.map Grant.userId <:+ s.reborn

omit [Field F] [LinearOrder F] in
lemma InOrder.start (store : LifeStore F) : (start store).InOrder where
  once := store.users.nodup.sublist (List.filter_sublist.map _)
  marked userId := by
    rw [Lives.start, List.mem_map]
    constructor
    · rintro ⟨p, hp, rfl⟩
      obtain ⟨hmem, hdeceased⟩ := List.mem_filter.mp hp
      exact ⟨p.2, Dict.get?_eq_some.mpr hmem, of_decide_eq_true hdeceased⟩
    · rintro ⟨user, hget, hdeceased⟩
      exact ⟨(userId, user), List.mem_filter.mpr ⟨Dict.get?_eq_some.mp hget,
        decide_eq_true hdeceased⟩, rfl⟩
  granted := List.nil_suffix

omit [LinearOrder F] in
lemma InOrder.sound {s : Lives F} (h : s.InOrder) : s.Sound where
  once := h.once
  granted g hg := by
    have hnodup : (s.grants.map Grant.userId).Nodup := h.once.sublist h.granted.sublist
    rw [inheritedFrom, Documents.filter_key_eq_singleton hnodup hg, List.map_singleton,
      List.sum_singleton]

omit [Field F] [LinearOrder F] in
lemma Freezes.refl (s : Lives F) : Freezes s s := fun _ _ h _ => h

omit [Field F] [LinearOrder F] in
lemma Freezes.trans (s t u : Lives F) (h : Freezes s t) (h' : Freezes t u) : Freezes s u :=
  fun userId user huser hdeceased => h' userId user (h userId user huser hdeceased) hdeceased

section Step

variable {s s' : Lives F} {userId newUserId : String} {user : LifeUser F} {newPrarabdha : F}
  {inheritance : Inheritance F}

omit [Field F] [LinearOrder F] in
/-- Changing the Prarabdha karma of somebody marks nobody. -/
lemma InOrder.setPrarabdha (h : s.InOrder) (hreborn : s'.reborn = s.reborn)
    (hgrants : s'.grants = s.grants)
    (husers : s'.store.users = s.store.users.modify userId (LifeUser.setPrarabdha newPrarabdha)) :
    s'.InOrder := by
  refine ⟨hreborn ▸ h.once, fun j => ?_, hreborn ▸ hgrants ▸ h.granted⟩
  rw [hreborn, h.marked j, husers, Dict.get?_modify]
  split_ifs
  · cases s.store.users.get? j with
    | none => simp
    | some user => simp [LifeUser.Deceased, LifeUser.setPrarabdha]
  · rfl

omit [Field F] [LinearOrder F] in
lemma Freezes.setPrarabdha (hget : s.store.users.get? userId = some user)
    (husers : s'.store.users = s.store.users.modify userId (LifeUser.setPrarabdha newPrarabdha)) :
    Freezes s s' ↔ (user.Deceased → user.setPrarabdha newPrarabdha = user) := by
  constructor
  · intro h hdeceased
    have hsame := h userId user hget hdeceased
    rw [husers, Dict.get?_modify, if_pos rfl, hget] at hsame
    exact Option.some.inj hsame
  · intro h j other hother hdeceased
    rw [husers, Dict.get?_modify]
    split_ifs with hj
    · subst hj
      obtain rfl := Option.some.inj (hget.symm.trans hother)
      rw [hget, Option.map_some, h hdeceased]
    · exact hother

/-- The users after a rebirth. -/
lemma get?_rebirth (hget : s.store.users.get? userId = some user)
    (hnew : newUserId ∉ s.store.users.keys)
    (husers : s'.store.users =
      (s.store.users.set newUserId (user.reborn userId inheritance)).modify userId
        (fun user => { user with status := some "deceased" })) (j : String) :
    s'.store.users.get? j =
      if j = userId then some { user with status := some "deceased" }
      else if j = newUserId then some (user.reborn userId inheritance)
      else s.store.users.get? j := by
  have hne : userId ≠ newUserId := fun heq => hnew (heq ▸ Dict.mem_keys_of_get? hget)
  rw [husers, Dict.get?_modify, Dict.get?_set]
  split_ifs with hj hj'
  · exact absurd (hj.symm.trans hj') hne
  · rw [hj, hget]
    rfl
  · rfl
  · rfl

/-- A rebirth of somebody who is alive. -/
lemma InOrder.rebirth (h : s.InOrder) (hget : s.store.users.get? userId = some user)
    (hnew : newUserId ∉ s.store.users.keys)
    (husers : s'.store.users =
      (s.store.users.set newUserId (user.reborn userId inheritance)).modify userId
        (fun user => { user with status := some "deceased" }))
    (hreborn : s'.reborn = s.reborn ++ [userId])
    (hgrants : s'.grants = s.grants ++ [⟨userId, newUserId, inheritance.inheritedSanchita⟩])
    (halive : ¬user.Deceased) : s'.InOrder ∧ Freezes s s' := by
  have hnotmem : userId ∉ s.reborn := fun hmem => by
    obtain ⟨other, hother, hdeceased⟩ := (h.marked userId).mp hmem
    exact halive (Option.some.inj (hget.symm.trans hother) ▸ hdeceased)
  refine ⟨⟨?_, fun j => ?_, ?_⟩, fun j other hother hdeceased => ?_⟩
  · rw [hreborn]
    exact h.once.append (List.nodup_singleton userId) (List.disjoint_singleton.mpr hnotmem)
  · rw [hreborn, List.mem_append, List.mem_singleton, h.marked j, get?_rebirth hget hnew husers]
    by_cases hj : j = userId
    · simp [hj, LifeUser.Deceased]
    · by_cases hj' : j = newUserId
      · have hnone : s.store.users.get? j = none := Dict.get?_eq_none.mpr (hj' ▸ hnew)
        rw [if_neg hj, if_pos hj', hnone]
        refine iff_of_false ?_ ?_
        · rintro (⟨other, hother, -⟩ | heq)
          · exact Option.some_ne_none other hother.symm
          · exact hj heq
        · rintro ⟨other, hother, hdeceased⟩
          rw [← Option.some.inj hother] at hdeceased
          have hstatus : none = some "deceased" := hdeceased
          exact Option.some_ne_none "deceased" hstatus.symm
      · simp [hj, hj']
  · obtain ⟨earlier, heq⟩ := h.granted
    refine ⟨earlier, ?_⟩
    rw [hreborn, hgrants, List.map_append, ← List.append_assoc, heq]
    rfl
  · rw [get?_rebirth hget hnew husers, if_neg, if_neg, hother]
    · rintro rfl
      exact hnew (Dict.mem_keys_of_get? hother)
    · rintro rfl
      exact halive (Option.some.inj (hget.symm.trans hother) ▸ hdeceased)

end Step

variable {s : Lives F} {call : LifeCall F}

/-- **Step lemma.**  A careful call keeps the order, and the deceased as they are. -/
theorem InOrder.perform (h : s.InOrder) (hfresh : s.Fresh call) (hcareful : s.Careful call) :
    (s.perform call).InOrder ∧ Freezes s (s.perform call) := by
  rcases s.perform_cases call with ⟨husers, hreborn, hgrants, -⟩ |
    ⟨userId, user, increment, hget, husers, hreborn, hgrants, hiff⟩ |
    ⟨userId, newUserId, user, inheritance, hget, hnew, husers, hreborn, hgrants, hiff⟩
  · refine ⟨⟨hreborn ▸ h.once, fun j => ?_, hreborn ▸ hgrants ▸ h.granted⟩,
      fun j user huser _ => ?_⟩
    · rw [hreborn, husers]
      exact h.marked j
    · rw [husers]
      exact huser
  · refine ⟨h.setPrarabdha hreborn hgrants husers, (Freezes.setPrarabdha hget husers).mpr ?_⟩
    intro hdeceased
    exact setPrarabdha_eq_self_iff.mpr (hiff.mp hcareful hdeceased)
  · exact h.rebirth hget (hnew hfresh) husers hreborn hgrants (hiff.mp hcareful)

/-- A call after which everything is still right was careful. -/
lemma InOrder.careful (h : s.InOrder) (hsound : (s.perform call).Sound)
    (hfreezes : Freezes s (s.perform call)) : s.Careful call := by
  rcases s.perform_cases call with ⟨-, -, -, hcareful⟩ |
    ⟨userId, user, increment, hget, husers, -, -, hiff⟩ |
    ⟨userId, newUserId, user, inheritance, hget, -, -, hreborn, -, hiff⟩
  · exact hcareful
  · refine hiff.mpr fun hdeceased => setPrarabdha_eq_self_iff.mp ?_
    exact (Freezes.setPrarabdha hget husers).mp hfreezes hdeceased
  · refine hiff.mpr fun hdeceased => ?_
    have honce := hsound.once
    rw [hreborn] at honce
    exact (List.nodup_append.mp honce).2.2 _ ((h.marked userId).mpr ⟨user, hget, hdeceased⟩) _
      List.mem_cons_self rfl

/-- **One rebirth for each life.**  With new ids for the new lives, nobody is reborn twice, what
descends from a life is granted once, and whoever is deceased stays as he is, throughout a run,
exactly if nobody who is deceased is reborn or has the Prarabdha karma changed. -/
theorem reborn_once_iff (store : LifeStore F) {calls : List (LifeCall F)}
    (hfresh : Run.Along perform Fresh (start store) calls) :
    Run.Throughout perform Sound Freezes (start store) calls ↔
      Run.Along perform Careful (start store) calls :=
  Run.throughout_iff_along_of_iff (I := InOrder) Freezes.refl Freezes.trans (fun _ h => h.sound)
    (fun _ _ ha h hC => h.perform ha hC) (fun _ _ _ h => h.careful) (.start store) hfresh

/-! ### Some lives -/

instance Fresh.instDecidable (s : Lives F) (call : LifeCall F) : Decidable (s.Fresh call) :=
  match call with
  | .updatePrarabdha .. => .isTrue trivial
  | .triggerDeathEvent _ => .isTrue trivial
  | .rebirthUser .. => inferInstanceAs (Decidable (¬_))

instance Careful.instDecidable (s : Lives F) (call : LifeCall F) : Decidable (s.Careful call) :=
  match call with
  | .updatePrarabdha .. => Option.decidableForallMem _
  | .triggerDeathEvent _ => .isTrue trivial
  | .rebirthUser .. => Option.decidableForallMem _

/-- One user, with some karma. -/
def oneUser : LifeStore ℚ where
  users := .ofList [("user_a",
    ⟨some "A", some ⟨.ofList [("DharmaPoints", 100), ("SanchitaKarma", 50)], none, none⟩,
      some "learner", none, none, none, none⟩)]
  deathEvents := []

/-- Two lives one after the other. -/
def twoLives : List (LifeCall ℚ) :=
  [.updatePrarabdha "user_a" (-120), .triggerDeathEvent "user_a",
    .rebirthUser "user_a" "user_0c1d2e3f4a5b", .updatePrarabdha "user_0c1d2e3f4a5b" 7,
    .rebirthUser "user_0c1d2e3f4a5b" "user_9f8e7d6c5b4a"]

theorem twoLives_in_order : Run.Throughout perform Sound Freezes (start oneUser) twoLives :=
  (reborn_once_iff oneUser (by decide +kernel)).mpr (by decide +kernel)

/-- A user who was reborn is reborn again. -/
theorem reborn_twice : ¬Run.Throughout perform Sound Freezes (start oneUser)
    [.rebirthUser "user_a" "user_0c1d2e3f4a5b", .rebirthUser "user_a" "user_9f8e7d6c5b4a"] :=
  fun h => absurd (h [] _ [] (List.append_nil _).symm).1.once (by decide +kernel)

end Lives

end QuantumFoundation.Karma
