import QuantumFoundation.Lib.Dict

/-!
# Accounts of a delivery service

What a service that distributes messages among members owes them: of every message that was
sent, a member was excluded, was handed it, or finds it held back for later.  The accounts
stay complete when nothing that is settled is forgotten and what was held back is handed
over or kept (`Complete.of_continues`).
-/

namespace QuantumFoundation

/-- The messages sent by a service, its members, and what has become of a message for a
member. -/
structure Accounts (μ ν : Type*) where
  sent : List μ
  members : List ν
  excluded : μ → ν → Prop
  handed : μ → ν → Prop
  held : μ → ν → Prop

namespace Accounts

variable {μ ν : Type*}

/-- The message is accounted for with the member. -/
def Settles (a : Accounts μ ν) (e : μ) (n : ν) : Prop := a.excluded e n ∨ a.handed e n ∨ a.held e n

/-- Every message is accounted for with every member. -/
def Complete (a : Accounts μ ν) : Prop := ∀ e ∈ a.sent, ∀ n ∈ a.members, a.Settles e n

/-- The member `n'` of the accounts `a'` has at least what `n` has in `a`. -/
structure Keeps (a a' : Accounts μ ν) (n n' : ν) : Prop where
  excluded : ∀ e ∈ a.sent, a.excluded e n → a'.excluded e n'
  handed : ∀ e ∈ a.sent, a.handed e n → a'.handed e n'
  held : ∀ e ∈ a.sent, a.held e n → a'.handed e n' ∨ a'.held e n'

lemma Keeps.settles {a a' : Accounts μ ν} {n n' : ν} (h : a.Keeps a' n n') {e : μ}
    (he : e ∈ a.sent) (hs : a.Settles e n) : a'.Settles e n' := by
  rcases hs with hex | hha | hhe
  · exact Or.inl (h.excluded e he hex)
  · exact Or.inr (Or.inl (h.handed e he hha))
  · exact Or.inr (h.held e he hhe)

/-- **Step rule.**  Complete accounts stay complete if every member keeps what it had as some
member before, and new messages are accounted for with everyone. -/
theorem Complete.of_continues {a a' : Accounts μ ν} (h : a.Complete)
    (hmem : ∀ n' ∈ a'.members, ∃ n ∈ a.members, a.Keeps a' n n')
    (hnew : ∀ e ∈ a'.sent, e ∈ a.sent ∨ ∀ n' ∈ a'.members, a'.Settles e n') : a'.Complete := by
  intro e he n' hn'
  rcases hnew e he with hold | hall
  · obtain ⟨n, hn, hk⟩ := hmem n' hn'
    exact hk.settles hold (h e hold n hn)
  · exact hall n' hn'

/-- A member joins, for whom every message so far is accounted for. -/
lemma Complete.join {a a' : Accounts μ ν} {m : ν} (h : a.Complete) (hsent : a'.sent = a.sent)
    (hmembers : a'.members = a.members ++ [m])
    (hold : ∀ e ∈ a.sent, ∀ n ∈ a.members, a.Settles e n → a'.Settles e n)
    (hjoin : ∀ e ∈ a.sent, a'.Settles e m) : a'.Complete := by
  intro e he n hn
  rw [hsent] at he
  rw [hmembers, List.mem_append, List.mem_singleton] at hn
  rcases hn with hn | rfl
  · exact hold e he n hn (h e he n hn)
  · exact hjoin e he

/-! ### Held lists by address -/

/-- The accounts of a service that keeps what it holds back by the address of the member, and
the addresses that were excluded by the number of the message. -/
def byAddress (address : ν → String) (number : μ → ℤ) (handed : μ → ν → Prop)
    (sent : List μ) (members : List ν) (held : Dict String (List μ))
    (excludeMap : Dict ℤ (List String)) : Accounts μ ν where
  sent := sent
  members := members
  excluded message n := address n ∈ excludeMap.listAt (number message)
  handed := handed
  held message n := message ∈ held.listAt (address n)

instance [DecidableEq μ] (address : ν → String) (number : μ → ℤ)
    (handed : μ → ν → Prop) [∀ e n, Decidable (handed e n)] (sent : List μ) (members : List ν)
    (held : Dict String (List μ)) (excludeMap : Dict ℤ (List String)) :
    Decidable (byAddress address number handed sent members held excludeMap).Complete :=
  inferInstanceAs (Decidable (∀ e ∈ sent, ∀ n ∈ members, address n ∈ excludeMap.listAt (number e) ∨
    handed e n ∨ e ∈ held.listAt (address n)))

/-- A member may join if it was excluded from all messages so far. -/
lemma Complete.join_byAddress {address : ν → String} {number : μ → ℤ}
    {handed : μ → ν → Prop} {sent : List μ} {members : List ν} {held : Dict String (List μ)}
    {excludeMap : Dict ℤ (List String)} {m : ν}
    (h : (byAddress address number handed sent members held excludeMap).Complete)
    (hm : ∀ e ∈ sent, address m ∈ excludeMap.listAt (number e)) :
    (byAddress address number handed sent (members ++ [m]) (held.set (address m) [])
      excludeMap).Complete := by
  refine h.join rfl rfl (fun e he n hn hs => ?_) fun e he => Or.inl (hm e he)
  rcases hs with hex | hha | hhe
  · exact Or.inl hex
  · exact Or.inr (Or.inl hha)
  · by_cases hid : address n = address m
    · -- the held list of a member with the same address is emptied
      refine Or.inl ?_
      show address n ∈ excludeMap.listAt (number e)
      rw [hid]
      exact hm e he
    · refine Or.inr (Or.inr ?_)
      show e ∈ (held.set (address m) []).listAt (address n)
      rw [Dict.listAt_set, if_neg hid]
      exact hhe

end Accounts

end QuantumFoundation
