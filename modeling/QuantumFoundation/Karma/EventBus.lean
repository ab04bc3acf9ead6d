import Mathlib.Data.List.DropRight
import Mathlib.Logic.Function.Basic
import QuantumFoundation.Lib.LiveIteration
import QuantumFoundation.Lib.Run

/-!
# The event bus

`event_bus.py` with its subscribers, which may use the bus while they are called: publishing goes
over the list of the subscribers by position, and the list may change at any time.  Every subscriber
is called once, as long as nobody is taken out of the list before that position while the next one
is due, and nobody who was called comes back behind it.
-/

namespace QuantumFoundation.Karma

/-! ### The bus -/

/-- The channels. -/
inductive Channel
  | karmaFeedback
  | karmaLifecycle
  | karmaAnalytics
deriving DecidableEq

/-- A message. -/
structure EventBusMessage (π : Type*) where
  messageId : String
  channel : Channel
  payload : π
  timestamp : String
  metadata : Option π
deriving DecidableEq

/-- The attributes of a bus. -/
structure EventBus (κ π : Type*) where
  subscribers : Channel → List κ
  messageHistory : List (EventBusMessage π)
  maxHistory : ℤ

/-- `l[-n:]`, which is the whole list for zero, and without its first members if `n` is negative. -/
def lastSlice {α : Type*} (n : ℤ) (l : List α) : List α :=
  if 0 < n then l.rtake n.toNat else l.drop (-n).toNat

/-- The last members of the last members. -/
lemma rtake_rtake {α : Type*} {m n : ℕ} (h : m ≤ n) (l : List α) :
    (l.rtake n).rtake m = l.rtake m := by
  rw [List.rtake_eq_reverse_take_reverse, List.rtake_eq_reverse_take_reverse, List.reverse_reverse,
    List.take_take, Nat.min_eq_left h, List.rtake_eq_reverse_take_reverse]

/-- One more message, and the oldest one gone if there are too many. -/
lemma rtake_append_singleton {α : Type*} {n : ℤ} (hn : 0 < n) (l : List α) (a : α) :
    (if n < (l.rtake n.toNat ++ [a]).length then lastSlice n (l.rtake n.toNat ++ [a])
      else l.rtake n.toNat ++ [a]) = (l ++ [a]).rtake n.toNat := by
  obtain ⟨m, rfl⟩ : ∃ m : ℕ, n = (m + 1 : ℕ) := ⟨(n - 1).toNat, by omega⟩
  rw [Int.toNat_natCast, List.rtake_concat_succ]
  split_ifs with hlong
  · rw [lastSlice, if_pos hn, Int.toNat_natCast, List.rtake_concat_succ,
      rtake_rtake (Nat.le_succ m)]
  · have hlength : l.length - (l.length - (m + 1)) ≤ m := by
      rw [List.length_append, List.length_singleton, List.rtake, List.length_drop] at hlong
      omega
    have hshort : l.length ≤ m := by omega
    rw [List.rtake, List.rtake, Nat.sub_eq_zero_of_le hshort,
      Nat.sub_eq_zero_of_le (Nat.le_succ_of_le hshort)]

namespace EventBus

variable {κ π : Type*} [DecidableEq κ]

/-- `__init__`. -/
def init : EventBus κ π := ⟨fun _ => [], [], 1000⟩

/-- `subscribe`. -/
def subscribe (channel : Channel) (callback : κ) (bus : EventBus κ π) : EventBus κ π :=
  if callback ∈ bus.subscribers channel then bus
  else
    { bus with
      subscribers :=
        Function.update bus.subscribers channel (bus.subscribers channel ++ [callback]) }

/-- `unsubscribe`. -/
def unsubscribe (channel : Channel) (callback : κ) (bus : EventBus κ π) : EventBus κ π :=
  if callback ∈ bus.subscribers channel then
    { bus with
      subscribers :=
        Function.update bus.subscribers channel ((bus.subscribers channel).erase callback) }
  else bus

lemma subscribers_subscribe {channel : Channel} {callback : κ} {bus : EventBus κ π}
    (h : callback ∉ bus.subscribers channel) (other : Channel) :
    (bus.subscribe channel callback).subscribers other =
      if other = channel then bus.subscribers other ++ [callback] else bus.subscribers other := by
  rw [subscribe, if_neg h]
  split_ifs with heq
  · rw [heq]
    exact Function.update_self channel _ _
  · exact Function.update_of_ne heq _ _

lemma subscribers_unsubscribe {channel : Channel} {callback : κ} {bus : EventBus κ π}
    (h : callback ∈ bus.subscribers channel) (other : Channel) :
    (bus.unsubscribe channel callback).subscribers other =
      if other = channel then (bus.subscribers other).erase callback
      else bus.subscribers other := by
  rw [unsubscribe, if_pos h]
  split_ifs with heq
  · rw [heq]
    exact Function.update_self channel _ _
  · exact Function.update_of_ne heq _ _

/-- The part of `publish` that stores the message in the history. -/
def store (message : EventBusMessage π) (bus : EventBus κ π) : EventBus κ π :=
  let messageHistory := bus.messageHistory ++ [message]
  { bus with
    messageHistory :=
      if bus.maxHistory < messageHistory.length then lastSlice bus.maxHistory messageHistory
      else messageHistory }

end EventBus

/-! ### Publishing -/

/-- A call of `publish`: its message, and its iteration over the subscribers. -/
structure Publication (κ π : Type*) where
  message : EventBusMessage π
  iteration : Iteration κ

/-- What is done with the bus, by the subscriber that is being called or from outside: the last one
is that a subscriber returns or raises. -/
inductive BusAction (κ π : Type*)
  | subscribe (channel : Channel) (callback : κ)
  | unsubscribe (channel : Channel) (callback : κ)
  | publish (message : EventBusMessage π)
  | finish

/-- A bus with the calls of `publish` that are under way, of which the first is the innermost, those
that have returned, and the messages published so far. -/
structure BusRun (κ π : Type*) where
  bus : EventBus κ π
  underway : List (Publication κ π)
  returned : List (Publication κ π)
  published : List (EventBusMessage π)

namespace BusRun

variable {κ π : Type*} [DecidableEq κ]

/-- A new bus, with a setting of its public `max_history`. -/
def start (maxHistory : ℤ) : BusRun κ π := ⟨{ EventBus.init with maxHistory }, [], [], []⟩

/-- The innermost `publish` calls the subscriber at its position, or returns if there is none. -/
def advance (s : BusRun κ π) : BusRun κ π :=
  match s.underway with
  | [] => s
  | p :: underway =>
    match (s.bus.subscribers p.message.channel)[p.iteration.index]? with
    | none => { s with underway := underway, returned := s.returned ++ [p] }
    | some callback =>
      { s with underway := { p with iteration := p.iteration.deliver callback } :: underway }

/-- The iteration of a `publish` on a channel of which a subscriber is taken off. -/
def excuse (channel : Channel) (callback : κ) (p : Publication κ π) : Publication κ π :=
  if p.message.channel = channel then { p with iteration := p.iteration.excuse callback } else p

/-- One action. -/
def perform (s : BusRun κ π) : BusAction κ π → BusRun κ π
  | .subscribe channel callback => { s with bus := s.bus.subscribe channel callback }
  | .unsubscribe channel callback =>
    { s with
      bus := s.bus.unsubscribe channel callback
      underway :=
        if callback ∈ s.bus.subscribers channel then s.underway.map (excuse channel callback)
        else s.underway }
  | .publish message =>
    advance { s with
      bus := s.bus.store message
      underway := ⟨message, .start (s.bus.subscribers message.channel)⟩ :: s.underway
      published := s.published ++ [message] }
  | .finish => s.advance

/-- Nobody who stands before the position of a `publish` on the channel is unsubscribed if the one
at the position is due, and nobody who was due, and so was called, subscribes again at the position
or later. -/
def Careful (s : BusRun κ π) : BusAction κ π → Prop
  | .subscribe channel callback => callback ∉ s.bus.subscribers channel →
    ∀ p ∈ s.underway, p.message.channel = channel → p.iteration.Due callback →
      (s.bus.subscribers channel).length < p.iteration.index
  | .unsubscribe channel callback =>
    ∀ p ∈ s.underway, p.message.channel = channel →
      callback ∈ (s.bus.subscribers channel).take p.iteration.index →
        ∀ next ∈ (s.bus.subscribers channel)[p.iteration.index]?, ¬p.iteration.Due next
  | .publish _ => True
  | .finish => True

instance Careful.instDecidable (s : BusRun κ π) (action : BusAction κ π) :
    Decidable (s.Careful action) :=
  match action with
  | .subscribe .. => inferInstanceAs (Decidable (¬_ → ∀ _ ∈ _, _ → _ → _))
  | .unsubscribe .. => inferInstanceAs (Decidable (∀ _ ∈ _, _ → _ → _))
  | .publish _ => .isTrue trivial
  | .finish => .isTrue trivial

/-! ### The history -/

/-- **The invariant of the history.**  It holds the last messages that were published, as many as
the setting allows. -/
structure Recent (maxHistory : ℤ) (s : BusRun κ π) : Prop where
  bound : s.bus.maxHistory = maxHistory
  recent : s.bus.messageHistory = s.published.rtake maxHistory.toNat

variable {maxHistory : ℤ}

omit [DecidableEq κ] in
lemma Recent.start : (start maxHistory : BusRun κ π).Recent maxHistory :=
  ⟨rfl, (List.rtake_nil _).symm⟩

omit [DecidableEq κ] in
lemma Recent.advance {s : BusRun κ π} (h : s.Recent maxHistory) :
    s.advance.Recent maxHistory := by
  rw [BusRun.advance]
  cases s.underway with
  | nil => exact h
  | cons p underway =>
    dsimp only
    cases (s.bus.subscribers p.message.channel)[p.iteration.index]? with
    | none => exact ⟨h.bound, h.recent⟩
    | some callback => exact ⟨h.bound, h.recent⟩

/-- **Step lemma** of the history. -/
theorem Recent.perform {s : BusRun κ π} (hpos : 0 < maxHistory) (h : s.Recent maxHistory)
    (action : BusAction κ π) : (s.perform action).Recent maxHistory := by
  cases action with
  | subscribe channel callback =>
    rw [BusRun.perform, EventBus.subscribe]
    split_ifs
    · exact ⟨h.bound, h.recent⟩
    · exact ⟨h.bound, h.recent⟩
  | unsubscribe channel callback =>
    rw [BusRun.perform, EventBus.unsubscribe]
    split_ifs
    · exact ⟨h.bound, h.recent⟩
    · exact ⟨h.bound, h.recent⟩
  | publish message =>
    rw [BusRun.perform]
    refine Recent.advance ⟨h.bound, ?_⟩
    rw [EventBus.store, h.recent, h.bound]
    dsimp only
    exact rtake_append_singleton hpos s.published message
  | finish => exact h.advance

/-! ### Delivery -/

/-- **The invariant of the delivery.**  No channel has a subscriber twice, every `publish` under way
stands between the subscribers it has called and those that are waiting, and every one that has
returned has delivered its message. -/
structure Delivers (s : BusRun κ π) : Prop where
  nodup : ∀ channel, (s.bus.subscribers channel).Nodup
  aligned : ∀ p ∈ s.underway, p.iteration.Aligned (s.bus.subscribers p.message.channel)
  exact : ∀ p ∈ s.returned, p.iteration.Exact

lemma Delivers.start : (start maxHistory : BusRun κ π).Delivers :=
  ⟨fun _ => List.nodup_nil, nofun, nofun⟩

/-- The innermost `publish` goes on. -/
lemma Delivers.advance {s : BusRun κ π} (h : s.Delivers) : s.advance.Delivers := by
  rw [BusRun.advance]
  cases hunderway : s.underway with
  | nil => exact h
  | cons p underway =>
    have haligned := h.aligned
    rw [hunderway, List.forall_mem_cons] at haligned
    dsimp only
    cases hnext : (s.bus.subscribers p.message.channel)[p.iteration.index]? with
    | none =>
      refine ⟨h.nodup, haligned.2, List.forall_mem_append.mpr ⟨h.exact, ?_⟩⟩
      exact List.forall_mem_singleton.mpr (haligned.1.exact (List.getElem?_eq_none_iff.mp hnext))
    | some callback =>
      refine ⟨h.nodup, List.forall_mem_cons.mpr ⟨?_, haligned.2⟩, h.exact⟩
      exact haligned.1.deliver (h.nodup _) hnext

lemma Delivers.subscribe {s : BusRun κ π} (h : s.Delivers) {channel : Channel} {callback : κ}
    (hcareful : s.Careful (.subscribe channel callback)) :
    (s.perform (.subscribe channel callback)).Delivers := by
  by_cases hmem : callback ∈ s.bus.subscribers channel
  · rw [perform, EventBus.subscribe, if_pos hmem]
    exact h
  · have hsubscribers := EventBus.subscribers_subscribe hmem
    refine ⟨fun other => ?_, fun p hp => ?_, h.exact⟩
    · rw [perform, hsubscribers]
      split_ifs with hother
      · rw [hother]
        exact (h.nodup channel).append (List.nodup_singleton callback)
          (List.disjoint_singleton.mpr hmem)
      · exact h.nodup other
    · rw [perform, hsubscribers]
      split_ifs with hchannel
      · refine (h.aligned p hp).append fun hdue => ?_
        rw [hchannel]
        exact hcareful hmem p hp hchannel hdue
      · exact h.aligned p hp

lemma Delivers.unsubscribe {s : BusRun κ π} (h : s.Delivers) {channel : Channel} {callback : κ}
    (hcareful : s.Careful (.unsubscribe channel callback)) :
    (s.perform (.unsubscribe channel callback)).Delivers := by
  by_cases hmem : callback ∈ s.bus.subscribers channel
  · have hsubscribers := EventBus.subscribers_unsubscribe hmem
    rw [perform, if_pos hmem]
    refine ⟨fun other => ?_, fun p' hp' => ?_, h.exact⟩
    · rw [hsubscribers]
      split_ifs
      · exact (h.nodup other).erase callback
      · exact h.nodup other
    · obtain ⟨p, hp, rfl⟩ := List.mem_map.mp hp'
      rw [excuse, hsubscribers]
      by_cases hchannel : p.message.channel = channel
      · subst hchannel
        rw [if_pos rfl, if_pos rfl]
        exact (h.aligned p hp).erase hmem (hcareful p hp rfl)
      · rw [if_neg hchannel, if_neg hchannel]
        exact h.aligned p hp
  · rw [perform, EventBus.unsubscribe, if_neg hmem, if_neg hmem]
    exact h

/-- **Step lemma** of the delivery. -/
theorem Delivers.perform {s : BusRun κ π} (h : s.Delivers) {action : BusAction κ π}
    (hcareful : s.Careful action) : (s.perform action).Delivers := by
  cases action with
  | subscribe channel callback => exact h.subscribe hcareful
  | unsubscribe channel callback => exact h.unsubscribe hcareful
  | publish message =>
    rw [BusRun.perform]
    exact Delivers.advance ⟨h.nodup, List.forall_mem_cons.mpr ⟨.start _, h.aligned⟩, h.exact⟩
  | finish => exact h.advance

/-- **Publishing.**  Whatever the subscribers do while they are called, the history holds the last
messages that were published, in order, as many as a positive setting allows; and if they are
careful, every `publish` that has returned has called everybody once who was subscribed when it
began and was not unsubscribed before. -/
theorem publish_delivers_once (maxHistory : ℤ) (actions : List (BusAction κ π)) :
    (0 < maxHistory →
      (Run.exec perform (start maxHistory : BusRun κ π) actions).bus.messageHistory =
        (Run.exec perform (start maxHistory : BusRun κ π) actions).published.rtake
          maxHistory.toNat) ∧
    (Run.Along perform Careful (start maxHistory : BusRun κ π) actions →
      ∀ p ∈ (Run.exec perform (start maxHistory : BusRun κ π) actions).returned,
        p.iteration.Exact) := by
  refine ⟨fun hpos => ?_, fun hcareful => ?_⟩
  · have hrecent : (Run.exec perform (start maxHistory : BusRun κ π) actions).Recent maxHistory :=
      Run.invariant_of_forall (fun _ action h => h.perform hpos action) .start actions
    exact hrecent.recent
  · have hdelivers : (Run.exec perform (start maxHistory : BusRun κ π) actions).Delivers :=
      Run.invariant (fun _ _ h hstep => h.perform hstep) .start hcareful
    exact hdelivers.exact

/-- A message on a channel. -/
def messageOn (channel : Channel) : EventBusMessage Unit := ⟨"", channel, (), "", none⟩

/-- The first of three subscribers takes off the last one and publishes on another channel, and the
second one takes off itself. -/
def carefulSubscribers : List (BusAction ℕ Unit) :=
  [.subscribe .karmaFeedback 1, .subscribe .karmaFeedback 2, .subscribe .karmaFeedback 3,
    .subscribe .karmaAnalytics 4, .publish (messageOn .karmaFeedback),
    .unsubscribe .karmaFeedback 3, .publish (messageOn .karmaAnalytics), .finish, .finish,
    .unsubscribe .karmaFeedback 2, .finish]

/-- The theorem at these subscribers: both messages are delivered, and the second one is kept. -/
theorem carefulSubscribers_called :
    (Run.exec perform (start 1) carefulSubscribers).bus.messageHistory
      = [messageOn .karmaAnalytics] ∧
    (Run.exec perform (start 1) carefulSubscribers).returned.length = 2 ∧
      ∀ p ∈ (Run.exec perform (start 1) carefulSubscribers).returned, p.iteration.Exact :=
  ⟨((publish_delivers_once 1 carefulSubscribers).1 (by decide)).trans (by decide), by decide,
    (publish_delivers_once 1 carefulSubscribers).2 (by decide)⟩

/-- The first of two subscribers takes off itself, and the second one is never called. -/
theorem next_subscriber_skipped :
    ¬∀ p ∈ (Run.exec perform (start 1000 : BusRun ℕ Unit)
        [.subscribe .karmaLifecycle 1, .subscribe .karmaLifecycle 2,
          .publish (messageOn .karmaLifecycle), .unsubscribe .karmaLifecycle 1, .finish]).returned,
      p.iteration.Exact := by
  decide

end BusRun

end QuantumFoundation.Karma
