import QuantumFoundation.Lib.NumberedLog
import QuantumFoundation.Lib.Run
import QuantumFoundation.Quantum.Timeline

/-!
# The history of a timeline

Over every run the timeline only grows: events, links and markers stay, and the seal only moves
forwards.  The ids of the events are `1, 2, …` as long as no event without a type is given to
`record`: such an event is refused, but its id is used up, and from then on every event leaves a
gap behind it.
-/

namespace QuantumFoundation

variable {π : Type*}

/-- The link of a compensation to its target. -/
def CausalLink.Compensates (link : CausalLink) : Prop :=
  "COMPENSATES:".toList <+: link.mechanism.toList

/-- A call on a timeline. -/
inductive TimelineCall (π : Type*)
  | record (eventType : String) (payload : π) (isCompensation : Bool)
  | compensate (targetCausalId : ℤ) (compensationPayload : π) (reason : String)
  | sealUpTo (upToCausalId : ℤ) (reason : String)

/-- The call does not record an event without a type. -/
def TimelineCall.Typed : TimelineCall π → Prop
  | .record eventType _ _ => eventType ≠ ""
  | _ => True

namespace CausalTimeline

/-- The timeline after a call, which may have raised. -/
def perform (t : CausalTimeline π) : TimelineCall π → CausalTimeline π
  | .record eventType payload isCompensation => (t.record eventType payload isCompensation).1
  | .compensate targetCausalId compensationPayload reason =>
    (t.compensate targetCausalId compensationPayload reason).1
  | .sealUpTo upToCausalId reason => (t.sealUpTo upToCausalId reason).1

/-- **What a call does**: nothing; or the clock ticks, and the event is refused for want of a type;
or the next event is appended, perhaps with a link to it; or the seal moves onward to an event. -/
theorem perform_cases {t : CausalTimeline π}
    (hindex : ∀ k, t.eventIndex.contains k = true → k ≤ t.clock.value) (c : TimelineCall π) :
    (c.Typed ∧ t.perform c = t) ∨ (¬c.Typed ∧ t.perform c = { t with clock := t.clock.tick }) ∨
      (c.Typed ∧ ∃ event, t.IsNext event ∧ (t.perform c = t.append event ∨
        ∃ link, link.effectId = event.causalId ∧ t.perform c = t.appendLinked event link)) ∨
      c.Typed ∧ ∃ ponr : PointOfNoReturn, t.sealedUpTo < ponr.sealedAtCausalId ∧
        t.eventIndex.contains ponr.sealedAtCausalId = true ∧
        t.perform c = { t with
          ponrMarkers := t.ponrMarkers ++ [ponr]
          sealedUpTo := ponr.sealedAtCausalId } := by
  cases c with
  | record eventType payload isCompensation =>
    rw [perform]
    rcases record_cases eventType payload isCompensation t with
      ⟨htype, exc, hr⟩ | ⟨htype, event, hr, hnext, -⟩
    · rw [hr]
      exact Or.inr (Or.inl ⟨not_not.mpr htype, rfl⟩)
    · rw [hr]
      exact Or.inr (Or.inr (Or.inl ⟨htype, event, hnext, Or.inl rfl⟩))
  | compensate target payload reason =>
    rw [perform]
    rcases compensate_cases hindex target payload reason with
      ⟨exc, hr⟩ | ⟨event, link, -, -, hr, hnext, -, -, -, -, heffect, -⟩
    · rw [hr]
      exact Or.inl ⟨trivial, rfl⟩
    · rw [hr]
      exact Or.inr (Or.inr (Or.inl ⟨trivial, event, hnext, Or.inr ⟨link, heffect, rfl⟩⟩))
  | sealUpTo upTo reason =>
    rw [perform]
    rcases sealUpTo_cases upTo reason t with ⟨exc, hr⟩ | ⟨ponr, hlt, hmem, rfl, hr⟩
    · rw [hr]
      exact Or.inl ⟨trivial, rfl⟩
    · rw [hr]
      exact Or.inr (Or.inr (Or.inr ⟨trivial, ponr, hlt, hmem, rfl⟩))

/-! ### What holds of every timeline -/

/-- The id of the last marker, or -1. -/
def lastSealed (t : CausalTimeline π) : ℤ :=
  (t.ponrMarkers.getLast?.map (·.sealedAtCausalId)).getD (-1)

/-- The clock is not behind the events, the index finds them, and what is sealed are events. -/
structure WellFormed (t : CausalTimeline π) : Prop where
  bounds : ∀ e ∈ t.events, 1 ≤ e.causalId ∧ e.causalId ≤ t.clock.value
  predecessor : ∀ e ∈ t.events,
    e.predecessorId = if e.causalId > 1 then some (e.causalId - 1) else none
  index : ∀ k, t.eventIndex.get? k = t.events.find? fun e => e.causalId = k
  sealedUpTo : t.sealedUpTo = t.lastSealed
  markers : ∀ m ∈ t.ponrMarkers, ∃ e ∈ t.events, e.causalId = m.sealedAtCausalId

variable {t : CausalTimeline π} {event : CausalEvent π}

lemma WellFormed.init : WellFormed (new : CausalTimeline π) :=
  ⟨by simp [new], by simp [new], fun _ => rfl, rfl, by simp [new]⟩

lemma WellFormed.contains_iff (h : WellFormed t) {k : ℤ} :
    t.eventIndex.contains k = true ↔ ∃ e ∈ t.events, e.causalId = k := by
  rw [Dict.contains_eq_true, ← not_iff_not, ← Dict.get?_eq_none, h.index, List.find?_eq_none]
  simp

lemma WellFormed.le_clock (h : WellFormed t) (k : ℤ) (hk : t.eventIndex.contains k = true) :
    k ≤ t.clock.value := by
  obtain ⟨e, he, rfl⟩ := h.contains_iff.mp hk
  exact (h.bounds e he).2

lemma WellFormed.tick (h : WellFormed t) : WellFormed { t with clock := t.clock.tick } := by
  refine ⟨fun e he => ?_, h.predecessor, h.index, h.sealedUpTo, h.markers⟩
  have := h.bounds e he
  exact ⟨this.1, this.2.trans (by simp [LogicalClock.tick])⟩

lemma WellFormed.append (h : WellFormed t) (hnext : t.IsNext event) :
    WellFormed (t.append event) := by
  have hid := hnext.causalId
  have hclock := t.clock.value_nonneg
  refine ⟨?_, ?_, ?_, h.sealedUpTo, ?_⟩
  · intro e he
    rcases List.mem_append.mp he with he | he
    · have := h.bounds e he
      exact ⟨this.1, this.2.trans (by simp [CausalTimeline.append, LogicalClock.tick])⟩
    · obtain rfl := List.mem_singleton.mp he
      exact ⟨by omega, hid.le⟩
  · intro e he
    rcases List.mem_append.mp he with he | he
    · exact h.predecessor e he
    · rw [List.mem_singleton.mp he]
      exact hnext.predecessorId
  · intro k
    show (t.eventIndex.set event.causalId event).get? k = (t.events ++ [event]).find? _
    rw [Dict.get?_set, List.find?_append, h.index]
    by_cases hk : k = event.causalId
    · have hnone : t.events.find? (fun e => e.causalId = k) = none := by
        rw [List.find?_eq_none]
        intro e he
        have := h.bounds e he
        simp only [decide_eq_true_eq]
        omega
      simp [hk ▸ hnone, hk]
    · simp [hk, Ne.symm hk]
  · intro m hm
    obtain ⟨e, he, hek⟩ := h.markers m hm
    exact ⟨e, List.mem_append_left _ he, hek⟩

lemma WellFormed.appendLinked (h : WellFormed t) (hnext : t.IsNext event) (link : CausalLink) :
    WellFormed (t.appendLinked event link) :=
  have happend := h.append hnext
  ⟨happend.bounds, happend.predecessor, happend.index, happend.sealedUpTo, happend.markers⟩

/-- **Step lemma.** -/
theorem WellFormed.perform (h : WellFormed t) (c : TimelineCall π) : WellFormed (t.perform c) := by
  rcases perform_cases h.le_clock c with
    ⟨-, hr⟩ | ⟨-, hr⟩ | ⟨-, event, hnext, hr | ⟨link, -, hr⟩⟩ | ⟨-, ponr, -, hmem, hr⟩
  · rwa [hr]
  · rw [hr]
    exact h.tick
  · rw [hr]
    exact h.append hnext
  · rw [hr]
    exact h.appendLinked hnext link
  · rw [hr]
    refine ⟨h.bounds, h.predecessor, h.index, by simp [lastSealed], ?_⟩
    intro m hm
    rcases List.mem_append.mp hm with hm | hm
    · exact h.markers m hm
    · rw [List.mem_singleton.mp hm]
      exact h.contains_iff.mp hmem

/-- **Run lemma.** -/
theorem WellFormed.exec (calls : List (TimelineCall π)) :
    WellFormed (Run.exec CausalTimeline.perform new calls) :=
  Run.invariant_of_forall (I := WellFormed) (fun _ c h => h.perform c) WellFormed.init calls

lemma WellFormed.get?_eq_some (h : WellFormed t) {k : ℤ}
    (hget : t.eventIndex.get? k = some event) : event ∈ t.events ∧ event.causalId = k := by
  rw [h.index] at hget
  exact ⟨List.mem_of_find?_eq_some hget, by simpa using List.find?_some hget⟩

/-! ### Nothing is forgotten -/

/-- The second timeline has grown out of the first. -/
structure Grows (t t' : CausalTimeline π) : Prop where
  events : t.events <+: t'.events
  links : t.links <+: t'.links
  markers : t.ponrMarkers <+: t'.ponrMarkers
  sealedUpTo : t.sealedUpTo ≤ t'.sealedUpTo

lemma Grows.refl (t : CausalTimeline π) : Grows t t :=
  ⟨List.prefix_refl _, List.prefix_refl _, List.prefix_refl _, le_refl _⟩

lemma Grows.trans {t t' t'' : CausalTimeline π} (h : Grows t t') (h' : Grows t' t'') :
    Grows t t'' :=
  ⟨h.events.trans h'.events, h.links.trans h'.links, h.markers.trans h'.markers,
    h.sealedUpTo.trans h'.sealedUpTo⟩

lemma Grows.append (event : CausalEvent π) (t : CausalTimeline π) : Grows t (t.append event) :=
  ⟨List.prefix_append _ _, List.prefix_append _ _, List.prefix_refl _, le_refl _⟩

/-- **Step lemma.** -/
theorem Grows.perform (h : WellFormed t) (c : TimelineCall π) : Grows t (t.perform c) := by
  rcases perform_cases h.le_clock c with
    ⟨-, hr⟩ | ⟨-, hr⟩ | ⟨-, event, -, hr | ⟨link, -, hr⟩⟩ | ⟨-, ponr, hlt, -, hr⟩
  · rw [hr]
    exact Grows.refl t
  · rw [hr]
    exact ⟨List.prefix_refl _, List.prefix_refl _, List.prefix_refl _, le_refl _⟩
  · rw [hr]
    exact Grows.append event t
  · rw [hr]
    refine (Grows.append event t).trans ⟨List.prefix_refl _, ?_, List.prefix_refl _, le_refl _⟩
    exact List.prefix_append _ _
  · rw [hr]
    exact ⟨List.prefix_refl _, List.prefix_refl _, List.prefix_append _ _, hlt.le⟩

/-- **Run lemma.** -/
theorem Grows.exec (h : WellFormed t) (calls : List (TimelineCall π)) :
    Grows t (Run.exec CausalTimeline.perform t calls) := by
  induction calls generalizing t with
  | nil => exact Grows.refl t
  | cons c calls ih => exact (Grows.perform h c).trans (ih (h.perform c))

/-- The link from its predecessor that a compensation comes with is not the one to its target. -/
lemma not_compensates_predecessorLink (htype : event.eventType = "COMPENSATION") :
    ∀ l ∈ predecessorLink event, ¬l.Compensates := by
  intro l hl
  have hmechanism : l.mechanism = event.eventType := by
    rw [predecessorLink] at hl
    split at hl
    · exact absurd hl List.not_mem_nil
    · rw [List.mem_singleton.mp hl]
  rw [CausalLink.Compensates, hmechanism, htype]
  decide

/-- **What a compensation leaves behind**: one event, and one link to its target, which was
recorded and not sealed when the compensation was made. -/
theorem compensate_link (h : WellFormed t) {target : ℤ} {payload : π} {reason : String}
    (hok : (t.compensate target payload reason).2 = .ok event) :
    let t' := (t.compensate target payload reason).1
    t'.events = t.events ++ [event] ∧ t'.ponrMarkers = t.ponrMarkers ∧
      ∃ auto link, t'.links = t.links ++ auto ++ [link] ∧ (∀ l ∈ auto, ¬l.Compensates) ∧
        link.Compensates ∧ link.causeId = target ∧ link.effectId = event.causalId ∧
        (∃ e ∈ t.events, e.causalId = target) ∧ t.sealedUpTo < target := by
  rcases compensate_cases h.le_clock target payload reason with
    ⟨exc, hr⟩ | ⟨event', link, hmem, hsealed, hr, -, htype, -, -, hcause, heffect, hmechanism⟩
  · rw [hr] at hok
    exact absurd hok (by simp)
  · obtain rfl : event' = event := by simpa [hr] using hok
    rw [hr]
    refine ⟨rfl, rfl, predecessorLink event', link, rfl, not_compensates_predecessorLink htype, ?_,
      hcause, heffect, h.contains_iff.mp hmem, hsealed⟩
    rw [CausalLink.Compensates, hmechanism, String.toList_append]
    exact List.prefix_append _ _

/-- **Irreversibility.**  In every run, at every point and up to every later point: events, links
and markers stay, the seal does not move back, it is the id of the last marker, and every marker
seals an event; no link has a cause that is not before its effect; and a compensation appends
one event and one link to its target, an event that was recorded and not sealed. -/
theorem timeline_irreversible (calls more : List (TimelineCall π)) :
    let t := Run.exec CausalTimeline.perform new calls
    Grows t (Run.exec CausalTimeline.perform t more) ∧ t.sealedUpTo = t.lastSealed ∧
      (∀ m ∈ t.ponrMarkers, ∃ e ∈ t.events, e.causalId = m.sealedAtCausalId) ∧
      (∀ link ∈ t.links, ¬link.causeId ≥ link.effectId) ∧
      ∀ target payload reason event, (t.compensate target payload reason).2 = .ok event →
        let t' := (t.compensate target payload reason).1
        t'.events = t.events ++ [event] ∧ t'.ponrMarkers = t.ponrMarkers ∧
          ∃ auto link, t'.links = t.links ++ auto ++ [link] ∧ (∀ l ∈ auto, ¬l.Compensates) ∧
            link.Compensates ∧ link.causeId = target ∧ link.effectId = event.causalId ∧
            (∃ e ∈ t.events, e.causalId = target) ∧ t.sealedUpTo < target := by
  intro t
  have h : WellFormed t := WellFormed.exec calls
  refine ⟨Grows.exec h more, h.sealedUpTo, h.markers, fun link _ => link.causeId_lt, ?_⟩
  intro target payload reason event hok
  exact compensate_link h hok

/-! ### The order of the events -/

/-- The events are numbered from 1, each but the first names the one before it as its
predecessor, the check says so, and the chain of an event is all events up to it. -/
structure Ordered (t : CausalTimeline π) : Prop where
  numbered : NumberedFrom CausalEvent.causalId 1 t.events
  predecessor : ∀ e ∈ t.events,
    e.predecessorId = if e.causalId > 1 then some (e.causalId - 1) else none
  verified : t.verifyOrdering = .ok true
  chains : ∀ k : ℕ, 1 ≤ k → k ≤ t.events.length → t.getChain k = .ok (t.events.take k)

/-- The check goes through events that are numbered and name their predecessors. -/
lemma orderingLoop_ok {L : List (CausalEvent π)} {s : ℤ}
    (hnum : NumberedFrom CausalEvent.causalId s L)
    (hpred : ∀ e ∈ L, e.predecessorId = if e.causalId > 1 then some (e.causalId - 1) else none) :
    orderingLoop s L = .ok true := by
  induction L generalizing s with
  | nil => rfl
  | cons e L ih =>
    have hid : e.causalId = s := hnum.1
    have hpred' := hpred e List.mem_cons_self
    rw [orderingLoop, if_neg (by simp [hid]), if_neg ?_]
    · exact ih hnum.2 fun e' he' => hpred e' (List.mem_cons_of_mem e he')
    · rintro ⟨hs, hne⟩
      rw [hid, if_pos hs] at hpred'
      exact hne hpred'

/-- The index of a numbered timeline. -/
lemma WellFormed.get?_of_numbered (h : WellFormed t)
    (hnum : NumberedFrom CausalEvent.causalId 1 t.events) {k : ℕ} (hk : k < t.events.length) :
    t.eventIndex.get? ((k + 1 : ℕ) : ℤ) = some t.events[k] ∧
      t.events[k].causalId = ((k + 1 : ℕ) : ℤ) := by
  have hid : t.events[k].causalId = ((k + 1 : ℕ) : ℤ) := by
    have hmap := congrArg (fun l => l[k]?) hnum.map_eq
    simp only [List.getElem?_map, List.getElem?_eq_getElem hk, Option.map_some] at hmap
    rw [List.getElem?_eq_getElem (by simpa using hk)] at hmap
    simp only [Option.map_some, List.getElem_range, Option.some.injEq] at hmap
    rw [hmap]
    omega
  refine ⟨?_, hid⟩
  rw [h.index]
  have hmem : t.events[k] ∈ t.events := List.getElem_mem hk
  cases hfind : t.events.find? fun e => e.causalId = ((k + 1 : ℕ) : ℤ) with
  | none =>
    rw [List.find?_eq_none] at hfind
    exact absurd hid (by simpa using hfind _ hmem)
  | some e =>
    have he : e.causalId = ((k + 1 : ℕ) : ℤ) := by simpa using List.find?_some hfind
    rw [hnum.eq_of_id_eq (List.mem_of_find?_eq_some hfind) hmem (he.trans hid.symm)]

/-- Going back from the event at a position yields all events up to it. -/
lemma WellFormed.chainLoop_of_numbered (h : WellFormed t)
    (hnum : NumberedFrom CausalEvent.causalId 1 t.events) {k : ℕ} (hk : k < t.events.length) :
    (chainLoop t.eventIndex (k + 1) t.events[k]).reverse = t.events.take (k + 1) := by
  induction k with
  | zero =>
    obtain ⟨-, hid⟩ := h.get?_of_numbered hnum hk
    have hpred := h.predecessor _ (List.getElem_mem hk)
    rw [hid, if_neg (by simp)] at hpred
    rw [chainLoop, hpred]
    simp [List.take_one, List.head?_eq_getElem?, List.getElem?_eq_getElem hk]
  | succ k ih =>
    obtain ⟨-, hid⟩ := h.get?_of_numbered hnum hk
    obtain ⟨hget, -⟩ := h.get?_of_numbered hnum (Nat.lt_of_succ_lt hk)
    have hpred := h.predecessor _ (List.getElem_mem hk)
    rw [hid, if_pos (by omega), Nat.cast_succ (k + 1), add_sub_cancel_right] at hpred
    rw [chainLoop, hpred, Option.bind_some, hget]
    simp only [List.reverse_cons]
    rw [ih (Nat.lt_of_succ_lt hk), List.take_append_getElem hk]

/-- The clock shows the number of events, which are numbered from 1. -/
structure InStep (t : CausalTimeline π) : Prop where
  wellFormed : WellFormed t
  clock : t.clock.value = t.events.length
  numbered : NumberedFrom CausalEvent.causalId 1 t.events

/-- The clock is ahead of the number of events. -/
structure Ahead (t : CausalTimeline π) : Prop where
  wellFormed : WellFormed t
  clock : t.events.length < t.clock.value

lemma ordered_of_numbered (h : WellFormed t)
    (hnum : NumberedFrom CausalEvent.causalId 1 t.events) : Ordered t := by
  refine ⟨hnum, h.predecessor, orderingLoop_ok hnum h.predecessor, ?_⟩
  intro k hk hlen
  obtain ⟨k, rfl⟩ := Nat.exists_eq_succ_of_ne_zero (Nat.one_le_iff_ne_zero.mp hk)
  obtain ⟨hget, hid⟩ := h.get?_of_numbered hnum (Nat.lt_of_succ_le hlen)
  rw [getChain, hget]
  simp only [hid, Int.toNat_natCast]
  rw [h.chainLoop_of_numbered hnum (Nat.lt_of_succ_le hlen)]

lemma InStep.init : InStep (new : CausalTimeline π) := ⟨WellFormed.init, rfl, trivial⟩

lemma InStep.append (h : InStep t) (hnext : t.IsNext event) : InStep (t.append event) := by
  refine ⟨h.wellFormed.append hnext, ?_, ?_⟩
  · show t.clock.value + 1 = ((t.events ++ [event]).length : ℤ)
    rw [h.clock, List.length_append, List.length_singleton, Nat.cast_succ]
  · refine NumberedFrom.append_singleton.mpr ⟨h.numbered, ?_⟩
    rw [hnext.causalId, h.clock, add_comm]

lemma Ahead.append (h : Ahead t) (hnext : t.IsNext event) : Ahead (t.append event) := by
  refine ⟨h.wellFormed.append hnext, ?_⟩
  show ((t.events ++ [event]).length : ℤ) < t.clock.value + 1
  rw [List.length_append, List.length_singleton, Nat.cast_succ]
  exact add_lt_add_left h.clock 1

/-- **Step lemma.**  A call that does not record an event without a type keeps the clock in step;
one that does puts it ahead, and leaves the events as they are. -/
theorem InStep.perform (h : InStep t) (c : TimelineCall π) :
    c.Typed ∧ InStep (t.perform c) ∨
      ¬c.Typed ∧ Ahead (t.perform c) ∧ (t.perform c).events = t.events := by
  have hwf := h.wellFormed.perform c
  rcases perform_cases h.wellFormed.le_clock c with ⟨htyped, hr⟩ | ⟨htyped, hr⟩ |
    ⟨htyped, event, hnext, hr | ⟨link, -, hr⟩⟩ | ⟨htyped, ponr, -, -, hr⟩
  · rw [hr]
    exact Or.inl ⟨htyped, h⟩
  · -- the clock has ticked before the event was refused
    rw [hr] at hwf ⊢
    refine Or.inr ⟨htyped, ⟨hwf, ?_⟩, rfl⟩
    show (t.events.length : ℤ) < t.clock.value + 1
    rw [h.clock]
    exact lt_add_one _
  · rw [hr]
    exact Or.inl ⟨htyped, h.append hnext⟩
  · have happend := h.append hnext
    rw [hr] at hwf ⊢
    exact Or.inl ⟨htyped, hwf, happend.clock, happend.numbered⟩
  · rw [hr] at hwf ⊢
    exact Or.inl ⟨htyped, hwf, h.clock, h.numbered⟩

/-- **Step lemma.**  A clock that is ahead stays ahead. -/
theorem Ahead.perform (h : Ahead t) (c : TimelineCall π) : Ahead (t.perform c) := by
  refine ⟨h.wellFormed.perform c, ?_⟩
  rcases perform_cases h.wellFormed.le_clock c with
    ⟨-, hr⟩ | ⟨-, hr⟩ | ⟨-, event, hnext, hr | ⟨link, -, hr⟩⟩ | ⟨-, ponr, -, -, hr⟩
  · rw [hr]
    exact h.clock
  · rw [hr]
    exact h.clock.trans (lt_add_one _)
  · rw [hr]
    exact (h.append hnext).clock
  · rw [hr]
    exact (h.append hnext).clock
  · rw [hr]
    exact h.clock

/-- The next event of a clock that is ahead leaves a gap. -/
lemma Ahead.not_ordered_record (h : Ahead t) (payload : π) :
    ¬Ordered (t.perform (.record "EVENT" payload false)) := by
  intro hordered
  rw [CausalTimeline.perform] at hordered
  rcases record_cases "EVENT" payload false t with ⟨habsurd, -⟩ | ⟨-, event, hr, hnext, -⟩
  · exact absurd habsurd (by decide)
  · rw [hr] at hordered
    have hid := (NumberedFrom.append_singleton.mp hordered.numbered).2
    have hclock := h.clock
    rw [hnext.causalId] at hid
    omega

/-- **Run lemma.**  The clock is in step as long as no event without a type was recorded, and
ahead from then on. -/
theorem exec_inStep_or_ahead (calls : List (TimelineCall π)) :
    (∀ c ∈ calls, c.Typed) ∧ InStep (Run.exec CausalTimeline.perform new calls) ∨
      (∃ c ∈ calls, ¬c.Typed) ∧ Ahead (Run.exec CausalTimeline.perform new calls) := by
  induction calls using List.reverseRecOn with
  | nil => exact Or.inl ⟨by simp, InStep.init⟩
  | append_singleton calls c ih =>
    rw [Run.exec_append, Run.exec_cons, Run.exec_nil]
    rcases ih with ⟨htyped, hstep⟩ | ⟨⟨d, hd, hdtype⟩, hahead⟩
    · rcases hstep.perform c with ⟨hc, hnext⟩ | ⟨hc, hnext, -⟩
      · refine Or.inl ⟨?_, hnext⟩
        intro d hd
        rcases List.mem_append.mp hd with hd | hd
        · exact htyped d hd
        · rwa [List.mem_singleton.mp hd]
      · exact Or.inr ⟨⟨c, by simp, hc⟩, hnext⟩
    · exact Or.inr ⟨⟨d, List.mem_append_left _ hd, hdtype⟩, hahead.perform c⟩

/-- **Order.**  A run that never gives an event without a type to `record` leaves an ordered
timeline; and whatever is called next, the timeline stays ordered, exactly if the run has been
so. -/
theorem timeline_ordered_iff :
    (∀ calls : List (TimelineCall π), (∀ c ∈ calls, c.Typed) →
      Ordered (Run.exec CausalTimeline.perform new calls)) ∧
    ∀ calls : List (TimelineCall π),
      (∀ c, Ordered ((Run.exec CausalTimeline.perform new calls).perform c)) ↔
        ∀ c ∈ calls, c.Typed := by
  constructor
  · intro calls htyped
    rcases exec_inStep_or_ahead calls with ⟨-, hstep⟩ | ⟨⟨c, hc, hctype⟩, -⟩
    · exact ordered_of_numbered hstep.wellFormed hstep.numbered
    · exact absurd (htyped c hc) hctype
  · intro calls
    rcases exec_inStep_or_ahead calls with ⟨htyped, hstep⟩ | ⟨⟨c, hc, hctype⟩, hahead⟩
    · refine iff_of_true (fun c => ?_) htyped
      refine ordered_of_numbered (hstep.wellFormed.perform c) ?_
      rcases hstep.perform c with ⟨-, hnext⟩ | ⟨-, -, hevents⟩
      · exact hnext.numbered
      · rw [hevents]
        exact hstep.numbered
    · refine iff_of_false (fun h => ?_) fun h => hctype (h c hc)
      cases c with
      | record eventType payload isCompensation => exact hahead.not_ordered_record payload (h _)
      | compensate target payload reason => exact hctype trivial
      | sealUpTo upTo reason => exact hctype trivial

/-- An event without a type is refused and uses up an id: the next event is not the first, and has
a predecessor that does not exist. -/
theorem refused_event_leaves_gap :
    let t := Run.exec CausalTimeline.perform (new : CausalTimeline Unit)
      [.record "" () false, .record "MEASURE" () false]
    t.events.map (·.causalId) = [2] ∧ t.events.map (·.predecessorId) = [some 1] ∧
      t.verifyOrdering = .error ⟨.causalityViolation,
        "ORDERING VIOLATION: expected causal_id=1, got 2. Gap or duplication detected."⟩ ∧
      ¬Ordered t := by
  intro t
  refine ⟨by decide, by decide, by decide, fun h => ?_⟩
  exact absurd h.verified (by decide)

end CausalTimeline

end QuantumFoundation
