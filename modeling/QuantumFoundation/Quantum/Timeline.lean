import QuantumFoundation.Lib.Dict
import QuantumFoundation.Python

/-!
# The causal timeline

The primitives of `causality_primitives.py` and the append-only timeline of `timeline.py`: a
logical clock, the events with an index of their ids, the links between them, and the markers up
to which the events are sealed.  `record` reads the clock before the event is built, so an event
that is refused has used up its id.
-/

namespace QuantumFoundation

/-! ## Primitives -/

/-- The logical clock.  The last field is the check of the constructor. -/
structure LogicalClock where
  value : ℤ
  value_nonneg : 0 ≤ value

namespace LogicalClock

/-- A clock at zero. -/
def new : LogicalClock := ⟨0, le_refl 0⟩

/-- `tick`: the clock with the new value. -/
def tick (clock : LogicalClock) : LogicalClock :=
  ⟨clock.value + 1, add_nonneg clock.value_nonneg zero_le_one⟩

end LogicalClock

/-- An event of the timeline.  The last three fields are the checks of the constructor. -/
structure CausalEvent (π : Type*) where
  causalId : ℤ
  eventType : String
  payload : π
  predecessorId : Option ℤ
  isCompensation : Bool
  causalId_nonneg : ¬causalId < 0
  eventType_ne : eventType ≠ ""
  predecessorId_lt : ∀ p ∈ predecessorId, ¬p ≥ causalId

/-- The constructor with the checks of `__post_init__`, in their order. -/
def CausalEvent.new {π : Type*} (causalId : ℤ) (eventType : String) (payload : π)
    (predecessorId : Option ℤ) (isCompensation : Bool) : Except Raised (CausalEvent π) :=
  if h₁ : causalId < 0 then .error ⟨.valueError, "causal_id must be >= 0"⟩
  else if h₂ : eventType = "" then .error ⟨.valueError, "event_type must be non-empty"⟩
  else
    match predecessorId with
    | none => .ok ⟨causalId, eventType, payload, none, isCompensation, h₁, h₂, by simp⟩
    | some p =>
      if h₃ : p ≥ causalId then
        .error ⟨.valueError, "predecessor_id (" ++ toString p ++ ") must be < causal_id ("
          ++ toString causalId ++ "). Causality violation: an event cannot precede itself or its "
          ++ "successors."⟩
      else
        .ok ⟨causalId, eventType, payload, some p, isCompensation, h₁, h₂, by
          rintro q ⟨rfl⟩
          exact h₃⟩

/-- A link from a cause to its effect.  The last field is the check of the constructor. -/
structure CausalLink where
  causeId : ℤ
  effectId : ℤ
  mechanism : String
  causeId_lt : ¬causeId ≥ effectId
deriving DecidableEq

/-- The constructor with the check of `__post_init__`. -/
def CausalLink.new (causeId effectId : ℤ) (mechanism : String) : Except Raised CausalLink :=
  if h : causeId ≥ effectId then
    .error ⟨.valueError, "CausalLink: cause_id (" ++ toString causeId ++ ") must be < effect_id ("
      ++ toString effectId ++ "). Cause must precede effect."⟩
  else .ok ⟨causeId, effectId, mechanism, h⟩

/-- A permanent seal.  The last two fields are the checks of the constructor. -/
structure PointOfNoReturn where
  sealedAtCausalId : ℤ
  reason : String
  sealedAtCausalId_nonneg : ¬sealedAtCausalId < 0
  reason_ne : reason ≠ ""
deriving DecidableEq

/-- The constructor with the checks of `__post_init__`, in their order. -/
def PointOfNoReturn.new (sealedAtCausalId : ℤ) (reason : String) :
    Except Raised PointOfNoReturn :=
  if h₁ : sealedAtCausalId < 0 then .error ⟨.valueError, "sealed_at_causal_id must be >= 0"⟩
  else if h₂ : reason = "" then
    .error ⟨.valueError, "PointOfNoReturn.reason must be non-empty"⟩
  else .ok ⟨sealedAtCausalId, reason, h₁, h₂⟩

/-! ## The timeline -/

/-- The timeline. -/
structure CausalTimeline (π : Type*) where
  clock : LogicalClock
  events : List (CausalEvent π)
  links : List CausalLink
  ponrMarkers : List PointOfNoReturn
  eventIndex : Dict ℤ (CausalEvent π)
  sealedUpTo : ℤ

namespace CausalTimeline

variable {π : Type*}

/-- An empty timeline. -/
def new : CausalTimeline π := ⟨.new, [], [], [], .empty, -1⟩

/-- `length`. -/
def length (t : CausalTimeline π) : ℕ := t.events.length

/-- `record`. -/
def record (eventType : String) (payload : π) (isCompensation : Bool) (t : CausalTimeline π) :
    Attempt (CausalTimeline π) (CausalEvent π) :=
  let clock := t.clock.tick
  let causalId := clock.value
  let predecessorId := if causalId > 1 then some (causalId - 1) else none
  -- the clock has ticked, whether or not the event can be built
  let t := { t with clock := clock }
  match CausalEvent.new causalId eventType payload predecessorId isCompensation with
  | .error exc => (t, .error exc)
  | .ok event =>
    let t := { t with
      events := t.events ++ [event]
      eventIndex := t.eventIndex.set causalId event }
    match predecessorId with
    | none => (t, .ok event)
    | some predecessorId =>
      match CausalLink.new predecessorId causalId eventType with
      | .error exc => (t, .error exc)
      | .ok link => ({ t with links := t.links ++ [link] }, .ok event)

/-- `compensate`. -/
def compensate (targetCausalId : ℤ) (compensationPayload : π) (reason : String)
    (t : CausalTimeline π) : Attempt (CausalTimeline π) (CausalEvent π) :=
  if !t.eventIndex.contains targetCausalId then
    (t, .error ⟨.causalityViolation, "Cannot compensate: event with causal_id="
      ++ toString targetCausalId ++ " does not exist."⟩)
  else if targetCausalId ≤ t.sealedUpTo then
    (t, .error ⟨.pointOfNoReturnViolation, "Cannot compensate event " ++ toString targetCausalId
      ++ ": it is sealed by a PointOfNoReturn (sealed_up_to=" ++ toString t.sealedUpTo
      ++ "). No compensation is permitted past a PointOfNoReturn."⟩)
  else
    match t.record "COMPENSATION" compensationPayload true with
    | (t, .error exc) => (t, .error exc)
    | (t, .ok compEvent) =>
      match CausalLink.new targetCausalId compEvent.causalId
          ("COMPENSATES:" ++ if reason = "" then "unspecified" else reason) with
      | .error exc => (t, .error exc)
      | .ok explicitLink => ({ t with links := t.links ++ [explicitLink] }, .ok compEvent)

/-- `seal`. -/
def sealUpTo (upToCausalId : ℤ) (reason : String) (t : CausalTimeline π) :
    Attempt (CausalTimeline π) PointOfNoReturn :=
  if upToCausalId ≤ t.sealedUpTo then
    (t, .error ⟨.valueError, "Cannot seal up to " ++ toString upToCausalId
      ++ ": already sealed up to " ++ toString t.sealedUpTo
      ++ ". PointOfNoReturn can only advance forwards."⟩)
  else if !t.eventIndex.contains upToCausalId then
    (t, .error ⟨.causalityViolation, "Cannot seal: event " ++ toString upToCausalId
      ++ " does not exist in timeline."⟩)
  else
    match PointOfNoReturn.new upToCausalId reason with
    | .error exc => (t, .error exc)
    | .ok ponr =>
      ({ t with ponrMarkers := t.ponrMarkers ++ [ponr], sealedUpTo := upToCausalId }, .ok ponr)

/-- The loop of `get_chain`, from an event backwards.  The predecessor of an event has a smaller
id, so as many rounds as the id of the event are enough. -/
def chainLoop (eventIndex : Dict ℤ (CausalEvent π)) : ℕ → CausalEvent π → List (CausalEvent π)
  | 0, current => [current]
  | rounds + 1, current =>
    match current.predecessorId.bind eventIndex.get? with
    | none => [current]
    | some previous => current :: chainLoop eventIndex rounds previous

/-- `get_chain`. -/
def getChain (causalId : ℤ) (t : CausalTimeline π) : Except Raised (List (CausalEvent π)) :=
  match t.eventIndex.get? causalId with
  | none => .error ⟨.causalityViolation, "Event " ++ toString causalId
      ++ " does not exist in the timeline."⟩
  | some current => .ok (chainLoop t.eventIndex current.causalId.toNat current).reverse

/-- How a predecessor id is shown. -/
def showPredecessor : Option ℤ → String
  | none => "None"
  | some p => toString p

/-- The loop of `verify_ordering`. -/
def orderingLoop : ℤ → List (CausalEvent π) → Except Raised Bool
  | _, [] => .ok true
  | expectedId, event :: rest =>
    if event.causalId ≠ expectedId then
      .error ⟨.causalityViolation, "ORDERING VIOLATION: expected causal_id="
        ++ toString expectedId ++ ", got " ++ toString event.causalId
        ++ ". Gap or duplication detected."⟩
    else if expectedId > 1 ∧ event.predecessorId ≠ some (expectedId - 1) then
      .error ⟨.causalityViolation, "PREDECESSOR VIOLATION at causal_id="
        ++ toString event.causalId ++ ": expected predecessor_id=" ++ toString (expectedId - 1)
        ++ ", got " ++ showPredecessor event.predecessorId ++ "."⟩
    else orderingLoop (expectedId + 1) rest

/-- `verify_ordering`. -/
def verifyOrdering (t : CausalTimeline π) : Except Raised Bool := orderingLoop 1 t.events

/-! ### What an operation does -/

/-- The link from its predecessor that an event comes with, if it has one. -/
def predecessorLink (event : CausalEvent π) : List CausalLink :=
  match h : event.predecessorId with
  | none => []
  | some p => [⟨p, event.causalId, event.eventType, event.predecessorId_lt p h⟩]

/-- The timeline with one more event, and the link from its predecessor. -/
def append (event : CausalEvent π) (t : CausalTimeline π) : CausalTimeline π :=
  { t with
    clock := t.clock.tick
    events := t.events ++ [event]
    eventIndex := t.eventIndex.set event.causalId event
    links := t.links ++ predecessorLink event }

/-- The event is built for the next value of the clock. -/
structure IsNext (t : CausalTimeline π) (event : CausalEvent π) : Prop where
  causalId : event.causalId = t.clock.value + 1
  predecessorId : event.predecessorId
    = if event.causalId > 1 then some (event.causalId - 1) else none

variable {t : CausalTimeline π} {eventType : String} {payload : π} {isCompensation : Bool}

/-- **Recording.**  An event without a type is refused, and the clock has ticked; any other is
appended, with the next id. -/
theorem record_cases (eventType : String) (payload : π) (isCompensation : Bool)
    (t : CausalTimeline π) :
    (eventType = "" ∧ ∃ exc, t.record eventType payload isCompensation
      = ({ t with clock := t.clock.tick }, .error exc)) ∨
    eventType ≠ "" ∧ ∃ event, t.record eventType payload isCompensation
        = (t.append event, .ok event) ∧ t.IsNext event ∧ event.eventType = eventType ∧
      event.payload = payload ∧ event.isCompensation = isCompensation := by
  have hclock := t.clock.value_nonneg
  have hid : ¬t.clock.tick.value < 0 := not_lt.mpr t.clock.tick.value_nonneg
  by_cases htype : eventType = ""
  · refine Or.inl ⟨htype, ⟨.valueError, "event_type must be non-empty"⟩, ?_⟩
    rw [record, CausalEvent.new, dif_neg hid, dif_pos htype]
  · refine Or.inr ⟨htype, ?_⟩
    by_cases hfirst : t.clock.tick.value > 1
    · have hlt : ¬t.clock.tick.value - 1 ≥ t.clock.tick.value := by omega
      refine ⟨⟨t.clock.tick.value, eventType, payload, some (t.clock.tick.value - 1),
        isCompensation, hid, htype, ?_⟩, ?_, ⟨rfl, (if_pos hfirst).symm⟩, rfl, rfl, rfl⟩
      · rintro p ⟨rfl⟩
        exact hlt
      · simp only [record, CausalEvent.new, if_pos hfirst, dif_neg hid, dif_neg htype, dif_neg hlt,
          CausalLink.new]
        rfl
    · refine ⟨⟨t.clock.tick.value, eventType, payload, none, isCompensation, hid, htype, by simp⟩,
        ?_, ⟨rfl, (if_neg hfirst).symm⟩, rfl, rfl, rfl⟩
      simp only [record, CausalEvent.new, if_neg hfirst, dif_neg hid, dif_neg htype]
      simp [append, predecessorLink]

/-- An event with a type is appended. -/
lemma record_of_ne (eventType : String) (htype : eventType ≠ "") (payload : π)
    (isCompensation : Bool) (t : CausalTimeline π) :
    ∃ event, t.record eventType payload isCompensation = (t.append event, .ok event) ∧
      t.IsNext event ∧ event.eventType = eventType ∧ event.payload = payload ∧
      event.isCompensation = isCompensation := by
  rcases record_cases eventType payload isCompensation t with ⟨habsurd, -⟩ | ⟨-, hrecorded⟩
  · exact absurd habsurd htype
  · exact hrecorded

/-- The timeline with the event of a compensation and its explicit link. -/
def appendLinked (event : CausalEvent π) (link : CausalLink) (t : CausalTimeline π) :
    CausalTimeline π :=
  { t.append event with links := (t.append event).links ++ [link] }

/-- **Compensating.**  A compensation is refused, and nothing changes; or its target is recorded
and not sealed, and an event is appended, with a link to the target. -/
theorem compensate_cases (hindex : ∀ k, t.eventIndex.contains k = true → k ≤ t.clock.value)
    (targetCausalId : ℤ) (compensationPayload : π) (reason : String) :
    (∃ exc, t.compensate targetCausalId compensationPayload reason = (t, .error exc)) ∨
    ∃ event link, t.eventIndex.contains targetCausalId = true ∧ t.sealedUpTo < targetCausalId ∧
      t.compensate targetCausalId compensationPayload reason
        = (t.appendLinked event link, .ok event) ∧ t.IsNext event ∧
      event.eventType = "COMPENSATION" ∧ event.payload = compensationPayload ∧
      event.isCompensation = true ∧ link.causeId = targetCausalId ∧
      link.effectId = event.causalId ∧
      link.mechanism = "COMPENSATES:" ++ if reason = "" then "unspecified" else reason := by
  rw [compensate]
  by_cases hmem : t.eventIndex.contains targetCausalId = true
  · by_cases hsealed : targetCausalId ≤ t.sealedUpTo
    · rw [if_neg (by simp [hmem]), if_pos hsealed]
      exact Or.inl ⟨_, rfl⟩
    · rw [if_neg (by simp [hmem]), if_neg hsealed]
      rcases record_cases "COMPENSATION" compensationPayload true t with
        ⟨habsurd, -⟩ | ⟨-, event, hr, hnext, htype, hpayload, hcomp⟩
      · exact absurd habsurd (by decide)
      · have hlt : ¬targetCausalId ≥ event.causalId := by
          have := hindex targetCausalId hmem
          have := hnext.causalId
          omega
        refine Or.inr ⟨event, ⟨targetCausalId, event.causalId, _, hlt⟩, hmem, not_le.mp hsealed, ?_,
          hnext, htype, hpayload, hcomp, rfl, rfl, rfl⟩
        simp only [hr, CausalLink.new, dif_neg hlt]
        rfl
  · rw [Bool.not_eq_true] at hmem
    rw [if_pos (by rw [hmem]; rfl)]
    exact Or.inl ⟨_, rfl⟩

/-- **Sealing.**  A seal is refused, and nothing changes; or it lies behind the last one, on a
recorded event, and its marker is appended. -/
theorem sealUpTo_cases (upToCausalId : ℤ) (reason : String) (t : CausalTimeline π) :
    (∃ exc, t.sealUpTo upToCausalId reason = (t, .error exc)) ∨
    ∃ ponr : PointOfNoReturn, t.sealedUpTo < upToCausalId ∧
      t.eventIndex.contains upToCausalId = true ∧ ponr.sealedAtCausalId = upToCausalId ∧
      t.sealUpTo upToCausalId reason
        = ({ t with ponrMarkers := t.ponrMarkers ++ [ponr], sealedUpTo := upToCausalId },
          .ok ponr) := by
  rw [sealUpTo]
  by_cases hsealed : upToCausalId ≤ t.sealedUpTo
  · rw [if_pos hsealed]
    exact Or.inl ⟨_, rfl⟩
  · by_cases hmem : t.eventIndex.contains upToCausalId = true
    · rw [if_neg hsealed, if_neg (by simp [hmem])]
      cases hponr : PointOfNoReturn.new upToCausalId reason with
      | error exc => exact Or.inl ⟨exc, rfl⟩
      | ok ponr =>
        refine Or.inr ⟨ponr, not_le.mp hsealed, hmem, ?_, rfl⟩
        rw [PointOfNoReturn.new] at hponr
        split at hponr
        · exact absurd hponr (by simp)
        · split at hponr
          · exact absurd hponr (by simp)
          · rw [← Except.ok.inj hponr]
    · rw [Bool.not_eq_true] at hmem
      rw [if_neg hsealed, if_pos (by rw [hmem]; rfl)]
      exact Or.inl ⟨_, rfl⟩

end CausalTimeline

end QuantumFoundation
