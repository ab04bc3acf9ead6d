import QuantumFoundation.Distributed.Acknowledgement
import QuantumFoundation.Marine.StateEngine

/-!
# Rejected payloads

Whether an entry of a payload raises depends on the entry and on the ids of the zones, but not on
their states.  So a payload can be read as the list of the changes in front of its first malformed
entry; these stay in the engine when the entry raises.  A rejected event leaves the zones as they
were exactly if the changes made by then bring every zone back to where it was.
-/

namespace QuantumFoundation

variable {F : Type}

/-! ## The changes of a zone -/

/-- What is added to the state of a zone. -/
structure ZoneChange (F : Type) where
  corrosion : F
  coating : F
  roughness : F
  foulingCoverage : F
  foulingThickness : F

/-- The state of the zone after the change. -/
def ZoneState.plus [Add F] [LT F] [OfScientific F] [DecidableLT F] (z : ZoneState F)
    (c : ZoneChange F) : ZoneState F where
  corrosionDepthMm := z.corrosionDepthMm + c.corrosion
  coatingThicknessMm := z.coatingThicknessMm + c.coating
  roughnessRaUm := z.roughnessRaUm + c.roughness
  foulingCoverageFrac := pyMin 1.0 (pyMax 0.0 (z.foulingCoverageFrac + c.foulingCoverage))
  foulingThicknessMm := z.foulingThicknessMm + c.foulingThickness

section Delta

variable [OfScientific F] (N : NumberEnv F)

/-- The number that a delta has under a key. -/
def deltaValue (delta : Json F) (key : String) : Except Raised F := do
  let value ← delta.get key (.float 0.0)
  value.addend N

/-- The change that a delta stands for, read in the order of `apply_delta`. -/
def readDelta (delta : Json F) : Except Raised (ZoneChange F) := do
  let coverage ← deltaValue N delta "delta_fouling_coverage"
  let corrosion ← deltaValue N delta "delta_corrosion_mm"
  let coating ← deltaValue N delta "delta_coating_mm"
  let roughness ← deltaValue N delta "delta_roughness_um"
  let thickness ← deltaValue N delta "delta_fouling_thick_mm"
  return ⟨corrosion, coating, roughness, coverage, thickness⟩

variable {N}

lemma addDelta_eq [Add F] (x : F) (delta : Json F) (key : String) :
    addDelta N x delta key = (deltaValue N delta key).map (x + ·) := by
  rw [addDelta, deltaValue]
  cases delta.get key (.float 0.0) with
  | error exc => rfl
  | ok value =>
    show (do let y ← value.addend N; return x + y) = (value.addend N).map (x + ·)
    cases value.addend N <;> rfl

/-- **Applying a delta** is adding the change it stands for, or raises whatever the state is. -/
theorem ZoneState.applyDelta_eq [Add F] [LT F] [DecidableLT F] (z : ZoneState F)
    (delta : Json F) : z.applyDelta N delta = (readDelta N delta).map z.plus := by
  rw [applyDelta, readDelta]
  simp only [addDelta_eq]
  cases deltaValue N delta "delta_fouling_coverage" with
  | error exc => rfl
  | ok coverage =>
    cases deltaValue N delta "delta_corrosion_mm" with
    | error exc => rfl
    | ok corrosion =>
      cases deltaValue N delta "delta_coating_mm" with
      | error exc => rfl
      | ok coating =>
        cases deltaValue N delta "delta_roughness_um" with
        | error exc => rfl
        | ok roughness => cases deltaValue N delta "delta_fouling_thick_mm" <;> rfl

/-- A value that cannot be added is no matter of a `ValueError`, which would be caught. -/
lemma deltaValue_error {delta : Json F} {key : String} {exc : Raised}
    (h : deltaValue N delta key = .error exc) : exc.cls ≠ .valueError := by
  rcases bind_eq_error h with h | ⟨value, -, h⟩
  · simp [Json.get_error h]
  · rcases Json.addend_error h with h | h <;> simp [h]

lemma readDelta_error {delta : Json F} {exc : Raised} (h : readDelta N delta = .error exc) :
    exc.cls ≠ .valueError := by
  rcases bind_eq_error h with h | ⟨coverage, -, h⟩
  · exact deltaValue_error h
  rcases bind_eq_error h with h | ⟨corrosion, -, h⟩
  · exact deltaValue_error h
  rcases bind_eq_error h with h | ⟨coating, -, h⟩
  · exact deltaValue_error h
  rcases bind_eq_error h with h | ⟨roughness, -, h⟩
  · exact deltaValue_error h
  rcases bind_eq_error h with h | ⟨thickness, -, h⟩
  · exact deltaValue_error h
  · cases h

end Delta

/-! ## What a payload asks for -/

section Reading

variable [LE F] [DecidableLE F] [OfScientific F] (N : NumberEnv F) (known : List String)

/-- The change an entry asks for, given the ids of the zones: none if the entry is skipped or its
zone is not known, and an exception if the entry is malformed. -/
def entryChange (zone : Json F) : Except Raised (Option (String × ZoneChange F)) :=
  match readZone zone with
  | .error exc => .error exc
  | .ok none => .ok none
  | .ok (some (zId, delta)) =>
    match zId with
    | .dict _ | .list _ => .error ⟨.typeError, "unhashable type: '" ++ zId.typeName ++ "'"⟩
    | .str s => if s ∈ known then (readDelta N delta).map fun c => some (s, c) else .ok none
    | _ => .ok none

/-- The changes that the entries in front of the first malformed one ask for, and the exception of
that one, if there is one. -/
def entriesReading : List (Json F) → List (String × ZoneChange F) × Option Raised
  | [] => ([], none)
  | zone :: rest =>
    match entryChange N known zone with
    | .error exc => ([], some exc)
    | .ok change => (change.toList ++ (entriesReading rest).1, (entriesReading rest).2)

/-- The changes a payload asks for, up to the first malformed entry. -/
def payloadReading (payload : Json F) : List (String × ZoneChange F) × Option Raised :=
  match payload.get "zones" (.list []) with
  | .error exc => ([], some exc)
  | .ok zonesData =>
    match zonesData.iter with
    | .error exc => ([], some exc)
    | .ok zones => entriesReading N known zones

/-- The changes several payloads ask for in a row, up to the first malformed entry. -/
def payloadsReading : List (Json F) → List (String × ZoneChange F) × Option Raised
  | [] => ([], none)
  | payload :: rest =>
    match payloadReading N known payload with
    | (changes, some exc) => (changes, some exc)
    | (changes, none) => (changes ++ (payloadsReading rest).1, (payloadsReading rest).2)

end Reading

/-! ## What a payload does -/

variable [Add F] [LT F] [OfScientific F] [DecidableLT F]

/-- The zone after those of the changes that are its own. -/
def ZoneState.after (z : ZoneState F) (changes : List (String × ZoneChange F)) (zoneId : String) :
    ZoneState F :=
  (changes.filter fun c => c.1 = zoneId).foldl (fun z c => z.plus c.2) z

/-- The zones after the changes. -/
def changed (changes : List (String × ZoneChange F)) (zones : Dict String (ZoneState F)) :
    Dict String (ZoneState F) :=
  zones.mapValues fun zoneId z => z.after changes zoneId

/-- The changes bring every zone back to where it was. -/
def Restores (zones : Dict String (ZoneState F)) (changes : List (String × ZoneChange F)) : Prop :=
  ∀ zoneId z, zones.get? zoneId = some z → z.after changes zoneId = z

section Changed

variable {zones : Dict String (ZoneState F)} {changes : List (String × ZoneChange F)}

lemma changed_eq_self : changed changes zones = zones ↔ Restores zones changes :=
  Dict.mapValues_eq_self

@[simp] lemma changed_nil (zones : Dict String (ZoneState F)) : changed [] zones = zones :=
  changed_eq_self.mpr fun _ _ _ => rfl

@[simp] lemma keys_changed (changes : List (String × ZoneChange F))
    (zones : Dict String (ZoneState F)) : (changed changes zones).keys = zones.keys :=
  Dict.keys_mapValues _ _

lemma changed_append (changes changes' : List (String × ZoneChange F))
    (zones : Dict String (ZoneState F)) :
    changed (changes ++ changes') zones = changed changes' (changed changes zones) := by
  rw [changed, changed, changed, Dict.mapValues_mapValues]
  simp only [ZoneState.after, List.filter_append, List.foldl_append]

/-- The assignment of the engine makes one change. -/
lemma changed_singleton {s : String} {z : ZoneState F} (h : zones.get? s = some z)
    (c : ZoneChange F) : changed [(s, c)] zones = zones.set s (z.plus c) := by
  have hs : s ∈ zones.keys := Dict.mem_keys_of_get? h
  rw [Dict.set, dif_pos hs]
  ext1
  refine List.map_congr_left fun p hp => ?_
  by_cases hp' : p.1 = s
  · have hz : p.2 = z := Option.some.inj ((Dict.get?_eq_some.mpr hp).symm.trans (hp' ▸ h))
    simp [ZoneState.after, hp', hz]
  · simp [ZoneState.after, hp', Ne.symm hp']

/-- The engine is as before exactly if its zones are back where they were. -/
lemma MarineStateEngine.changed_eq_iff {engine : MarineStateEngine F} :
    (⟨changed changes engine.zones⟩ : MarineStateEngine F) = engine ↔
      Restores engine.zones changes := by
  rw [← changed_eq_self]
  cases engine
  simp

end Changed

namespace MarineStateEngine

variable [LE F] [DecidableLE F] (E : MarineEnv F)

/-- **Step lemma.**  An entry makes the change it asks for, or raises and changes nothing. -/
theorem payloadLoop_cons (zone : Json F) (rest : List (Json F)) (engine : MarineStateEngine F) :
    payloadLoop E (zone :: rest) engine =
      match entryChange E.numbers engine.zones.keys zone with
      | .error exc => (engine, .error exc)
      | .ok change => payloadLoop E rest ⟨changed change.toList engine.zones⟩ := by
  rw [payloadLoop, entryChange]
  cases hread : readZone zone with
  | error exc => rfl
  | ok entry =>
    rcases entry with _ | ⟨zId, delta⟩
    · simp
    · cases zId with
      | str s =>
        cases hz : engine.zones.get? s with
        | none => simp [applyTransition, hz, Dict.get?_eq_none.mp hz]
        | some z =>
          simp only [applyTransition, hz, ZoneState.applyDelta_eq, Dict.mem_keys_of_get? hz,
            if_true]
          cases hdelta : readDelta E.numbers delta with
          | error exc => simp [Except.map, readDelta_error hdelta]
          | ok c => simp [Except.map, changed_singleton hz]
      | _ => simp [applyTransition]

/-- The outcome of a payload whose reading ended with, or without, an exception. -/
def outcome : Option Raised → Except Raised Unit
  | none => .ok ()
  | some exc => .error exc

lemma exists_outcome {exc? : Option Raised} :
    (∃ exc, outcome exc? = .error exc) ↔ exc?.isSome = true := by
  cases exc? <;> simp [outcome]

/-- **Run lemma.**  The loop makes the changes in front of the first malformed entry. -/
theorem payloadLoop_eq (zones : List (Json F)) (engine : MarineStateEngine F) :
    payloadLoop E zones engine =
      (⟨changed (entriesReading E.numbers engine.zones.keys zones).1 engine.zones⟩,
        outcome (entriesReading E.numbers engine.zones.keys zones).2) := by
  induction zones generalizing engine with
  | nil => simp [payloadLoop, entriesReading, outcome]
  | cons zone rest ih =>
    rw [payloadLoop_cons, entriesReading]
    cases hchange : entryChange E.numbers engine.zones.keys zone with
    | error exc => simp [outcome]
    | ok change =>
      show payloadLoop E rest ⟨changed change.toList engine.zones⟩ = _
      rw [ih, keys_changed, changed_append]

lemma applyEventPayload_eq (payload : Json F) (engine : MarineStateEngine F) :
    engine.applyEventPayload E payload =
      (⟨changed (payloadReading E.numbers engine.zones.keys payload).1 engine.zones⟩,
        outcome (payloadReading E.numbers engine.zones.keys payload).2) := by
  rw [applyEventPayload, payloadReading]
  cases payload.get "zones" (.list []) with
  | error exc => simp [outcome]
  | ok zonesData =>
    cases hiter : zonesData.iter with
    | error exc => simp [outcome, hiter]
    | ok zones => simp only [hiter, payloadLoop_eq]

lemma marineAdapter_applyEventPayload (payload : Json F) (engine : MarineStateEngine F) :
    (marineAdapter E).applyEventPayload payload engine =
      let r := payloadReading E.numbers engine.zones.keys payload
      (⟨changed r.1 engine.zones⟩, r.2.map Raised.toPyError) := by
  simp only [marineAdapter, applyEventPayload_eq]
  cases (payloadReading E.numbers engine.zones.keys payload).2 <;> rfl

/-- The events that are handed to the adapter make their changes up to the first malformed
entry. -/
lemma attempt_eq (es : List (ExecutionEvent (Json F))) (engine : MarineStateEngine F) :
    (marineAdapter E).attempt engine es =
      let r := payloadsReading E.numbers engine.zones.keys (es.map (·.payload))
      (⟨changed r.1 engine.zones⟩, r.2.map Raised.toPyError) := by
  induction es generalizing engine with
  | nil => simp [Adapter.attempt, payloadsReading]
  | cons e es ih =>
    rw [Adapter.attempt, marineAdapter_applyEventPayload, List.map_cons, payloadsReading]
    rcases payloadReading E.numbers engine.zones.keys e.payload with ⟨changes, _ | exc⟩
    · show (marineAdapter E).attempt ⟨changed changes engine.zones⟩ es = _
      simp only [ih, keys_changed, changed_append]
    · rfl

/-! ### When nothing is left behind -/

/-- If the payload raises, then no zone has changed. -/
def RaisesCleanly (engine : MarineStateEngine F) (payload : Json F) : Prop :=
  (∃ exc, (engine.applyEventPayload E payload).2 = .error exc) →
    (engine.applyEventPayload E payload).1 = engine

/-- If the node answers that it has rejected the event, then the state of its adapter is as
before. -/
def RejectsCleanly (node : ProtocolNode (MarineStateEngine F) (Json F))
    (event : SequencedEvent (Json F)) : Prop :=
  (node.executeSequencedEvent (marineAdapter E) event).2.ackType = .rejected →
    (node.executeSequencedEvent (marineAdapter E) event).1.adapterState = node.adapterState

variable {E}

lemma raisesCleanly_iff {engine : MarineStateEngine F} {payload : Json F} :
    RaisesCleanly E engine payload ↔
      let r := payloadReading E.numbers engine.zones.keys payload
      r.2.isSome → Restores engine.zones r.1 := by
  rw [RaisesCleanly, applyEventPayload_eq, changed_eq_iff, exists_outcome]

/-- What a node makes of an event, and what it answers. -/
lemma executeSequencedEvent_reading (node : ProtocolNode (MarineStateEngine F) (Json F))
    {event : SequencedEvent (Json F)} (h : event.stepType ≠ "SYNC") :
    let r := payloadsReading E.numbers node.adapterState.zones.keys
      ((node.dueWith event.toExecutionEvent).map (·.payload))
    (node.executeSequencedEvent (marineAdapter E) event).1.adapterState
        = ⟨changed r.1 node.adapterState.zones⟩ ∧
      ((node.executeSequencedEvent (marineAdapter E) event).2.ackType = .rejected ↔
        r.2.isSome) := by
  intro r
  have hattempt := DistributedStateNode.receiveEvent_attempt (A := marineAdapter E)
    event.toExecutionEvent node.toDistributedStateNode
  rw [attempt_eq] at hattempt
  obtain ⟨hstate, hexc⟩ := Prod.mk.inj hattempt
  constructor
  · rw [ProtocolNode.executeSequencedEvent_core, SequencedEvent.toInput, if_neg h]
    exact hstate
  · rw [ProtocolNode.ackType_rejected_iff h, hexc, ne_eq, Option.map_eq_none_iff]
    exact Option.isSome_iff_ne_none.symm

/-- **Rejection.**  A payload that raises leaves the zones as they were exactly if the entries in
front of the malformed one bring every zone back to where it was; and so does an event that a node
rejects, where the entries are those of all events that it hands to the adapter by then. -/
theorem rejection_clean_iff (E : MarineEnv F) :
    (∀ (engine : MarineStateEngine F) (payload : Json F), RaisesCleanly E engine payload ↔
      let r := payloadReading E.numbers engine.zones.keys payload
      r.2.isSome → Restores engine.zones r.1) ∧
    ∀ (node : ProtocolNode (MarineStateEngine F) (Json F)) (event : SequencedEvent (Json F)),
      RejectsCleanly E node event ↔
        let r := payloadsReading E.numbers node.adapterState.zones.keys
          ((node.dueWith event.toExecutionEvent).map (·.payload))
        event.stepType ≠ "SYNC" → r.2.isSome → Restores node.adapterState.zones r.1 := by
  refine ⟨fun _ _ => raisesCleanly_iff, fun node event => ?_⟩
  by_cases h : event.stepType = "SYNC"
  · -- a consensus check is never rejected
    refine iff_of_true (fun hrejected => ?_) fun hne => absurd h hne
    have hack : (node.executeSequencedEvent (marineAdapter E) event).2.ackType
        = (ProtocolNode.executeCore (marineAdapter E) event node.toDistributedStateNode).2.1 := rfl
    rw [hack, ProtocolNode.executeCore, if_pos h] at hrejected
    cases hrejected
  · obtain ⟨hstate, hrejected⟩ := executeSequencedEvent_reading (E := E) node h
    rw [RejectsCleanly, hstate, hrejected, changed_eq_iff]
    exact ⟨fun hclean _ => hclean, fun hclean => hclean h⟩

end MarineStateEngine

/-! ### An entry that is null -/

/-- Exact numbers, and texts in place of their hashes. -/
def exactMarine : MarineEnv ℚ where
  numbers := exactNumbers
  fmt6 q := toString q.num ++ "/" ++ toString q.den
  str v := v.typeName
  sha256 := id

/-- An engine with a single zone. -/
def bowPort : MarineStateEngine ℚ := ⟨.ofList [("BOW_PORT", ⟨0, 1, 35, 0, 0⟩)]⟩

/-- A payload with corrosion at the bow, and a null behind it. -/
def corrosionThenNull : Json ℚ :=
  .dict [("zones", .list
    [.dict [("zone_id", .str "BOW_PORT"),
        ("state_transitions", .dict [("delta_corrosion_mm", .dict [("value", .float 1)])])],
      .null])]

namespace MarineStateEngine

/-- The payload raises at the null, the node rejects it, and the corrosion stays. -/
theorem null_entry_leaves_corrosion :
    let r := bowPort.applyEventPayload exactMarine corrosionThenNull
    let node := ProtocolNode.new "Coastal_Grid_1" bowPort
    let event : SequencedEvent (Json ℚ) := ⟨1, "p-1", "Sensor_1", "STATE_UPDATE", corrosionThenNull⟩
    r.2 = .error ⟨.attributeError, "'NoneType' object has no attribute 'get'"⟩ ∧
      r.1.zones.get? "BOW_PORT" = some ⟨1, 1, 35, 0, 0⟩ ∧
      ¬RaisesCleanly exactMarine bowPort corrosionThenNull ∧
      ¬RejectsCleanly exactMarine node event := by
  intro r node event
  have hraises : r.2 = .error ⟨.attributeError, "'NoneType' object has no attribute 'get'"⟩ := by
    decide +kernel
  refine ⟨hraises, by decide +kernel, fun h => ?_, fun h => ?_⟩
  · exact absurd (h ⟨_, hraises⟩) (by decide +kernel)
  · exact absurd (h (by decide +kernel)) (by decide +kernel)

end MarineStateEngine

end QuantumFoundation
