import QuantumFoundation.Distributed.StateNode
import QuantumFoundation.Json

/-!
# The marine adapter

The adapter of `marine_adapter.py`: the states of the hull zones, and the application of a
payload that comes from outside and may be of any shape.  The entries of a payload go into the
engine one by one, and an exception leaves the loop with the entries before it applied.
-/

namespace QuantumFoundation

variable {F : Type}

/-- What the adapter uses of the runtime to convert, to print and to hash. -/
structure MarineEnv (F : Type) where
  numbers : NumberEnv F
  /-- `format(x, ".6f")`. -/
  fmt6 : F → String
  /-- `str(v)`. -/
  str : Json F → String
  /-- `hashlib.sha256(text.encode("utf-8")).hexdigest()`. -/
  sha256 : String → String

/-! ## Zones -/

/-- The state of a hull zone. -/
structure ZoneState (F : Type) where
  corrosionDepthMm : F
  coatingThicknessMm : F
  roughnessRaUm : F
  foulingCoverageFrac : F
  foulingThicknessMm : F
deriving DecidableEq

section Arithmetic

variable [Add F] [OfScientific F]

/-- `x + delta.get(key, 0.0)`. -/
def addDelta (N : NumberEnv F) (x : F) (delta : Json F) (key : String) : Except Raised F := do
  let value ← delta.get key (.float 0.0)
  let y ← value.addend N
  return x + y

variable [LT F] [DecidableLT F]

/-- `apply_delta`. -/
def ZoneState.applyDelta (N : NumberEnv F) (z : ZoneState F) (delta : Json F) :
    Except Raised (ZoneState F) := do
  let fouling ← addDelta N z.foulingCoverageFrac delta "delta_fouling_coverage"
  let newFouling := pyMin 1.0 (pyMax 0.0 fouling)
  let corrosion ← addDelta N z.corrosionDepthMm delta "delta_corrosion_mm"
  let coating ← addDelta N z.coatingThicknessMm delta "delta_coating_mm"
  let roughness ← addDelta N z.roughnessRaUm delta "delta_roughness_um"
  let thickness ← addDelta N z.foulingThicknessMm delta "delta_fouling_thick_mm"
  return ⟨corrosion, coating, roughness, newFouling, thickness⟩

end Arithmetic

/-! ## The engine -/

/-- The engine: the states of the zones. -/
structure MarineStateEngine (F : Type) where
  zones : Dict String (ZoneState F)
deriving DecidableEq

/-- The value of a transition of an entry: `transitions.get(key, {}).get("value", 0.0)`. -/
def transitionValue [OfScientific F] (transitions : Json F) (key : String) :
    Except Raised (Json F) := do
  let entry ← transitions.get key (.dict [])
  entry.get "value" (.float 0.0)

/-- What the loop of `apply_event_payload` reads from an entry before it calls
`apply_transition`; nothing if the entry is skipped for want of an id. -/
def readZone [LE F] [DecidableLE F] [OfScientific F] (zone : Json F) :
    Except Raised (Option (Json F × Json F)) := do
  let zId ← zone.get "zone_id" .null
  if !zId.truthy then return none
  let transitions ← zone.get "state_transitions" (.dict [])
  let corrosion ← transitionValue transitions "delta_corrosion_mm"
  let coating ← transitionValue transitions "delta_coating_mm"
  let roughness ← transitionValue transitions "delta_roughness_um"
  let coverage ← transitionValue transitions "delta_fouling_coverage"
  let thickness ← transitionValue transitions "delta_fouling_thick_mm"
  return some (zId, .dict
    [("delta_corrosion_mm", corrosion), ("delta_coating_mm", coating),
      ("delta_roughness_um", roughness), ("delta_fouling_coverage", coverage),
      ("delta_fouling_thick_mm", thickness)])

namespace MarineStateEngine

variable [Add F] [LT F] [LE F] [OfScientific F] [DecidableLT F] (E : MarineEnv F)

/-- `apply_transition`.  Only texts are ids of zones; a dict or a list cannot be looked up. -/
def applyTransition (zoneId delta : Json F) (engine : MarineStateEngine F) :
    Attempt (MarineStateEngine F) Unit :=
  let unknown : Raised :=
    ⟨.valueError, "[Marine Engine] Unknown physical zone: " ++ E.str zoneId⟩
  match zoneId with
  | .dict _ | .list _ =>
    (engine, .error ⟨.typeError, "unhashable type: '" ++ zoneId.typeName ++ "'"⟩)
  | .str s =>
    match engine.zones.get? s with
    | none => (engine, .error unknown)
    | some z =>
      match z.applyDelta E.numbers delta with
      | .error exc => (engine, .error exc)
      | .ok z' => ({ zones := engine.zones.set s z' }, .ok ())
  | _ => (engine, .error unknown)

variable [DecidableLE F]

/-- The loop of `apply_event_payload`.  Only a `ValueError` of `apply_transition` is caught. -/
def payloadLoop : List (Json F) → MarineStateEngine F → Attempt (MarineStateEngine F) Unit
  | [], engine => (engine, .ok ())
  | zone :: rest, engine =>
    match readZone zone with
    | .error exc => (engine, .error exc)
    | .ok none => payloadLoop rest engine
    | .ok (some (zId, delta)) =>
      match engine.applyTransition E zId delta with
      | (engine', .ok ()) => payloadLoop rest engine'
      | (engine', .error exc) =>
        if exc.cls = .valueError then payloadLoop rest engine' else (engine', .error exc)

/-- `apply_event_payload`. -/
def applyEventPayload (payload : Json F) (engine : MarineStateEngine F) :
    Attempt (MarineStateEngine F) Unit :=
  match payload.get "zones" (.list []) with
  | .error exc => (engine, .error exc)
  | .ok zonesData =>
    match zonesData.iter with
    | .error exc => (engine, .error exc)
    | .ok zones => payloadLoop E zones engine

/-- `get_state_hash`. -/
def getStateHash (E : MarineEnv F) (engine : MarineStateEngine F) : String :=
  E.sha256 (String.join (engine.zones.sorted.entries.map fun p =>
    p.1 ++ "_".intercalate [E.fmt6 p.2.corrosionDepthMm, E.fmt6 p.2.coatingThicknessMm,
      E.fmt6 p.2.roughnessRaUm, E.fmt6 p.2.foulingCoverageFrac, E.fmt6 p.2.foulingThicknessMm]))

end MarineStateEngine

/-- The engine as the adapter of a node. -/
def marineAdapter [Add F] [LT F] [LE F] [OfScientific F] [DecidableLT F] [DecidableLE F]
    (E : MarineEnv F) : Adapter (MarineStateEngine F) (Json F) where
  applyEventPayload payload engine :=
    match engine.applyEventPayload E payload with
    | (engine', .ok ()) => (engine', none)
    | (engine', .error exc) => (engine', some exc.toPyError)
  getStateHash := MarineStateEngine.getStateHash E

end QuantumFoundation
