import Mathlib.Data.String.Basic
import QuantumFoundation.Python

/-!
# Ship states and state vectors

The data model of `ship_state_vector.py`: the physical state of one hull zone, and the vector
of the states of all zones, kept in the order of the zone ids.  Python floats are a type `F`
with the operations the program uses and no laws; rounding, formatting and SHA-256 are given
by a `FloatEnv`.  So whatever is proved holds of IEEE arithmetic and of exact arithmetic alike.
-/

namespace QuantumFoundation

/-- What the program uses of the runtime to round, to print and to hash. -/
structure FloatEnv (F : Type*) where
  /-- `round(x, 8)`. -/
  round8 : F → F
  /-- `format(x, ".8f")`. -/
  fmt8 : F → String
  /-- `str(x)`. -/
  str : F → String
  /-- `hashlib.sha256(text.encode("utf-8")).hexdigest()`. -/
  sha256 : String → String

variable {F : Type*} [LT F] [OfScientific F]

/-! ## The state of a zone -/

/-- The larger of zero and a number is not negative. -/
lemma not_pyMax_zero_lt [DecidableLT F] (hlt : ∀ a b : F, a < b → ¬b < a) (a : F) :
    ¬pyMax 0.0 a < 0.0 := by
  rw [pyMax]
  split
  · next h => exact hlt _ _ h
  · exact fun h => hlt _ _ h h

/-- `compute_risk_score`. -/
def computeRiskScore [Add F] [Mul F] [Div F] [DecidableLT F] (E : FloatEnv F)
    (corrosionDepth coatingThickness barnacleDensity roughness : F) : F :=
  let coatingInv := 1.0 / pyMax coatingThickness 1e-6
  E.round8 (0.35 * corrosionDepth + 0.25 * coatingInv + 0.20 * barnacleDensity + 0.20 * roughness)

/-- The physical state of a zone.  The last four fields are the checks of the constructor. -/
structure ShipState (F : Type*) [LT F] [OfScientific F] where
  zoneId : String
  corrosionDepth : F
  coatingThickness : F
  barnacleDensity : F
  roughness : F
  riskScore : F
  zoneId_ne : zoneId ≠ ""
  coating_nonneg : ¬coatingThickness < 0.0
  barnacle_nonneg : ¬barnacleDensity < 0.0
  roughness_nonneg : ¬roughness < 0.0

namespace ShipState

instance [DecidableEq F] : DecidableEq (ShipState F) := fun a b =>
  decidable_of_iff (a.zoneId = b.zoneId ∧ a.corrosionDepth = b.corrosionDepth ∧
    a.coatingThickness = b.coatingThickness ∧ a.barnacleDensity = b.barnacleDensity ∧
    a.roughness = b.roughness ∧ a.riskScore = b.riskScore) (by cases a; cases b; simp)

/-- The constructor with the checks of `__post_init__`, in their order. -/
def new [DecidableLT F] (E : FloatEnv F) (zoneId : String) (corrosionDepth coatingThickness
    barnacleDensity roughness riskScore : F) : Except PyError (ShipState F) :=
  if h₁ : zoneId = "" then
    .error (.valueError ("zone_id must be a non-empty string, got: " ++ reprStr zoneId))
  else if h₂ : coatingThickness < 0.0 then
    .error (.valueError ("coating_thickness must be ≥ 0, got: " ++ E.str coatingThickness))
  else if h₃ : barnacleDensity < 0.0 then
    .error (.valueError ("barnacle_density must be ≥ 0, got: " ++ E.str barnacleDensity))
  else if h₄ : roughness < 0.0 then
    .error (.valueError ("roughness must be ≥ 0, got: " ++ E.str roughness))
  else
    .ok ⟨zoneId, corrosionDepth, coatingThickness, barnacleDensity, roughness, riskScore,
      h₁, h₂, h₃, h₄⟩

/-- `create`. -/
def create [Add F] [Mul F] [Div F] [DecidableLT F] (E : FloatEnv F) (zoneId : String)
    (corrosionDepth coatingThickness barnacleDensity roughness : F) :
    Except PyError (ShipState F) :=
  new E zoneId corrosionDepth coatingThickness barnacleDensity roughness
    (computeRiskScore E corrosionDepth coatingThickness barnacleDensity roughness)

/-- `state_hash`. -/
def stateHash (E : FloatEnv F) (s : ShipState F) : String :=
  E.sha256 (s.zoneId ++ E.fmt8 s.corrosionDepth ++ E.fmt8 s.coatingThickness
    ++ E.fmt8 s.barnacleDensity ++ E.fmt8 s.roughness ++ E.fmt8 s.riskScore)

end ShipState

/-! ## The vector of all zones -/

/-- The states of all zones, each filed under its own id, in the order of the ids. -/
structure ShipStateVector (F : Type*) [LT F] [OfScientific F] where
  zones : Dict String (ShipState F)
  keyed : ∀ p ∈ zones.entries, p.2.zoneId = p.1
  sorted : zones.entries.Pairwise fun p q => p.1 ≤ q.1

namespace ShipStateVector

instance [DecidableEq F] : DecidableEq (ShipStateVector F) := fun a b =>
  decidable_of_iff (a.zones = b.zones) (by cases a; cases b; simp)

/-- The constructor: the zones are filed in sorted order, and the first that does not carry the
id it is filed under is an error. -/
def new (zones : Dict String (ShipState F)) : Except PyError (ShipStateVector F) :=
  match h : zones.sorted.entries.find? fun p => p.2.zoneId ≠ p.1 with
  | some p =>
    .error (.valueError ("Zone key '" ++ p.1 ++ "' does not match state.zone_id '"
      ++ p.2.zoneId ++ "'"))
  | none =>
    .ok
      { zones := zones.sorted
        keyed := fun p hp => by simpa using List.find?_eq_none.mp h p hp
        sorted := zones.pairwise_sorted }

/-- `get`. -/
def get (v : ShipStateVector F) (zoneId : String) : Option (ShipState F) := v.zones.get? zoneId

/-- `zone_ids`. -/
def zoneIds (v : ShipStateVector F) : List String := v.zones.sorted.keys

/-- `zone_id in vector`. -/
def contains (v : ShipStateVector F) (zoneId : String) : Bool := v.zones.contains zoneId

/-- The loop of `with_updated_zones` over the updates. -/
def updateLoop (v : ShipStateVector F) : List (String × ShipState F) →
    Dict String (ShipState F) → Except PyError (Dict String (ShipState F))
  | [], newZones => .ok newZones
  | (zid, state) :: rest, newZones =>
    if !v.contains zid then
      .error (.valueError ("Zone '" ++ zid ++ "' does not exist in this vector"))
    else if state.zoneId ≠ zid then
      .error (.valueError ("Zone key '" ++ zid ++ "' ≠ state.zone_id '" ++ state.zoneId ++ "'"))
    else updateLoop v rest (newZones.set zid state)

/-- `with_updated_zones`. -/
def withUpdatedZones (v : ShipStateVector F) (updates : Dict String (ShipState F)) :
    Except PyError (ShipStateVector F) :=
  match updateLoop v updates.entries v.zones with
  | .error exc => .error exc
  | .ok newZones => new newZones

/-- `global_hash`. -/
def globalHash (E : FloatEnv F) (v : ShipStateVector F) : String :=
  E.sha256 (String.join (v.zones.sorted.entries.map fun p => p.1 ++ p.2.stateHash E))

/-- A zone that is found carries the id under which it is found. -/
lemma zoneId_of_get {v : ShipStateVector F} {zoneId : String} {s : ShipState F}
    (h : v.get zoneId = some s) : s.zoneId = zoneId :=
  v.keyed _ (Dict.get?_eq_some.mp h)

lemma contains_iff {v : ShipStateVector F} {zoneId : String} :
    v.contains zoneId = true ↔ ∃ s, v.get zoneId = some s := by
  rw [contains, Dict.contains_eq_true, ← Option.ne_none_iff_exists', get, ne_eq,
    Dict.get?_eq_none, not_not]

lemma mem_zoneIds {v : ShipStateVector F} {zoneId : String} :
    zoneId ∈ v.zoneIds ↔ v.contains zoneId = true := by
  rw [contains, Dict.contains_eq_true, zoneIds, Dict.mem_keys, Dict.mem_keys]
  exact exists_congr fun s => Dict.mem_entries_sorted

/-- There is no zone with an empty id. -/
lemma ne_empty_of_contains {v : ShipStateVector F} {zoneId : String}
    (h : v.contains zoneId = true) : zoneId ≠ "" := by
  obtain ⟨s, hs⟩ := contains_iff.mp h
  rw [← zoneId_of_get hs]
  exact s.zoneId_ne

/-- States that all carry the ids they are filed under make a vector. -/
lemma new_ok {zones : Dict String (ShipState F)} (h : ∀ p ∈ zones.entries, p.2.zoneId = p.1) :
    ∃ v, new zones = .ok v ∧ v.zones = zones.sorted := by
  rw [new]
  split
  · next p hp =>
    have hmem := Dict.mem_entries_sorted.mp (List.mem_of_find?_eq_some hp)
    exact absurd (h p hmem) (by simpa using List.find?_some hp)
  · exact ⟨_, rfl, rfl⟩

/-- An update with a state that carries another id is refused. -/
lemma updateLoop_error {v : ShipStateVector F} {l : List (String × ShipState F)}
    (h : ∃ p ∈ l, p.2.zoneId ≠ p.1) (zones : Dict String (ShipState F)) :
    ∃ exc, v.updateLoop l zones = .error exc := by
  induction l generalizing zones with
  | nil => exact absurd h (by simp)
  | cons q l ih =>
    obtain ⟨zid, s⟩ := q
    rw [updateLoop]
    by_cases hz : v.contains zid = true
    · by_cases hs : s.zoneId = zid
      · obtain ⟨p, hp, hne⟩ := h
        rcases List.mem_cons.mp hp with rfl | hp
        · exact absurd hs hne
        · simpa [hz, hs] using ih ⟨p, hp, hne⟩ _
      · exact ⟨_, by rw [if_neg (by simp [hz]), if_pos hs]⟩
    · exact ⟨_, by rw [if_pos (by simpa using hz)]⟩

/-- Updates of present zones with states that carry their ids go through. -/
lemma updateLoop_ok {v : ShipStateVector F} {l : List (String × ShipState F)}
    (h : ∀ p ∈ l, v.contains p.1 = true ∧ p.2.zoneId = p.1) (zones : Dict String (ShipState F)) :
    v.updateLoop l zones = .ok (l.foldl (fun z p => z.set p.1 p.2) zones) := by
  induction l generalizing zones with
  | nil => rfl
  | cons q l ih =>
    obtain ⟨hz, hs⟩ := h q List.mem_cons_self
    rw [updateLoop, if_neg (by simp [hz]), if_neg (by simp [hs]), List.foldl_cons]
    exact ih (fun p hp => h p (List.mem_cons_of_mem _ hp)) _

lemma withUpdatedZones_error {v : ShipStateVector F} {updates : Dict String (ShipState F)}
    (h : ∃ p ∈ updates.entries, p.2.zoneId ≠ p.1) :
    ∃ exc, v.withUpdatedZones updates = .error exc := by
  obtain ⟨exc, hexc⟩ := updateLoop_error (v := v) h v.zones
  exact ⟨exc, by rw [withUpdatedZones, hexc]⟩

/-- The zones of the updated vector: the updated ones, and the old ones elsewhere. -/
lemma withUpdatedZones_ok {v : ShipStateVector F} {updates : Dict String (ShipState F)}
    (h : ∀ p ∈ updates.entries, v.contains p.1 = true ∧ p.2.zoneId = p.1) :
    ∃ v', v.withUpdatedZones updates = .ok v' ∧
      ∀ zoneId, v'.get zoneId = (updates.get? zoneId).or (v.get zoneId) := by
  have hget := fun k => Dict.get?_foldl_set updates.entries v.zones k
  have hkeyed : ∀ p ∈ (updates.entries.foldl (fun z p => z.set p.1 p.2) v.zones).entries,
      p.2.zoneId = p.1 := by
    intro p hp
    have hp := Dict.get?_eq_some.mpr hp
    rw [hget, Dict.ofList_entries, Option.or_eq_some_iff] at hp
    rcases hp with hp | ⟨-, hp⟩
    · exact (h p (Dict.get?_eq_some.mp hp)).2
    · exact zoneId_of_get hp
  obtain ⟨v', hv', hzones⟩ := new_ok hkeyed
  refine ⟨v', by rw [withUpdatedZones, updateLoop_ok h]; exact hv', fun zoneId => ?_⟩
  rw [get, hzones, Dict.get?_sorted, hget, Dict.ofList_entries]
  rfl

end ShipStateVector

end QuantumFoundation
