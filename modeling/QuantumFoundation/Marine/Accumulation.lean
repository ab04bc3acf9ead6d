import Mathlib.Algebra.BigOperators.Group.List.Basic
import Mathlib.Algebra.Order.Ring.Rat
import Mathlib.Tactic.NormNum.OfScientific
import QuantumFoundation.Marine.Rejection

/-!
# Accumulated wear

What a sequence of accepted payloads makes of the zones in exact arithmetic.  A zone sees the deltas
that are addressed to it and nothing else.  Four of its fields add them up, so the order does not
matter; the coverage is clamped after each delta, so for it the order does matter, but it stays
between zero and one.
-/

namespace QuantumFoundation

/-! ### The deltas of a zone -/

section Reading

variable {F : Type} [LE F] [DecidableLE F] [OfScientific F] {N : NumberEnv F}
  {known : List String} {zoneId : String}

/-- The entries of a payload. -/
def payloadEntries (payload : Json F) : List (Json F) :=
  match (payload.get "zones" (.list [])).bind Json.iter with
  | .ok entries => entries
  | .error _ => []

/-- The delta of an entry, if it is addressed to the zone. -/
def entryDelta (N : NumberEnv F) (zoneId : String) (entry : Json F) : Option (ZoneChange F) :=
  match readZone entry with
  | .ok (some (.str s, delta)) => if s = zoneId then (readDelta N delta).toOption else none
  | _ => none

/-- The deltas that the payloads address to the zone. -/
def deltasOf (N : NumberEnv F) (zoneId : String) (payloads : List (Json F)) :
    List (ZoneChange F) := (payloads.flatMap payloadEntries).filterMap (entryDelta N zoneId)

/-- An entry that does not raise changes a known zone by the delta that is addressed to it. -/
lemma filter_entryChange (hknown : zoneId ∈ known) {entry : Json F}
    {change : Option (String × ZoneChange F)} (h : entryChange N known entry = .ok change) :
    (change.toList.filter fun c => c.1 = zoneId).map Prod.snd
      = (entryDelta N zoneId entry).toList := by
  rw [entryChange] at h
  rw [entryDelta]
  rcases hread : readZone entry with exc | _ | ⟨zId, delta⟩
  · simp [hread] at h
  · simp only [hread, Except.ok.injEq] at h
    simp [← h]
  · cases zId with
    | str s =>
      simp only [hread] at h
      by_cases hs : s = zoneId
      · rw [if_pos (hs ▸ hknown)] at h
        cases hdelta : readDelta N delta with
        | error exc => simp [hdelta, Except.map] at h
        | ok c =>
          rw [hdelta] at h
          simp [← Except.ok.inj h, hs, hdelta, Except.toOption]
      · by_cases hmem : s ∈ known
        · rw [if_pos hmem] at h
          cases hdelta : readDelta N delta with
          | error exc => simp [hdelta, Except.map] at h
          | ok c =>
            rw [hdelta] at h
            simp [← Except.ok.inj h, hs]
        · rw [if_neg hmem] at h
          simp [← Except.ok.inj h, hs]
    | dict entries => simp [hread] at h
    | list items => simp [hread] at h
    | _ =>
      -- another value is the id of no zone
      simp only [hread, Except.ok.injEq] at h
      simp [← h]

lemma filter_entriesReading (hknown : zoneId ∈ known) {entries : List (Json F)}
    (h : (entriesReading N known entries).2 = none) :
    ((entriesReading N known entries).1.filter fun c => c.1 = zoneId).map Prod.snd
      = entries.filterMap (entryDelta N zoneId) := by
  induction entries with
  | nil => rfl
  | cons entry rest ih =>
    rw [entriesReading] at h ⊢
    cases hchange : entryChange N known entry with
    | error exc => simp [hchange] at h
    | ok change =>
      simp only [hchange] at h ⊢
      rw [List.filter_append, List.map_append, filter_entryChange hknown hchange, ih h]
      cases hdelta : entryDelta N zoneId entry <;> simp [hdelta]

lemma filter_payloadReading (hknown : zoneId ∈ known) {payload : Json F}
    (h : (payloadReading N known payload).2 = none) :
    ((payloadReading N known payload).1.filter fun c => c.1 = zoneId).map Prod.snd
      = (payloadEntries payload).filterMap (entryDelta N zoneId) := by
  rw [payloadReading] at h ⊢
  rw [payloadEntries]
  cases hzones : payload.get "zones" (.list []) with
  | error exc => simp [hzones] at h
  | ok zonesData =>
    cases hiter : zonesData.iter with
    | error exc => simp [hzones, hiter] at h
    | ok entries =>
      simp only [hzones, hiter] at h ⊢
      refine (filter_entriesReading hknown h).trans ?_
      simp only [Except.bind, hiter]

/-- **Reading.**  What accepted payloads ask of a known zone are the deltas addressed to it. -/
theorem filter_payloadsReading (hknown : zoneId ∈ known) {payloads : List (Json F)}
    (h : (payloadsReading N known payloads).2 = none) :
    ((payloadsReading N known payloads).1.filter fun c => c.1 = zoneId).map Prod.snd
      = deltasOf N zoneId payloads := by
  induction payloads with
  | nil => rfl
  | cons payload rest ih =>
    rw [payloadsReading] at h ⊢
    rcases hread : payloadReading N known payload with ⟨changes, _ | exc⟩
    · have hpayload := filter_payloadReading hknown (congrArg Prod.snd hread)
      rw [hread] at h hpayload
      simp only at h ⊢
      rw [List.filter_append, List.map_append, ih h, hpayload, deltasOf, deltasOf,
        List.flatMap_cons, List.filterMap_append]
    · simp [hread] at h

end Reading

/-! ### Runs -/

section Runs

variable {F : Type} [LE F] [DecidableLE F] [OfScientific F] [Add F] [LT F] [DecidableLT F]
  (E : MarineEnv F)

/-- A sequence of payloads, up to the first one that raises. -/
def MarineStateEngine.applyPayloads : List (Json F) → MarineStateEngine F →
    Attempt (MarineStateEngine F) Unit
  | [], engine => (engine, .ok ())
  | payload :: rest, engine =>
    match engine.applyEventPayload E payload with
    | (engine, .error exc) => (engine, .error exc)
    | (engine, .ok ()) => applyPayloads rest engine

/-- **Run lemma.**  The payloads make the changes in front of the first malformed entry. -/
theorem MarineStateEngine.applyPayloads_eq (payloads : List (Json F))
    (engine : MarineStateEngine F) : engine.applyPayloads E payloads =
      (⟨changed (payloadsReading E.numbers engine.zones.keys payloads).1 engine.zones⟩,
        outcome (payloadsReading E.numbers engine.zones.keys payloads).2) := by
  induction payloads generalizing engine with
  | nil => simp [applyPayloads, payloadsReading, outcome]
  | cons payload rest ih =>
    rw [applyPayloads, applyEventPayload_eq, payloadsReading]
    rcases payloadReading E.numbers engine.zones.keys payload with ⟨changes, _ | exc⟩
    · show MarineStateEngine.applyPayloads E rest ⟨changed changes engine.zones⟩ = _
      simp only [ih, keys_changed, changed_append]
    · rfl

omit [LE F] [DecidableLE F] in
lemma ZoneState.after_eq (z : ZoneState F) (changes : List (String × ZoneChange F))
    (zoneId : String) : z.after changes zoneId
      = ((changes.filter fun c => c.1 = zoneId).map Prod.snd).foldl plus z := by
  rw [after, List.foldl_map]

variable {E}

/-- The ids of the zones stay. -/
lemma MarineStateEngine.keys_of_applyPayloads {payloads : List (Json F)}
    {engine engine' : MarineStateEngine F}
    (h : engine.applyPayloads E payloads = (engine', .ok ())) :
    engine'.zones.keys = engine.zones.keys := by
  rw [applyPayloads_eq] at h
  rw [← (Prod.mk.inj h).1, keys_changed]

/-- A zone after accepted payloads: the deltas addressed to it, one after the other. -/
lemma MarineStateEngine.get?_of_applyPayloads {payloads : List (Json F)}
    {engine engine' : MarineStateEngine F} {zoneId : String} {z : ZoneState F}
    (h : engine.applyPayloads E payloads = (engine', .ok ()))
    (hz : engine.zones.get? zoneId = some z) :
    engine'.zones.get? zoneId = some ((deltasOf E.numbers zoneId payloads).foldl .plus z) := by
  rw [applyPayloads_eq] at h
  obtain ⟨hengine, hok⟩ := Prod.mk.inj h
  have hnone : (payloadsReading E.numbers engine.zones.keys payloads).2 = none := by
    cases hr : (payloadsReading E.numbers engine.zones.keys payloads).2 with
    | none => rfl
    | some exc => simp [hr, outcome] at hok
  rw [← hengine, ← filter_payloadsReading (Dict.mem_keys_of_get? hz) hnone, ← ZoneState.after_eq]
  exact (Dict.get?_mapValues _ _ _).trans (by rw [hz]; rfl)

end Runs

/-! ### Exact arithmetic -/

variable {F : Type} [Field F] [LinearOrder F] [IsStrictOrderedRing F]

/-- The second state of a zone is the first one after the deltas, in some order. -/
structure ZoneState.Accumulates (deltas : List (ZoneChange F)) (z z' : ZoneState F) : Prop where
  corrosion : z'.corrosionDepthMm = z.corrosionDepthMm + (deltas.map (·.corrosion)).sum
  coating : z'.coatingThicknessMm = z.coatingThicknessMm + (deltas.map (·.coating)).sum
  roughness : z'.roughnessRaUm = z.roughnessRaUm + (deltas.map (·.roughness)).sum
  thickness : z'.foulingThicknessMm = z.foulingThicknessMm + (deltas.map (·.foulingThickness)).sum
  coverage : deltas ≠ [] → 0 ≤ z'.foulingCoverageFrac ∧ z'.foulingCoverageFrac ≤ 1
  untouched : deltas = [] → z' = z

/-- What the coverage is clamped to. -/
lemma clamp_mem (x : F) :
    0 ≤ pyMin 1.0 (pyMax 0.0 x) ∧ pyMin 1.0 (pyMax 0.0 x) ≤ 1 := by
  have hzero : (0.0 : F) = 0 := by norm_num
  have hone : (1.0 : F) = 1 := by norm_num
  rw [pyMin, pyMax, hzero, hone]
  split_ifs with hneg hlarge hlarge
  · exact ⟨hneg.le, hlarge.le⟩
  · exact ⟨zero_le_one, le_rfl⟩
  · exact ⟨le_rfl, zero_le_one⟩
  · exact ⟨zero_le_one, le_rfl⟩

omit [IsStrictOrderedRing F] in
/-- A field that a delta adds to adds up. -/
lemma foldl_plus {field : ZoneState F → F} {part : ZoneChange F → F}
    (hplus : ∀ z c, field (.plus z c) = field z + part c) (deltas : List (ZoneChange F))
    (z : ZoneState F) :
    field (deltas.foldl .plus z) = field z + (deltas.map part).sum := by
  induction deltas generalizing z with
  | nil => rw [List.foldl_nil, List.map_nil, List.sum_nil, add_zero]
  | cons c deltas ih =>
    rw [List.foldl_cons, ih, hplus, List.map_cons, List.sum_cons, add_assoc]

lemma ZoneState.accumulates_foldl (deltas : List (ZoneChange F)) (z : ZoneState F) :
    z.Accumulates deltas (deltas.foldl plus z) where
  corrosion := foldl_plus (fun _ _ => rfl) deltas z
  coating := foldl_plus (fun _ _ => rfl) deltas z
  roughness := foldl_plus (fun _ _ => rfl) deltas z
  thickness := foldl_plus (fun _ _ => rfl) deltas z
  coverage hne := by
    -- the last delta clamps
    obtain ⟨front, last, rfl⟩ := List.eq_nil_or_concat deltas |>.resolve_left hne
    rw [List.concat_eq_append, List.foldl_append]
    exact clamp_mem _
  untouched h := by rw [h, List.foldl_nil]

omit [IsStrictOrderedRing F] in
/-- The fields that add up are the same after the same deltas in another order. -/
lemma ZoneState.Accumulates.eq_of_perm {deltas deltas' : List (ZoneChange F)}
    {z z' z'' : ZoneState F} (h : z.Accumulates deltas z') (h' : z.Accumulates deltas' z'')
    (hperm : deltas.Perm deltas') : z'.corrosionDepthMm = z''.corrosionDepthMm ∧
      z'.coatingThicknessMm = z''.coatingThicknessMm ∧
      z'.roughnessRaUm = z''.roughnessRaUm ∧
      z'.foulingThicknessMm = z''.foulingThicknessMm := by
  rw [h.corrosion, h'.corrosion, h.coating, h'.coating, h.roughness, h'.roughness, h.thickness,
    h'.thickness, (hperm.map _).sum_eq, (hperm.map _).sum_eq, (hperm.map _).sum_eq,
    (hperm.map _).sum_eq]
  exact ⟨rfl, rfl, rfl, rfl⟩

namespace MarineStateEngine

variable {E : MarineEnv F}

/-- **Accumulation.**  Accepted payloads leave the ids of the zones, bring each zone to where the
deltas that are addressed to it, one after the other, bring it, and these add up; and for the
fields that add up the order of payloads and entries is of no matter. -/
theorem zones_accumulate {payloads : List (Json F)} {engine engine' : MarineStateEngine F}
    (h : engine.applyPayloads E payloads = (engine', .ok ())) :
    engine'.zones.keys = engine.zones.keys ∧
    (∀ zoneId z, engine.zones.get? zoneId = some z → ∃ z', engine'.zones.get? zoneId = some z' ∧
      z' = (deltasOf E.numbers zoneId payloads).foldl .plus z ∧
      z.Accumulates (deltasOf E.numbers zoneId payloads) z') ∧
    ∀ payloads' engine'', engine.applyPayloads E payloads' = (engine'', .ok ()) →
      (payloads.flatMap payloadEntries).Perm (payloads'.flatMap payloadEntries) →
      ∀ zoneId z' z'', engine'.zones.get? zoneId = some z' →
        engine''.zones.get? zoneId = some z'' →
        z'.corrosionDepthMm = z''.corrosionDepthMm ∧
          z'.coatingThicknessMm = z''.coatingThicknessMm ∧
          z'.roughnessRaUm = z''.roughnessRaUm ∧
          z'.foulingThicknessMm = z''.foulingThicknessMm := by
  refine ⟨keys_of_applyPayloads h, fun zoneId z hz => ⟨_, get?_of_applyPayloads h hz, rfl,
    ZoneState.accumulates_foldl _ z⟩, fun payloads' engine'' h' hperm zoneId z' z'' hz' hz'' => ?_⟩
  have hmem : zoneId ∈ engine.zones.keys := keys_of_applyPayloads h ▸ Dict.mem_keys_of_get? hz'
  obtain ⟨z, hentry⟩ := Dict.mem_keys.mp hmem
  have hz := Dict.get?_eq_some.mpr hentry
  rw [get?_of_applyPayloads h hz, Option.some.injEq] at hz'
  rw [get?_of_applyPayloads h' hz, Option.some.injEq] at hz''
  rw [← hz', ← hz'']
  exact (ZoneState.accumulates_foldl _ z).eq_of_perm (ZoneState.accumulates_foldl _ z)
    (hperm.filterMap _)

/-- An entry with corrosion for a zone. -/
def corrosionEntry (zoneId : String) (x : ℚ) : Json ℚ :=
  .dict [("zone_id", .str zoneId),
    ("state_transitions", .dict [("delta_corrosion_mm", .dict [("value", .float x)])])]

/-- Two payloads, with an entry for a zone that is not known. -/
def corrosionPayloads : List (Json ℚ) :=
  [.dict [("zones", .list [corrosionEntry "BOW_PORT" 1, corrosionEntry "STERN" 7])],
    .dict [("zones", .list [corrosionEntry "BOW_PORT" 2])]]

theorem bowPort_accumulates : ∃ z',
    (bowPort.applyPayloads exactMarine corrosionPayloads).1.zones.get? "BOW_PORT" = some z' ∧
      z'.corrosionDepthMm = 3 ∧ 0 ≤ z'.foulingCoverageFrac := by
  have haccepted : bowPort.applyPayloads exactMarine corrosionPayloads
      = ((bowPort.applyPayloads exactMarine corrosionPayloads).1, .ok ()) :=
    Prod.ext rfl (by decide +kernel)
  obtain ⟨-, hzones, -⟩ := zones_accumulate haccepted
  obtain ⟨z', hz', -, hsum⟩ := hzones "BOW_PORT" ⟨0, 1, 35, 0, 0⟩ (by decide +kernel)
  refine ⟨z', hz', hsum.corrosion.trans (by decide +kernel), (hsum.coverage ?_).1⟩
  exact fun hnil => absurd (congrArg List.length hnil) (by decide +kernel)

end MarineStateEngine

end QuantumFoundation
