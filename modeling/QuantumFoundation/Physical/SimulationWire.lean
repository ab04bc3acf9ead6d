import QuantumFoundation.Physical.SimulationContract

/-!
# The simulation output on the wire

The dictionary form of an output, and the decoder.  `to_dict` writes into every zone its own
simulation id and model version; the decoder reads the fields of a zone from the zone, except for
these two, which it takes from the top level.  So an output comes back as it was exactly if its
zones have the simulation id and the model version of the output.
-/

namespace QuantumFoundation

variable {F : Type}

/-! ## Writing -/

/-- `SimulationZoneOutput.to_dict`. -/
def SimulationZoneOutput.toDict (z : SimulationZoneOutput F) : Json F :=
  .dict
    [("zone_id", .str z.zoneId),
      ("corrosion_rate", .float z.corrosionRate),
      ("coating_degradation_rate", .float z.coatingDegradationRate),
      ("barnacle_growth_rate", .float z.barnacleGrowthRate),
      ("roughness_rate", .float z.roughnessRate),
      ("dt", .float z.dt),
      ("simulation_id", .str z.simulationId),
      ("model_version", .str z.modelVersion)]

/-- `SimulationOutput.to_dict`. -/
def SimulationOutput.toDict (output : SimulationOutput F) : Json F :=
  .dict
    [("simulation_id", .str output.simulationId),
      ("model_version", .str output.modelVersion),
      ("zones", .dict (output.zones.entries.map fun p => (p.1, p.2.toDict))),
      ("metadata", output.metadata)]

/-! ## Reading -/

/-- The output for one zone that `simulation_output_from_dict` constructs. -/
def zoneFromDict (N : NumberEnv F) (data zdata : Json F) :
    Except Raised (SimulationZoneOutput F) := do
  let zoneId ← (← zdata.item "zone_id").toText
  let corrosionRate ← (← zdata.item "corrosion_rate").toFloat N
  let coatingDegradationRate ← (← zdata.item "coating_degradation_rate").toFloat N
  let barnacleGrowthRate ← (← zdata.item "barnacle_growth_rate").toFloat N
  let roughnessRate ← (← zdata.item "roughness_rate").toFloat N
  let dt ← (← zdata.item "dt").toFloat N
  -- the top level is read here, not the zone
  let simulationId ← (← data.item "simulation_id").toText
  let modelVersion ← (← data.item "model_version").toText
  return ⟨zoneId, corrosionRate, coatingDegradationRate, barnacleGrowthRate, roughnessRate, dt,
    simulationId, modelVersion⟩

/-- The loop of `simulation_output_from_dict` over the zones. -/
def zonesFromDict (N : NumberEnv F) (data : Json F) : List (String × Json F) →
    Dict String (SimulationZoneOutput F) → Except Raised (Dict String (SimulationZoneOutput F))
  | [], zones => .ok zones
  | (zid, zdata) :: rest, zones =>
    match zoneFromDict N data zdata with
    | .error exc => .error exc
    | .ok z => zonesFromDict N data rest (zones.set zid z)

/-- `simulation_output_from_dict`. -/
def simulationOutputFromDict (N : NumberEnv F) (data : Json F) :
    Except Raised (SimulationOutput F) := do
  let zones ← zonesFromDict N data (← (← data.get "zones" (.dict [])).items) .empty
  let simulationId ← (← data.item "simulation_id").toText
  let modelVersion ← (← data.item "model_version").toText
  let metadata ← data.get "metadata" (.dict [])
  return ⟨simulationId, modelVersion, zones, metadata⟩

/-! ## What comes back -/

/-- The zone, said to be of another simulation. -/
def SimulationZoneOutput.relabel (z : SimulationZoneOutput F) (simulationId modelVersion : String) :
    SimulationZoneOutput F :=
  { z with simulationId := simulationId, modelVersion := modelVersion }

lemma SimulationZoneOutput.relabel_eq_self {z : SimulationZoneOutput F}
    {simulationId modelVersion : String} : z.relabel simulationId modelVersion = z ↔
      z.simulationId = simulationId ∧ z.modelVersion = modelVersion := by
  cases z
  simp [relabel, eq_comm]

namespace SimulationOutput

variable {N : NumberEnv F} {output : SimulationOutput F}

/-- The output with the simulation id and the model version of the top level in every zone. -/
def leveled (output : SimulationOutput F) : SimulationOutput F :=
  { output with
    zones := output.zones.mapValues fun _ z =>
      z.relabel output.simulationId output.modelVersion }

lemma zoneFromDict_toDict (N : NumberEnv F) (output : SimulationOutput F)
    (z : SimulationZoneOutput F) : zoneFromDict N output.toDict z.toDict
      = .ok (z.relabel output.simulationId output.modelVersion) := rfl

/-- The loop decodes zone by zone. -/
lemma zonesFromDict_toDict (N : NumberEnv F) (output : SimulationOutput F)
    (l : List (String × SimulationZoneOutput F)) (zones : Dict String (SimulationZoneOutput F)) :
    zonesFromDict N output.toDict (l.map fun p => (p.1, p.2.toDict)) zones
      = .ok ((l.map fun p => (p.1, p.2.relabel output.simulationId output.modelVersion)).foldl
          (fun zones p => zones.set p.1 p.2) zones) := by
  induction l generalizing zones with
  | nil => rfl
  | cons p l ih =>
    rw [List.map_cons, zonesFromDict, zoneFromDict_toDict]
    exact ih _

/-- **What comes back** is the output with the labels of the top level in every zone. -/
theorem fromDict_toDict (N : NumberEnv F) (output : SimulationOutput F) :
    simulationOutputFromDict N output.toDict = .ok output.leveled := by
  have hzones : zonesFromDict N output.toDict
      (output.zones.entries.map fun p => (p.1, p.2.toDict)) .empty
      = .ok output.leveled.zones := by
    rw [zonesFromDict_toDict]
    exact congrArg Except.ok (Dict.ofList_entries output.leveled.zones)
  show (zonesFromDict N output.toDict _ .empty).bind _ = _
  rw [hzones]
  rfl

/-- Nothing has to be relabelled exactly if all zones have the labels of the top level. -/
lemma leveled_eq_self : output.leveled = output ↔ ∀ z ∈ output.zones.values,
    z.simulationId = output.simulationId ∧ z.modelVersion = output.modelVersion := by
  have hzones : output.leveled = output ↔ output.leveled.zones = output.zones := by
    cases output
    simp [leveled]
  rw [hzones, leveled, Dict.mapValues_eq_self]
  simp only [SimulationZoneOutput.relabel_eq_self, Dict.mem_values, forall_exists_index]
  exact forall_comm

/-! ### The round trip -/

variable [LT F] [LE F] [OfScientific F] [DecidableLT F] [DecidableLE F]

/-- The decoder gives back the output from its dictionary: every field, the content hash, and the
verdict of the validator for any expected zones. -/
def RoundTrips (S : SetEnv F) (E : FloatEnv F) (N : NumberEnv F) (output : SimulationOutput F) :
    Prop :=
  ∃ decoded, simulationOutputFromDict N output.toDict = .ok decoded ∧ decoded = output ∧
    decoded.contentHash E = output.contentHash E ∧
    ∀ expectedZones, (ContractValidator.validate S E decoded expectedZones).valid
      = (ContractValidator.validate S E output expectedZones).valid

/-- **The round trip.**  An output comes back from the wire exactly if each of its zones has the
simulation id and the model version of the output. -/
theorem from_dict_to_dict_iff (S : SetEnv F) (E : FloatEnv F) (N : NumberEnv F)
    (output : SimulationOutput F) : RoundTrips S E N output ↔ ∀ z ∈ output.zones.values,
      z.simulationId = output.simulationId ∧ z.modelVersion = output.modelVersion := by
  rw [← leveled_eq_self]
  constructor
  · rintro ⟨decoded, hok, heq, -, -⟩
    exact (Except.ok.inj ((fromDict_toDict N output).symm.trans hok)).trans heq
  · intro h
    exact ⟨output, (fromDict_toDict N output).trans (congrArg Except.ok h), rfl, rfl,
      fun _ => rfl⟩

/-- An output whose zones come from two versions of the model. -/
def mixedVersions : SimulationOutput ℚ :=
  { restingOutput [] with
    zones := .ofList [("bow", ⟨"bow", 0, 0, 0, 0, 1, "sim-1", "v1"⟩),
      ("stern", ⟨"stern", 0, 0, 0, 0, 1, "sim-1", "v2"⟩)] }

/-- The output is not valid, and comes back as a valid one. -/
theorem mixed_versions_become_valid :
    (ContractValidator.validate exactSets exactEnv mixedVersions none).valid = false ∧
      (∃ decoded, simulationOutputFromDict exactNumbers mixedVersions.toDict = .ok decoded ∧
        (ContractValidator.validate exactSets exactEnv decoded none).valid = true) ∧
      ¬RoundTrips exactSets exactEnv exactNumbers mixedVersions := by
  refine ⟨by decide +kernel, ⟨_, fromDict_toDict exactNumbers mixedVersions, by decide +kernel⟩, ?_⟩
  rintro ⟨decoded, hok, heq, -, -⟩
  have hleveled : mixedVersions.leveled = mixedVersions :=
    (Except.ok.inj ((fromDict_toDict exactNumbers mixedVersions).symm.trans hok)).trans heq
  have hstern := leveled_eq_self.mp hleveled ⟨"stern", 0, 0, 0, 0, 1, "sim-1", "v2"⟩
    (List.mem_cons_of_mem _ List.mem_cons_self)
  exact absurd hstern.2 (by decide)

end SimulationOutput

end QuantumFoundation
