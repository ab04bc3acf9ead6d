import QuantumFoundation.Physical.SimulationContract

/-!
# The field table of the contract

`integration_contract_dhiraj.md` says of every field what it has to be.  The validator checks the
rules that the same document lists as hard errors; these leave open whether the zones belong to
the simulation of the output, and a rate that is not a number passes them.  So the verdict is that
of the table exactly if a rule is broken, or the fields that no rule is about are as they should
be.
-/

namespace QuantumFoundation

variable {F : Type*} {S : SetEnv F}

/-! ## The checks over all zones -/

/-- The time steps of the zones as the validator collects them. -/
lemma SimulationOutput.mem_dts {output : SimulationOutput F} {x : F} :
    x ∈ output.zones.values.map (·.dt) ↔ ∃ p ∈ output.zones.entries, p.2.dt = x := by
  rw [Dict.values, List.map_map, List.mem_map]
  rfl

namespace ContractValidator

/-- The zones are consistent if the sets of their time steps and versions have one member. -/
lemma consistencyErrors_eq_nil {E : FloatEnv F} {zones : List (SimulationZoneOutput F)} :
    consistencyErrors S E zones = [] ↔ (S.floats (zones.map (·.dt))).length ≤ 1 ∧
      ∀ z ∈ zones, ∀ z' ∈ zones, z.modelVersion = z'.modelVersion := by
  rw [consistencyErrors, List.append_eq_nil_iff, messageIf_eq_nil, messageIf_eq_nil, not_lt, not_lt,
    SetOrder.length_iter_le_one]
  simp

/-- The coverage check.  Without expected zones it is not made, and then nothing is missing. -/
lemma coverage_fst_eq_nil {expectedZones : Option (List String)} {keys : List String} :
    (coverage S expectedZones keys).1 = [] ↔ ∀ zoneId ∈ expectedZones.getD [], zoneId ∈ keys := by
  rw [coverage]
  by_cases hempty : (expectedZones.getD []).isEmpty
  · simp [List.isEmpty_iff.mp hempty]
  · simp [hempty, missing, SetOrder.iter_eq_nil]

end ContractValidator

/-! ## Floats -/

variable [LT F] [LE F]

/-- The float is a number, and not a NaN, which is not even equal to itself. -/
def IsNumber (x : F) : Prop := x ≤ x

/-- `x == y`. -/
def FloatEq (x y : F) : Prop := x ≤ y ∧ y ≤ x

/-- What is used of the comparison of floats: the numbers are in order, and no comparison with a
NaN holds. -/
structure FloatOrder (F : Type*) [LT F] [LE F] [OfScientific F] : Prop where
  isNumber_zero : IsNumber (0.0 : F)
  isNumber_of_le : ∀ {x y : F}, x ≤ y → IsNumber x ∧ IsNumber y
  isNumber_of_lt : ∀ {x y : F}, x < y → IsNumber x ∧ IsNumber y
  lt_iff_not_le : ∀ {x y : F}, IsNumber x → IsNumber y → (x < y ↔ ¬y ≤ x)
  le_trans : ∀ {x y z : F}, x ≤ y → y ≤ z → x ≤ z

/-- The sets are those of the runtime: a float is left out if it is the same object as one that is
in the set already, or equal to it. -/
structure SetEnv.Faithful (S : SetEnv F) : Prop where
  mem : ∀ {l : List F} {x : F}, x ∈ S.floats l → x ∈ l
  covers : ∀ {l : List F} {x : F}, x ∈ l → ∃ y ∈ S.floats l, y = x ∨ FloatEq x y
  distinct : ∀ l : List F, (S.floats l).Pairwise fun x y => ¬FloatEq x y

namespace FloatOrder

variable [OfScientific F] {x : F}

lemma zero_le_iff (h : FloatOrder F) : 0.0 ≤ x ↔ ¬x < 0.0 ∧ IsNumber x := by
  constructor
  · intro hx
    obtain ⟨hzero, hnum⟩ := h.isNumber_of_le hx
    exact ⟨fun hlt => (h.lt_iff_not_le hnum hzero).mp hlt hx, hnum⟩
  · rintro ⟨hlt, hnum⟩
    exact not_not.mp fun hx => hlt ((h.lt_iff_not_le hnum h.isNumber_zero).mpr hx)

lemma zero_lt_iff (h : FloatOrder F) : 0.0 < x ↔ ¬x ≤ 0.0 ∧ IsNumber x := by
  constructor
  · intro hx
    obtain ⟨hzero, hnum⟩ := h.isNumber_of_lt hx
    exact ⟨(h.lt_iff_not_le hzero hnum).mp hx, hnum⟩
  · rintro ⟨hle, hnum⟩
    exact (h.lt_iff_not_le h.isNumber_zero hnum).mpr hle

/-- A set of numbers has at most one member exactly if it was built from equal numbers. -/
lemma length_floats_le_one (h : FloatOrder F) (hS : S.Faithful) {l : List F}
    (hnum : ∀ x ∈ l, IsNumber x) :
    (S.floats l).length ≤ 1 ↔ ∀ x ∈ l, ∀ y ∈ l, FloatEq x y := by
  constructor
  · intro hlen
    -- all numbers are equal to the one member
    have hequal : ∀ x ∈ l, ∀ z ∈ S.floats l, FloatEq x z := by
      intro x hx z hz
      obtain ⟨y, hy, hxy⟩ := hS.covers hx
      obtain ⟨w, hw⟩ := List.length_eq_one_iff.mp (hlen.antisymm (List.length_pos_of_mem hy))
      rw [hw, List.mem_singleton] at hy hz
      obtain rfl : y = z := hy.trans hz.symm
      rcases hxy with rfl | hxy
      · exact ⟨hnum y hx, hnum y hx⟩
      · exact hxy
    intro x hx y hy
    obtain ⟨z, hz, -⟩ := hS.covers hx
    exact ⟨h.le_trans (hequal x hx z hz).1 (hequal y hy z hz).2,
      h.le_trans (hequal y hy z hz).1 (hequal x hx z hz).2⟩
  · intro hall
    have hdistinct := hS.distinct l
    cases hset : S.floats l with
    | nil => simp
    | cons x t =>
      cases t with
      | nil => simp
      | cons y t =>
        rw [hset] at hdistinct
        have hx : x ∈ l := hS.mem (by simp [hset])
        have hy : y ∈ l := hS.mem (by simp [hset])
        exact absurd (hall x hx y hy) (List.rel_of_pairwise_cons hdistinct List.mem_cons_self)

end FloatOrder

/-! ## The table and the rules -/

variable [OfScientific F]

/-- The output is what the field table says. -/
structure MeetsContract (output : SimulationOutput F) (expectedZones : Option (List String)) :
    Prop where
  simulationId_ne : output.simulationId ≠ ""
  modelVersion_ne : output.modelVersion ≠ ""
  zones_ne : output.zones.entries ≠ []
  zoneIds : ∀ p ∈ output.zones.entries, p.2.zoneId = p.1 ∧ p.1 ≠ ""
  rates : ∀ p ∈ output.zones.entries, 0.0 ≤ p.2.corrosionRate ∧
    0.0 ≤ p.2.coatingDegradationRate ∧ 0.0 ≤ p.2.barnacleGrowthRate ∧ 0.0 < p.2.dt
  dts : ∀ p ∈ output.zones.entries, ∀ q ∈ output.zones.entries, FloatEq p.2.dt q.2.dt
  labels : ∀ p ∈ output.zones.entries,
    p.2.simulationId = output.simulationId ∧ p.2.modelVersion = output.modelVersion
  covered : ∀ zoneId ∈ expectedZones.getD [], zoneId ∈ output.zones.keys

/-- The output breaks none of the rules for hard errors. -/
structure KeepsRules (S : SetEnv F) (output : SimulationOutput F)
    (expectedZones : Option (List String)) : Prop where
  simulationId_ne : output.simulationId ≠ ""
  modelVersion_ne : output.modelVersion ≠ ""
  zones_ne : output.zones.entries ≠ []
  zones : ∀ p ∈ output.zones.entries, p.2.zoneId = p.1 ∧ ¬p.2.corrosionRate < 0.0 ∧
    ¬p.2.coatingDegradationRate < 0.0 ∧ ¬p.2.barnacleGrowthRate < 0.0 ∧ ¬p.2.dt ≤ 0.0
  dts : (S.floats (output.zones.values.map (·.dt))).length ≤ 1
  modelVersions : ∀ z ∈ output.zones.values, ∀ z' ∈ output.zones.values,
    z.modelVersion = z'.modelVersion
  covered : ∀ zoneId ∈ expectedZones.getD [], zoneId ∈ output.zones.keys

/-- What the table says and no rule checks: the ids of the zones are not empty, rates and time
steps are numbers, and every zone is labelled like the output. -/
structure BeyondRules (output : SimulationOutput F) : Prop where
  zoneIds_ne : ∀ p ∈ output.zones.entries, p.1 ≠ ""
  numbers : ∀ p ∈ output.zones.entries, IsNumber p.2.corrosionRate ∧
    IsNumber p.2.coatingDegradationRate ∧ IsNumber p.2.barnacleGrowthRate ∧ IsNumber p.2.dt
  labels : ∀ p ∈ output.zones.entries,
    p.2.simulationId = output.simulationId ∧ p.2.modelVersion = output.modelVersion

variable {output : SimulationOutput F} {expectedZones : Option (List String)}

/-- The rules and what is beyond them make up the table. -/
lemma meetsContract_iff (h : FloatOrder F) (hS : S.Faithful) :
    MeetsContract output expectedZones ↔
      KeepsRules S output expectedZones ∧ BeyondRules output := by
  constructor
  · intro hc
    have hnumber : ∀ p ∈ output.zones.entries, IsNumber p.2.dt := fun p hp =>
      (h.zero_lt_iff.mp (hc.rates p hp).2.2.2).2
    refine ⟨⟨hc.simulationId_ne, hc.modelVersion_ne, hc.zones_ne, fun p hp => ?_, ?_, ?_,
      hc.covered⟩, ⟨fun p hp => (hc.zoneIds p hp).2, fun p hp => ?_, hc.labels⟩⟩
    · obtain ⟨hcorrosion, hcoating, hbarnacle, hdt⟩ := hc.rates p hp
      exact ⟨(hc.zoneIds p hp).1, (h.zero_le_iff.mp hcorrosion).1, (h.zero_le_iff.mp hcoating).1,
        (h.zero_le_iff.mp hbarnacle).1, (h.zero_lt_iff.mp hdt).1⟩
    · refine (h.length_floats_le_one hS fun x hx => ?_).mpr fun x hx y hy => ?_
      · obtain ⟨p, hp, rfl⟩ := SimulationOutput.mem_dts.mp hx
        exact hnumber p hp
      · obtain ⟨p, hp, rfl⟩ := SimulationOutput.mem_dts.mp hx
        obtain ⟨q, hq, rfl⟩ := SimulationOutput.mem_dts.mp hy
        exact hc.dts p hp q hq
    · intro z hz z' hz'
      obtain ⟨p, hp, rfl⟩ := List.mem_map.mp hz
      obtain ⟨q, hq, rfl⟩ := List.mem_map.mp hz'
      exact (hc.labels p hp).2.trans (hc.labels q hq).2.symm
    · obtain ⟨hcorrosion, hcoating, hbarnacle, -⟩ := hc.rates p hp
      exact ⟨(h.zero_le_iff.mp hcorrosion).2, (h.zero_le_iff.mp hcoating).2,
        (h.zero_le_iff.mp hbarnacle).2, hnumber p hp⟩
  · rintro ⟨hr, hb⟩
    refine ⟨hr.simulationId_ne, hr.modelVersion_ne, hr.zones_ne, fun p hp =>
      ⟨(hr.zones p hp).1, hb.zoneIds_ne p hp⟩, fun p hp => ?_, fun p hp q hq => ?_, hb.labels,
      hr.covered⟩
    · obtain ⟨-, hcorrosion, hcoating, hbarnacle, hdt⟩ := hr.zones p hp
      obtain ⟨hcorrosion', hcoating', hbarnacle', hdt'⟩ := hb.numbers p hp
      exact ⟨h.zero_le_iff.mpr ⟨hcorrosion, hcorrosion'⟩, h.zero_le_iff.mpr ⟨hcoating, hcoating'⟩,
        h.zero_le_iff.mpr ⟨hbarnacle, hbarnacle'⟩, h.zero_lt_iff.mpr ⟨hdt, hdt'⟩⟩
    · refine (h.length_floats_le_one hS fun x hx => ?_).mp hr.dts _
        (SimulationOutput.mem_dts.mpr ⟨p, hp, rfl⟩) _ (SimulationOutput.mem_dts.mpr ⟨q, hq, rfl⟩)
      obtain ⟨p', hp', rfl⟩ := SimulationOutput.mem_dts.mp hx
      exact (hb.numbers p' hp').2.2.2

namespace ContractValidator

variable [DecidableLT F] [DecidableLE F] {E : FloatEnv F}

/-- **The validator checks the rules.** -/
theorem valid_iff_keepsRules : (validate S E output expectedZones).valid = true ↔
    KeepsRules S output expectedZones := by
  rw [valid_iff, consistencyErrors_eq_nil, coverage_fst_eq_nil]
  simp only [zoneErrors_eq_nil]
  constructor
  · rintro ⟨hid, hversion, hne, hzones, ⟨hdts, hversions⟩, hcovered⟩
    exact ⟨hid, hversion, hne, hzones, hdts, hversions, hcovered⟩
  · intro h
    exact ⟨h.simulationId_ne, h.modelVersion_ne, h.zones_ne, h.zones, ⟨h.dts, h.modelVersions⟩,
      h.covered⟩

/-- The verdict is a matter of the errors alone, whatever the warnings. -/
lemma valid_iff_errors : (validate S E output expectedZones).valid = true ↔
    (validate S E output expectedZones).errors = [] := by
  rw [validate]
  by_cases hz : output.zones.entries.isEmpty = true
  · simp [hz]
  · rw [if_neg hz]
    exact beq_iff_eq.trans List.length_eq_zero_iff

/-- **The verdict and the contract.**  The validator accepts what meets the contract and nothing
else, whatever the warnings, exactly if the output breaks a rule, or is as the table wants it
where there is no rule. -/
theorem validate_contract_iff (h : FloatOrder F) (hS : S.Faithful) (E : FloatEnv F)
    (output : SimulationOutput F) (expectedZones : Option (List String)) :
    (((validate S E output expectedZones).valid = true ↔ MeetsContract output expectedZones) ∧
      ((validate S E output expectedZones).valid = true ↔
        (validate S E output expectedZones).errors = [])) ↔
      (KeepsRules S output expectedZones → BeyondRules output) := by
  rw [and_iff_left valid_iff_errors, valid_iff_keepsRules, meetsContract_iff h hS]
  exact iff_self_and

/-! ### A zone of another simulation -/

/-- Exact numbers are in order, and there is no NaN among them. -/
lemma floatOrder_rat : FloatOrder ℚ where
  isNumber_zero := le_rfl
  isNumber_of_le := fun _ => ⟨le_rfl, le_rfl⟩
  isNumber_of_lt := fun _ => ⟨le_rfl, le_rfl⟩
  lt_iff_not_le := fun _ _ => lt_iff_not_ge
  le_trans := le_trans

lemma exactSets_faithful : exactSets.Faithful where
  mem := List.mem_dedup.mp
  covers := fun hx => ⟨_, List.mem_dedup.mpr hx, Or.inl rfl⟩
  distinct := fun l => l.nodup_dedup.imp fun hne heq => hne (le_antisymm heq.1 heq.2)

theorem validate_contract_iff_bow :
    ((validate exactSets exactEnv (restingOutput ["bow"]) (some ["bow"])).valid = true ↔
        MeetsContract (restingOutput ["bow"]) (some ["bow"])) ∧
      ((validate exactSets exactEnv (restingOutput ["bow"]) (some ["bow"])).valid = true ↔
        (validate exactSets exactEnv (restingOutput ["bow"]) (some ["bow"])).errors = []) :=
  (validate_contract_iff floatOrder_rat exactSets_faithful exactEnv (restingOutput ["bow"])
    (some ["bow"])).mpr fun _ =>
      { zoneIds_ne := by decide
        numbers := fun _ _ => ⟨le_rfl, le_rfl, le_rfl, le_rfl⟩
        labels := by decide }

/-- A bow that belongs to another simulation than the output. -/
def foreignBow : SimulationOutput ℚ :=
  { restingOutput [] with zones := .ofList [("bow", ⟨"bow", 0, 0, 0, 0, 1, "sim-2", "v1"⟩)] }

/-- The output is accepted, and does not meet the contract. -/
theorem foreign_bow_accepted :
    (validate exactSets exactEnv foreignBow (some ["bow"])).valid = true ∧
      ¬MeetsContract foreignBow (some ["bow"]) := by
  refine ⟨by decide +kernel, fun h => ?_⟩
  have hbow := (h.labels _ List.mem_cons_self).1
  exact absurd hbow (by decide)

end ContractValidator

end QuantumFoundation
