import QuantumFoundation.Physical.Renderings
import QuantumFoundation.Physical.SimulationContract

/-!
# What is hashed

The texts that `input_hash`, `state_hash` and `content_hash` give to the digest: names and numbers
with eight decimals, put together without anything between them, as `state_vector_schema.md` lays
down.  Digits at the end of a name are taken for the beginning of the number behind it, so such a
text fixes the names only where it is known that none of them continues another.
-/

namespace QuantumFoundation

/-! ### A name and numbers -/

/-- The two names with a number behind them read the same: one of the names is the other with
something behind it, with which the number behind the other begins. -/
def Shifted (z r z' r' : String) : Prop :=
  ∃ u, z' = z ++ u ∧ r = u ++ r' ∨ z = z' ++ u ∧ r' = u ++ r

section Texts

variable {F : Type*} {E : FloatEnv F} {z z' : String} {x x' : F} {l l' : List F}

lemma mem_renderings_of_mem (hfmt : ∀ x, E.fmt8 x ∈ renderings) (l : List F) :
    ∀ s ∈ l.map E.fmt8, s ∈ renderings := by
  intro s hs
  obtain ⟨x, -, rfl⟩ := List.mem_map.mp hs
  exact hfmt x

/-- A name with numbers behind it. -/
def namedText (E : FloatEnv F) (z : String) (l : List F) : String :=
  z ++ String.join (l.map E.fmt8)

/-- **What a name with numbers fixes**: all numbers but the first, and the name with the first
number behind it. -/
theorem namedText_eq_iff (hfmt : ∀ x, E.fmt8 x ∈ renderings) (hlen : l.length = l'.length) :
    namedText E z (x :: l) = namedText E z' (x' :: l') ↔
      Shifted z (E.fmt8 x) z' (E.fmt8 x') ∧ l.map E.fmt8 = l'.map E.fmt8 := by
  rw [namedText, namedText, List.map_cons, List.map_cons, String.join_cons, String.join_cons]
  exact text_eq_iff (hfmt x) (hfmt x') (mem_renderings_of_mem hfmt l)
    (mem_renderings_of_mem hfmt l') (by rw [List.length_map, List.length_map, hlen])

/-- A name with numbers is read, if it is known not to continue, or to begin, the other name. -/
lemma namedText_append_inj (hfmt : ∀ x, E.fmt8 x ∈ renderings) (hz : Separable z z')
    (hlen : l.length = l'.length) {a b : String}
    (h : namedText E z l ++ a = namedText E z' l' ++ b) :
    (z = z' ∧ l.map E.fmt8 = l'.map E.fmt8) ∧ a = b := by
  rw [namedText, namedText, String.append_assoc, String.append_assoc] at h
  obtain ⟨hname, hrest⟩ := hz.append_inj h
  obtain ⟨hnumbers, hab⟩ := prefixFree_renderings.join_append_inj (mem_renderings_of_mem hfmt l)
    (mem_renderings_of_mem hfmt l') (by rw [List.length_map, List.length_map, hlen]) hrest
  exact ⟨⟨hname, hnumbers⟩, hab⟩

/-- Names that do not continue each other can be told apart, and so can their numbers. -/
lemma namedText_eq_iff_of_separable (hfmt : ∀ x, E.fmt8 x ∈ renderings) (hz : Separable z z')
    (hlen : l.length = l'.length) :
    namedText E z l = namedText E z' l' ↔ z = z' ∧ l.map E.fmt8 = l'.map E.fmt8 := by
  constructor
  · intro h
    have happend : namedText E z l ++ "" = namedText E z' l' ++ "" := by rw [h]
    exact (namedText_append_inj hfmt hz hlen happend).1
  · rintro ⟨rfl, hnumbers⟩
    rw [namedText, namedText, hnumbers]

end Texts

/-! ### The texts -/

section Inputs

variable {F : Type*} [LT F] [LE F] [OfScientific F]

/-- The numbers of an input, in the order in which they are hashed. -/
def TransitionInput.rates (inp : TransitionInput F) : List F :=
  [inp.corrosionRate, inp.coatingDegradationRate, inp.barnacleGrowthRate, inp.roughnessRate, inp.dt]

/-- What `input_hash` hashes. -/
def TransitionInput.hashedText (E : FloatEnv F) (inp : TransitionInput F) : String :=
  namedText E inp.zoneId inp.rates

theorem TransitionInput.inputHash_eq (E : FloatEnv F) (inp : TransitionInput F) :
    inp.inputHash E = E.sha256 (inp.hashedText E) := by
  simp [inputHash, hashedText, namedText, rates, String.append_assoc]

/-- **Inputs.** -/
theorem TransitionInput.hashedText_eq_iff {E : FloatEnv F}
    (hfmt : ∀ x, E.fmt8 x ∈ renderings) (a b : TransitionInput F) :
    a.hashedText E = b.hashedText E ↔
      Shifted a.zoneId (E.fmt8 a.corrosionRate) b.zoneId (E.fmt8 b.corrosionRate) ∧
        a.rates.tail.map E.fmt8 = b.rates.tail.map E.fmt8 :=
  namedText_eq_iff hfmt rfl

end Inputs

section States

variable {F : Type*} [LT F] [OfScientific F]

/-- The numbers of a state, in the order in which they are hashed. -/
def ShipState.fields (s : ShipState F) : List F :=
  [s.corrosionDepth, s.coatingThickness, s.barnacleDensity, s.roughness, s.riskScore]

/-- What `state_hash` hashes. -/
def ShipState.hashedText (E : FloatEnv F) (s : ShipState F) : String :=
  namedText E s.zoneId s.fields

lemma ShipState.stateHash_eq (E : FloatEnv F) (s : ShipState F) :
    s.stateHash E = E.sha256 (s.hashedText E) := by
  simp [stateHash, hashedText, namedText, fields, String.append_assoc]

/-- **States.** -/
theorem ShipState.hashedText_eq_iff {E : FloatEnv F}
    (hfmt : ∀ x, E.fmt8 x ∈ renderings) (a b : ShipState F) :
    a.hashedText E = b.hashedText E ↔
      Shifted a.zoneId (E.fmt8 a.corrosionDepth) b.zoneId (E.fmt8 b.corrosionDepth) ∧
        a.fields.tail.map E.fmt8 = b.fields.tail.map E.fmt8 :=
  namedText_eq_iff hfmt rfl

end States

section Outputs

variable {F : Type*}

/-- The numbers of a zone of an output, in the order in which they are hashed. -/
def SimulationZoneOutput.rates (z : SimulationZoneOutput F) : List F :=
  [z.corrosionRate, z.coatingDegradationRate, z.barnacleGrowthRate, z.roughnessRate, z.dt]

/-- What `content_hash` hashes of a zone. -/
def zoneText (E : FloatEnv F) (p : String × SimulationZoneOutput F) : String :=
  namedText E p.1 p.2.rates

/-- What `content_hash` hashes. -/
def SimulationOutput.hashedText (E : FloatEnv F) (output : SimulationOutput F) : String :=
  output.simulationId ++ (output.modelVersion ++
    String.join (output.zones.sorted.entries.map (zoneText E)))

theorem SimulationOutput.contentHash_eq (E : FloatEnv F) (output : SimulationOutput F) :
    output.contentHash E = E.sha256 (output.hashedText E) := by
  have hzone : ∀ p : String × SimulationZoneOutput F,
      p.1 ++ E.fmt8 p.2.corrosionRate ++ E.fmt8 p.2.coatingDegradationRate
        ++ E.fmt8 p.2.barnacleGrowthRate ++ E.fmt8 p.2.roughnessRate ++ E.fmt8 p.2.dt
      = zoneText E p := by
    intro p
    simp [zoneText, namedText, SimulationZoneOutput.rates, String.append_assoc]
  rw [contentHash, hashedText, String.append_assoc]
  simp only [hzone]

lemma map_zoneText_eq {E : FloatEnv F} {l m : List (String × SimulationZoneOutput F)}
    (h : List.Forall₂ (fun p q => p.1 = q.1 ∧ p.2.rates.map E.fmt8 = q.2.rates.map E.fmt8) l m) :
    l.map (zoneText E) = m.map (zoneText E) := by
  refine List.forall₂_eq_eq_eq ▸ (List.forall₂_map_left_iff.mpr (List.forall₂_map_right_iff.mpr ?_))
  exact h.imp fun p q hpq => by rw [zoneText, zoneText, namedText, namedText, hpq.1, hpq.2]

/-- The names of the outputs do not continue each other where they stand at the same place. -/
structure SimulationOutput.NamesApart (a b : SimulationOutput F) : Prop where
  simulationId : Separable a.simulationId b.simulationId
  modelVersion : Separable a.modelVersion b.modelVersion
  zones : ∀ p ∈ a.zones.sorted.entries.zip b.zones.sorted.entries, Separable p.1.1 p.2.1

/-- **Outputs.**  Where the names do not continue each other, the text of an output fixes them,
the zones and the numbers of the zones. -/
theorem SimulationOutput.eq_of_hashedText_eq {E : FloatEnv F}
    (hfmt : ∀ x, E.fmt8 x ∈ renderings) {a b : SimulationOutput F} (hab : a.NamesApart b)
    (h : a.hashedText E = b.hashedText E) :
    a.simulationId = b.simulationId ∧ a.modelVersion = b.modelVersion ∧
      List.Forall₂ (fun p q => p.1 = q.1 ∧ p.2.rates.map E.fmt8 = q.2.rates.map E.fmt8)
        a.zones.sorted.entries b.zones.sorted.entries := by
  have hne : ∀ p : String × SimulationZoneOutput F, zoneText E p ≠ "" := by
    intro p hp
    have hnumber := Rendering.countP_isMark (hfmt p.2.corrosionRate)
    simp only [zoneText, namedText, SimulationZoneOutput.rates, List.map_cons, String.join_cons,
      String.append_eq_empty_iff] at hp
    rw [hp.2.1] at hnumber
    exact absurd hnumber (by decide)
  have hread : ∀ p ∈ a.zones.sorted.entries.zip b.zones.sorted.entries,
      ReadsAs (zoneText E) (fun p q => p.1 = q.1 ∧ p.2.rates.map E.fmt8 = q.2.rates.map E.fmt8)
        p.1 p.2 := by
    intro p hp x y hxy
    have hlen : p.1.2.rates.length = p.2.2.rates.length := rfl
    exact namedText_append_inj hfmt (hab.zones p hp) hlen hxy
  obtain ⟨hsimulation, hrest⟩ := hab.simulationId.append_inj h
  obtain ⟨hmodel, hzones⟩ := hab.modelVersion.append_inj hrest
  exact ⟨hsimulation, hmodel,
    forall₂_of_join_eq hread (fun p _ => hne p) (fun p _ => hne p) hzones⟩

end Outputs

/-! ### What the texts fix -/

/-- **What is hashed.**  The text of an input and the text of a state fix everything but where
the zone id ends and the first number begins, and they fix this too if neither of the zone ids
continues the other.  So it is for the text of an output and all its names. -/
theorem preimages_unambiguous {F : Type*} [LT F] [LE F] [OfScientific F] {E : FloatEnv F}
    (hfmt : ∀ x, E.fmt8 x ∈ renderings) :
    (∀ a b : TransitionInput F,
      (a.hashedText E = b.hashedText E ↔
        Shifted a.zoneId (E.fmt8 a.corrosionRate) b.zoneId (E.fmt8 b.corrosionRate) ∧
          a.rates.tail.map E.fmt8 = b.rates.tail.map E.fmt8) ∧
      (Separable a.zoneId b.zoneId →
        (a.hashedText E = b.hashedText E ↔
          a.zoneId = b.zoneId ∧ a.rates.map E.fmt8 = b.rates.map E.fmt8))) ∧
    (∀ a b : ShipState F,
      (a.hashedText E = b.hashedText E ↔
        Shifted a.zoneId (E.fmt8 a.corrosionDepth) b.zoneId (E.fmt8 b.corrosionDepth) ∧
          a.fields.tail.map E.fmt8 = b.fields.tail.map E.fmt8) ∧
      (Separable a.zoneId b.zoneId →
        (a.hashedText E = b.hashedText E ↔
          a.zoneId = b.zoneId ∧ a.fields.map E.fmt8 = b.fields.map E.fmt8))) ∧
    ∀ a b : SimulationOutput F, a.NamesApart b →
      (a.hashedText E = b.hashedText E ↔
        a.simulationId = b.simulationId ∧ a.modelVersion = b.modelVersion ∧
          List.Forall₂ (fun p q => p.1 = q.1 ∧ p.2.rates.map E.fmt8 = q.2.rates.map E.fmt8)
            a.zones.sorted.entries b.zones.sorted.entries) := by
  refine ⟨fun a b => ⟨a.hashedText_eq_iff hfmt b, fun hz => ?_⟩,
    fun a b => ⟨a.hashedText_eq_iff hfmt b, fun hz => ?_⟩, fun a b hab => ?_⟩
  · exact namedText_eq_iff_of_separable hfmt hz rfl
  · exact namedText_eq_iff_of_separable hfmt hz rfl
  · refine ⟨SimulationOutput.eq_of_hashedText_eq hfmt hab, fun ⟨hsimulation, hmodel, hzones⟩ => ?_⟩
    rw [SimulationOutput.hashedText, SimulationOutput.hashedText, hsimulation, hmodel,
      map_zoneText_eq hzones]

/-- A state of a zone with nothing but a depth of corrosion. -/
def corroded (zoneId : String) (h : zoneId ≠ "") (corrosionDepth : ℚ) : ShipState ℚ :=
  { restingZone zoneId h with corrosionDepth := corrosionDepth }

/-- An input for a zone with nothing but a rate of corrosion. -/
def corroding (zoneId : String) (h : zoneId ≠ "") (corrosionRate : ℚ)
    (hrate : ¬corrosionRate < 0.0) : TransitionInput ℚ :=
  { restingInput zoneId h with corrosionRate := corrosionRate, corrosion_nonneg := hrate }

/-- A simulation under other names. -/
def renamedOutput (simulationId modelVersion : String) : SimulationOutput ℚ :=
  { restingOutput ["bow"] with simulationId := simulationId, modelVersion := modelVersion }

theorem preimages_unambiguous_decimal :
    (corroding "frame 1" (by decide) 2 (by norm_num)).hashedText decimalEnv
        ≠ (corroding "frame 2" (by decide) 12 (by norm_num)).hashedText decimalEnv ∧
      (corroded "frame 1" (by decide) 2).hashedText decimalEnv
        ≠ (corroded "frame 2" (by decide) 12).hashedText decimalEnv ∧
      (renamedOutput "sim-1" "v1").hashedText decimalEnv
        ≠ (renamedOutput "sim-2" "v1").hashedText decimalEnv := by
  obtain ⟨hinputs, hstates, houtputs⟩ := preimages_unambiguous (E := decimalEnv) decimal8_mem
  have hframes : Separable "frame 1" "frame 2" := by decide
  refine ⟨fun h => ?_, fun h => ?_, fun h => ?_⟩
  · exact absurd (((hinputs _ _).2 hframes).mp h).1 (by decide)
  · exact absurd (((hstates _ _).2 hframes).mp h).1 (by decide)
  · exact absurd ((houtputs _ _ ⟨by decide, by decide, by decide⟩).mp h).1 (by decide)

/-- A digit at the end of a zone id may as well be the first digit of the number behind it, and
the names of an output may be cut elsewhere. -/
theorem preimages_collide :
    (∃ a b : TransitionInput ℚ, a.zoneId ≠ b.zoneId ∧
      decimalEnv.fmt8 a.corrosionRate ≠ decimalEnv.fmt8 b.corrosionRate ∧
      a.hashedText decimalEnv = b.hashedText decimalEnv) ∧
    (∃ a b : ShipState ℚ, a.zoneId ≠ b.zoneId ∧
      decimalEnv.fmt8 a.corrosionDepth ≠ decimalEnv.fmt8 b.corrosionDepth ∧
      a.hashedText decimalEnv = b.hashedText decimalEnv) ∧
    ∃ a b : SimulationOutput ℚ, a.simulationId ≠ b.simulationId ∧
      a.modelVersion ≠ b.modelVersion ∧ a.hashedText decimalEnv = b.hashedText decimalEnv := by
  refine ⟨⟨corroding "frame 1" (by decide) 2 (by norm_num),
    corroding "frame " (by decide) 12 (by norm_num), ?_⟩,
    ⟨corroded "frame 1" (by decide) 2, corroded "frame " (by decide) 12, ?_⟩,
    ⟨renamedOutput "sim-1" "1v", renamedOutput "sim-11" "v", ?_⟩⟩
  all_goals decide +kernel

end QuantumFoundation
