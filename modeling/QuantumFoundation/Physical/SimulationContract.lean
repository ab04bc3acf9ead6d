import QuantumFoundation.Json
import QuantumFoundation.Physical.Verification

/-!
# The simulation contract

`dhiraj_integration.py`: the output of a simulation, the validator that checks it against the
contract, and the adapter that turns it into the inputs of a batch.  A zone of the output that
the state vector does not have is only a warning of the validator, so an output that is accepted
can be executed exactly if it has no such zone.
-/

namespace QuantumFoundation

variable {F : Type*} [LT F] [LE F] [OfScientific F]

/-! ## The output of a simulation -/

/-- What the simulation says of one zone. -/
structure SimulationZoneOutput (F : Type*) where
  zoneId : String
  corrosionRate : F
  coatingDegradationRate : F
  barnacleGrowthRate : F
  roughnessRate : F
  dt : F
  simulationId : String
  modelVersion : String

/-- What the simulation says of all zones. -/
structure SimulationOutput (F : Type*) where
  simulationId : String
  modelVersion : String
  zones : Dict String (SimulationZoneOutput F)
  metadata : Json F

/-- `content_hash`. -/
def SimulationOutput.contentHash (E : FloatEnv F) (output : SimulationOutput F) : String :=
  E.sha256 (output.simulationId ++ output.modelVersion ++
    String.join (output.zones.sorted.entries.map fun p =>
      p.1 ++ E.fmt8 p.2.corrosionRate ++ E.fmt8 p.2.coatingDegradationRate
        ++ E.fmt8 p.2.barnacleGrowthRate ++ E.fmt8 p.2.roughnessRate ++ E.fmt8 p.2.dt))

/-! ## The validator -/

/-- The sets the validator builds.  Python puts a float into a set unless the same object or an
equal number is there already; of that nothing is needed, and so nothing is assumed. -/
structure SetEnv (F : Type*) where
  /-- The order in which a set of strings is visited. -/
  strings : SetOrder
  /-- The members of the set that the floats build, in the order in which they are visited. -/
  floats : List F → List F

/-- The result of a validation. -/
structure ValidationResult where
  valid : Bool
  errors : List String
  warnings : List String
deriving DecidableEq

/-- `summary`. -/
def ValidationResult.summary (result : ValidationResult) : String :=
  "\n".intercalate (["Contract " ++ if result.valid then "VALID ✓" else "INVALID ✗"]
    ++ (if result.errors ≠ [] then ["  Errors: " ++ reprStrs result.errors] else [])
    ++ if result.warnings ≠ [] then ["  Warnings: " ++ reprStrs result.warnings] else [])

/-- A message that is there if a condition holds. -/
def messageIf (c : Prop) [Decidable c] (msg : String) : List String := if c then [msg] else []

@[simp] lemma messageIf_eq_nil {c : Prop} [Decidable c] {msg : String} :
    messageIf c msg = [] ↔ ¬c := by
  simp [messageIf]

/-- How a set is shown, given how its members are. -/
def showSet (members : List String) : String := "\x7b" ++ ", ".intercalate members ++ "\x7d"

namespace ContractValidator

variable [DecidableLT F] [DecidableLE F] (S : SetEnv F) (E : FloatEnv F)

/-- The errors of one zone. -/
def zoneErrors (zoneId : String) (z : SimulationZoneOutput F) : List String :=
  let head := "zone[" ++ zoneId ++ "]"
  messageIf (z.zoneId ≠ zoneId)
      (head ++ ": zone_id mismatch: key='" ++ zoneId ++ "', data='" ++ z.zoneId ++ "'")
    ++ messageIf (z.corrosionRate < 0.0)
      (head ++ ": corrosion_rate must be ≥ 0, got " ++ E.str z.corrosionRate)
    ++ messageIf (z.coatingDegradationRate < 0.0)
      (head ++ ": coating_degradation_rate must be ≥ 0")
    ++ messageIf (z.barnacleGrowthRate < 0.0) (head ++ ": barnacle_growth_rate must be ≥ 0")
    ++ messageIf (z.dt ≤ 0.0) (head ++ ": dt must be > 0, got " ++ E.str z.dt)

/-- The warnings of one zone. -/
def zoneWarnings (zoneId : String) (z : SimulationZoneOutput F) : List String :=
  let head := "zone[" ++ zoneId ++ "]"
  messageIf (10.0 < z.corrosionRate) (head ++ ": corrosion_rate=" ++ E.str z.corrosionRate
      ++ " seems unrealistically high")
    ++ messageIf (365.0 < z.dt) (head ++ ": dt=" ++ E.str z.dt ++ " seems very large (>1 year?)")

/-- The consistency checks over all zones. -/
def consistencyErrors (zones : List (SimulationZoneOutput F)) : List String :=
  let dtValues := S.floats (zones.map (·.dt))
  let modelVersions := S.strings.iter (zones.map (·.modelVersion))
  messageIf (1 < dtValues.length)
      ("Inconsistent dt values across zones: " ++ showSet (dtValues.map E.str))
    ++ messageIf (1 < modelVersions.length)
      ("Inconsistent model_version across zones: " ++ showSet (modelVersions.map reprStr))

/-- The expected zones that are missing. -/
def missing (expected keys : List String) : List String :=
  S.strings.iter (expected.filter fun zoneId => zoneId ∉ keys)

/-- The zones that are not expected. -/
def extra (expected keys : List String) : List String :=
  S.strings.iter (keys.filter fun zoneId => zoneId ∉ expected)

/-- The error and the warning of the coverage check, which an empty list of expected zones
switches off like no list at all. -/
def coverage (expectedZones : Option (List String)) (keys : List String) :
    List String × List String :=
  let expected := expectedZones.getD []
  if expected.isEmpty then ([], [])
  else
    (messageIf (missing S expected keys ≠ [])
        ("Missing zones: " ++ showSet ((missing S expected keys).map reprStr)),
      messageIf (extra S expected keys ≠ [])
        ("Extra zones not in state vector: " ++ showSet ((extra S expected keys).map reprStr)))

/-- `validate`. -/
def validate (output : SimulationOutput F) (expectedZones : Option (List String)) :
    ValidationResult :=
  let errors := messageIf (output.simulationId = "") "simulation_id is empty"
    ++ messageIf (output.modelVersion = "") "model_version is empty"
  if output.zones.entries.isEmpty then ⟨false, errors ++ ["No zones in output"], []⟩
  else
    let covered := coverage S expectedZones output.zones.keys
    let errors := errors
      ++ (output.zones.entries.flatMap fun p => zoneErrors E p.1 p.2)
      ++ consistencyErrors S E output.zones.values ++ covered.1
    let warnings := (output.zones.entries.flatMap fun p => zoneWarnings E p.1 p.2) ++ covered.2
    ⟨errors.length == 0, errors, warnings⟩

end ContractValidator

/-! ## The adapter -/

/-- The log entry of a conversion. -/
structure ConversionEntry where
  simulationId : String
  modelVersion : String
  zonesConverted : List String
  contentHash : String
deriving DecidableEq

/-- The adapter, with its log of conversions. -/
structure SimulationToTransitionAdapter where
  conversionLog : List ConversionEntry
deriving DecidableEq

namespace SimulationToTransitionAdapter

variable [DecidableLT F] [DecidableLE F] (S : SetEnv F) (E : FloatEnv F)

/-- The input of a zone.  The constructor makes its own checks. -/
def toInput (p : String × SimulationZoneOutput F) : Except PyError (TransitionInput F) :=
  TransitionInput.new E p.1 p.2.corrosionRate p.2.coatingDegradationRate p.2.barnacleGrowthRate
    p.2.roughnessRate p.2.dt

/-- The loop of `convert` over the zones in sorted order. -/
def convertLoop : List (String × SimulationZoneOutput F) → Dict String (TransitionInput F) →
    Except PyError (Dict String (TransitionInput F))
  | [], transitions => .ok transitions
  | p :: rest, transitions =>
    match toInput E p with
    | .error exc => .error exc
    | .ok inp => convertLoop rest (transitions.set p.1 inp)

/-- `convert`, with the validator that an adapter has by default. -/
def convert (output : SimulationOutput F) (expectedZones : Option (List String))
    (validate : Bool) (adapter : SimulationToTransitionAdapter) :
    Outcome SimulationToTransitionAdapter
      (Dict String (TransitionInput F) × ValidationResult) :=
  let result := if validate then ContractValidator.validate S E output expectedZones
    else ⟨true, [], []⟩
  if !result.valid then
    (adapter, .error (.valueError
      ("SimulationOutput failed contract validation:\n" ++ result.summary)))
  else
    match convertLoop E output.zones.sorted.entries .empty with
    | .error exc => (adapter, .error exc)
    | .ok transitions =>
      ({ conversionLog := adapter.conversionLog ++
          [{ simulationId := output.simulationId
             modelVersion := output.modelVersion
             zonesConverted := transitions.keys
             contentHash := output.contentHash E }] }, .ok (transitions, result))

end SimulationToTransitionAdapter

/-! ## What is accepted -/

namespace ContractValidator

variable [DecidableLT F] [DecidableLE F] {S : SetEnv F} {E : FloatEnv F}
  {output : SimulationOutput F} {expectedZones : Option (List String)}

/-- An output is accepted if no check has found an error. -/
lemma valid_iff : (validate S E output expectedZones).valid = true ↔
    output.simulationId ≠ "" ∧ output.modelVersion ≠ "" ∧ output.zones.entries ≠ [] ∧
      (∀ p ∈ output.zones.entries, zoneErrors E p.1 p.2 = []) ∧
      consistencyErrors S E output.zones.values = [] ∧
      (coverage S expectedZones output.zones.keys).1 = [] := by
  rw [validate]
  by_cases hz : output.zones.entries = []
  · simp [hz]
  · rw [if_neg (by simpa using hz)]
    simp only [beq_iff_eq, List.length_eq_zero_iff, List.append_eq_nil_iff, messageIf_eq_nil,
      List.flatMap_eq_nil_iff, and_assoc, ne_eq, hz, not_false_eq_true, true_and]

/-- The coverage check is the only one that needs the expected zones. -/
lemma valid_none (h : (validate S E output expectedZones).valid = true) :
    (validate S E output none).valid = true := by
  obtain ⟨hid, hversion, hne, hzones, hconsistent, -⟩ := valid_iff.mp h
  exact valid_iff.mpr ⟨hid, hversion, hne, hzones, hconsistent, rfl⟩

lemma zoneErrors_eq_nil {zoneId : String} {z : SimulationZoneOutput F} :
    zoneErrors E zoneId z = [] ↔ z.zoneId = zoneId ∧ ¬z.corrosionRate < 0.0 ∧
      ¬z.coatingDegradationRate < 0.0 ∧ ¬z.barnacleGrowthRate < 0.0 ∧ ¬z.dt ≤ 0.0 := by
  simp [zoneErrors]

end ContractValidator

/-! ## What is converted -/

namespace SimulationToTransitionAdapter

variable [DecidableLT F] [DecidableLE F] {S : SetEnv F} {E : FloatEnv F}

/-- An input that is made carries the id of its zone. -/
lemma zoneId_of_toInput {p : String × SimulationZoneOutput F} {inp : TransitionInput F}
    (h : toInput E p = .ok inp) : inp.zoneId = p.1 := TransitionInput.zoneId_of_new h

/-- Of the constructor's checks the validator leaves only the one for an empty id. -/
lemma toInput_ok {p : String × SimulationZoneOutput F}
    (h : ContractValidator.zoneErrors E p.1 p.2 = []) (hne : p.1 ≠ "") :
    ∃ inp, toInput E p = .ok inp := by
  obtain ⟨-, hcorrosion, hcoating, hbarnacle, hdt⟩ := ContractValidator.zoneErrors_eq_nil.mp h
  exact TransitionInput.new_ok_iff.mpr ⟨hne, hcorrosion, hcoating, hbarnacle, hdt⟩

/-- What the loop has made: an input for each zone, with the id of the zone. -/
lemma convertLoop_spec {l : List (String × SimulationZoneOutput F)}
    {d d' : Dict String (TransitionInput F)} (h : convertLoop E l d = .ok d')
    (hd : ∀ zoneId inp, d.get? zoneId = some inp → inp.zoneId = zoneId) :
    (∀ zoneId inp, d'.get? zoneId = some inp → inp.zoneId = zoneId) ∧
      ∀ zoneId, zoneId ∈ d'.keys ↔ zoneId ∈ d.keys ∨ zoneId ∈ l.map Prod.fst := by
  induction l generalizing d with
  | nil =>
    rw [convertLoop] at h
    obtain rfl := Except.ok.inj h
    exact ⟨hd, by simp⟩
  | cons p l ih =>
    rw [convertLoop] at h
    cases hp : toInput E p with
    | error exc => simp [hp] at h
    | ok inp =>
      simp only [hp] at h
      have hset : ∀ zoneId inp', (d.set p.1 inp).get? zoneId = some inp' →
          inp'.zoneId = zoneId := by
        intro zoneId inp' hget
        rw [Dict.get?_set] at hget
        split at hget
        · next hz => rw [← Option.some.inj hget, hz, zoneId_of_toInput hp]
        · exact hd zoneId inp' hget
      obtain ⟨hids, hkeys⟩ := ih h hset
      refine ⟨hids, fun zoneId => ?_⟩
      rw [hkeys, Dict.mem_keys_set, List.map_cons, List.mem_cons, or_right_comm, or_assoc]
      tauto

/-- The loop goes through if every zone has an input. -/
lemma convertLoop_ok {l : List (String × SimulationZoneOutput F)}
    (h : ∀ p ∈ l, ∃ inp, toInput E p = .ok inp) (d : Dict String (TransitionInput F)) :
    ∃ d', convertLoop E l d = .ok d' := by
  induction l generalizing d with
  | nil => exact ⟨d, rfl⟩
  | cons p l ih =>
    obtain ⟨inp, hp⟩ := h p List.mem_cons_self
    rw [convertLoop, hp]
    exact ih (fun q hq => h q (List.mem_cons_of_mem _ hq)) _

/-- **What the adapter makes of an accepted output.**  With or without another validation, and
with or without the expected zones, it raises exactly if a zone has an empty id; otherwise there
is an input for each zone, with the id of the zone. -/
theorem convert_accepted {output : SimulationOutput F} {expectedZones expected : Option
    (List String)} (h : (ContractValidator.validate S E output expectedZones).valid = true)
    (hexpected : expected = none ∨ expected = expectedZones) (validate : Bool)
    (adapter : SimulationToTransitionAdapter) :
    ("" ∈ output.zones.keys ∧
      ∃ exc, adapter.convert S E output expected validate = (adapter, .error exc)) ∨
    ∃ adapter' transitions result,
      adapter.convert S E output expected validate = (adapter', .ok (transitions, result)) ∧
      (∀ zoneId, zoneId ∈ transitions.keys ↔ zoneId ∈ output.zones.keys) ∧
      ∀ zoneId inp, transitions.get? zoneId = some inp → inp.zoneId = zoneId := by
  have hagain : (ContractValidator.validate S E output expected).valid = true := by
    rcases hexpected with rfl | rfl
    · exact ContractValidator.valid_none h
    · exact h
  have hvalid : (if validate then ContractValidator.validate S E output expected
      else ⟨true, [], []⟩).valid = true := by
    cases validate
    · rfl
    · exact hagain
  obtain ⟨-, -, -, hzones, -, -⟩ := ContractValidator.valid_iff.mp h
  rw [convert]
  simp only [hvalid, Bool.not_true, Bool.false_eq_true, if_false]
  cases hloop : convertLoop E output.zones.sorted.entries .empty with
  | error exc =>
    refine Or.inl ⟨?_, exc, rfl⟩
    -- every zone with an id has an input, so that a zone without one must have been met
    by_contra hne
    obtain ⟨d, hd⟩ := convertLoop_ok (E := E) (l := output.zones.sorted.entries)
      (fun p hp => toInput_ok (hzones p (Dict.mem_entries_sorted.mp hp)) fun hid =>
        hne (Dict.mem_keys.mpr ⟨p.2, hid ▸ Dict.mem_entries_sorted.mp hp⟩)) .empty
    rw [hd] at hloop
    cases hloop
  | ok transitions =>
    obtain ⟨hids, hkeys⟩ := convertLoop_spec hloop fun zoneId inp hget => absurd hget (by simp)
    refine Or.inr ⟨_, transitions, _, rfl, fun zoneId => ?_, hids⟩
    rw [hkeys, Dict.keys_empty, Dict.mem_keys, List.mem_map]
    simp [Dict.mem_entries_sorted]

end SimulationToTransitionAdapter

/-! ## What is executed -/

section Standard

variable [Add F] [Sub F] [Mul F] [Div F] [DecidableLT F] {E : FloatEnv F}

/-- The standard transition never raises, and it keeps the id of the zone. -/
lemma standardPhysicalTransition_ok (hlt : ∀ a b : F, a < b → ¬b < a) (state : ShipState F)
    (inp : TransitionInput F) :
    ∃ s, standardPhysicalTransition E state inp = .ok s ∧ s.zoneId = state.zoneId := by
  rw [standardPhysicalTransition, ShipState.create, ShipState.new, dif_neg state.zoneId_ne,
    dif_neg (not_pyMax_zero_lt hlt _), dif_neg (not_pyMax_zero_lt hlt _),
    dif_neg (not_pyMax_zero_lt hlt _)]
  exact ⟨_, rfl, rfl⟩

namespace MultiZoneExecutor

/-- The name `standard` stands for the standard transition. -/
def StandardRegistered (E : FloatEnv F) (engine : DeterministicTransitionEngine F) : Prop :=
  engine.transitionFns.get? "standard" = some (standardPhysicalTransition E)

lemma StandardRegistered.apply {engine : DeterministicTransitionEngine F}
    (h : StandardRegistered E engine) (state : ShipState F) (inp : TransitionInput F)
    (transitionName : String) :
    StandardRegistered E (engine.apply E state inp transitionName).1 := by
  rcases DeterministicTransitionEngine.apply_record E state inp transitionName engine with
    ⟨exc, hr⟩ | ⟨s, record, hr, -⟩
  · rwa [hr]
  · rw [hr]
    exact h

/-- **Step lemma.**  A name that is taken cannot be registered again. -/
theorem StandardRegistered.perform {x : MultiZoneExecutor F} (h : StandardRegistered E x.engine)
    (c : Call F) : StandardRegistered E (perform E x c).engine := by
  cases c with
  | registerTransition name fn =>
    show StandardRegistered E (x.engine.registerTransition name fn).1
    rw [DeterministicTransitionEngine.registerTransition]
    by_cases hname : x.engine.transitionFns.contains name = true
    · rwa [if_pos hname]
    · rw [if_neg hname]
      show (x.engine.transitionFns.set name fn).get? "standard" = _
      rw [Dict.get?_set, if_neg]
      · exact h
      · rintro rfl
        exact hname (Dict.contains_eq_true.mpr (Dict.mem_keys_of_get? h))
  | apply state inp transitionName => exact h.apply state inp transitionName
  | executeBatch transitions transitionName =>
    exact (executeBatch_record E transitions transitionName x).1 (StandardRegistered E)
      (fun engine s inp name h => h.apply s inp name) h

/-- **A standard batch.**  A batch of inputs filed under the ids of their zones goes through
exactly if the vector has all these zones. -/
theorem executeBatch_standard_iff (hlt : ∀ a b : F, a < b → ¬b < a) {x : MultiZoneExecutor F}
    (h : StandardRegistered E x.engine) {transitions : Dict String (TransitionInput F)}
    (hids : ∀ zoneId inp, transitions.get? zoneId = some inp → inp.zoneId = zoneId) :
    (∃ x' batch, x.executeBatch E transitions "standard" = (x', .ok batch)) ↔
      ∀ zoneId ∈ transitions.keys, zoneId ∈ x.state.zoneIds := by
  have hvalid : x.validate transitions = none ↔
      ∀ zoneId ∈ transitions.keys, zoneId ∈ x.state.zoneIds := by
    rw [validate_eq_none]
    constructor
    · intro hall zoneId hz
      obtain ⟨inp, hinp⟩ := Dict.mem_keys.mp hz
      exact ShipStateVector.mem_zoneIds.mpr (hall _ hinp).1
    · intro hall p hp
      exact ⟨ShipStateVector.mem_zoneIds.mp (hall p.1 (Dict.mem_keys.mpr ⟨p.2, hp⟩)),
        hids p.1 p.2 (Dict.get?_eq_some.mpr hp)⟩
  -- what the standard transition makes of a zone of the vector
  have hresult : ∀ p, x.state.contains p.1 = true →
      ∃ s, zoneResult x.state x.engine.transitionFns "standard" p = some s ∧ s.zoneId = p.1 := by
    intro p hp
    obtain ⟨zoneState, hz⟩ := ShipStateVector.contains_iff.mp hp
    obtain ⟨s, hs, hid⟩ := standardPhysicalTransition_ok (E := E) hlt zoneState p.2
    refine ⟨s, ?_, hid.trans (ShipStateVector.zoneId_of_get hz)⟩
    have hfn : x.engine.transitionFns.get? "standard" = some (standardPhysicalTransition E) := h
    simp [zoneResult, hfn, hz, hs, Except.toOption]
  rw [executeBatch_ok_iff, ← hvalid, and_iff_left_iff_imp]
  exact fun hv p hp => hresult p (validate_eq_none.mp hv p hp).1

/-- **What is accepted can be executed, if the vector has its zones.**  After any calls, an
output that is accepted for the zones of the vector is converted and executed without an
exception exactly if all its zones are zones of the vector. -/
theorem accepted_executes_iff [DecidableLE F] (S : SetEnv F) (E : FloatEnv F)
    (hlt : ∀ a b : F, a < b → ¬b < a) (initialState : ShipStateVector F) (calls : List (Call F))
    (output : SimulationOutput F) (adapter : SimulationToTransitionAdapter) :
    let x := Run.exec (MultiZoneExecutor.perform E)
      (new initialState (DeterministicTransitionEngine.new E)) calls
    (ContractValidator.validate S E output (some x.state.zoneIds)).valid = true →
      ∀ expected ∈ [none, some x.state.zoneIds], ∀ validate,
        ((∃ adapter' transitions result x' batch,
            adapter.convert S E output expected validate
              = (adapter', .ok (transitions, result)) ∧
            x.executeBatch E transitions "standard" = (x', .ok batch)) ↔
          ∀ zoneId ∈ output.zones.keys, zoneId ∈ x.state.zoneIds) := by
  intro x haccepted expected hexpected validate
  have hnew : StandardRegistered E (DeterministicTransitionEngine.new E) := rfl
  have hstep : ∀ (x : MultiZoneExecutor F) (c : Call F), StandardRegistered E x.engine →
      StandardRegistered E (perform E x c).engine := fun _ c h => h.perform c
  have hstandard : StandardRegistered E x.engine :=
    Run.invariant_of_forall (I := fun y : MultiZoneExecutor F => StandardRegistered E y.engine)
      hstep hnew calls
  rcases SimulationToTransitionAdapter.convert_accepted haccepted (by simpa using hexpected)
    validate adapter with ⟨hempty, exc, hr⟩ | ⟨adapter', transitions, result, hr, hkeys, hids⟩
  · -- no vector has a zone with an empty id
    refine iff_of_false ?_ fun hall => ?_
    · rintro ⟨adapter', transitions, result, x', batch, hok, -⟩
      exact absurd (hr.symm.trans hok) (by simp)
    · exact ShipStateVector.ne_empty_of_contains
        (ShipStateVector.mem_zoneIds.mp (hall "" hempty)) rfl
  · have hbatch := executeBatch_standard_iff hlt hstandard hids
    simp only [hkeys] at hbatch
    rw [← hbatch]
    constructor
    · rintro ⟨a, t, r, x', batch, hok, hexec⟩
      obtain ⟨-, ht⟩ := Prod.mk.inj (hr.symm.trans hok)
      obtain ⟨rfl, -⟩ := Prod.mk.inj (Except.ok.inj ht)
      exact ⟨x', batch, hexec⟩
    · rintro ⟨x', batch, hexec⟩
      exact ⟨adapter', transitions, result, x', batch, hr, hexec⟩

end MultiZoneExecutor

end Standard

/-! ### A zone that the vector does not have -/

/-- Sets over exact numbers. -/
def exactSets : SetEnv ℚ := ⟨.lastInsertion, List.dedup⟩

/-- A vector with a bow only. -/
def bowAlone : ShipStateVector ℚ := restingBow

/-- A simulation in which nothing happens to the zones for one unit of time. -/
def restingOutput (zoneIds : List String) : SimulationOutput ℚ where
  simulationId := "sim-1"
  modelVersion := "v1"
  zones := .ofList (zoneIds.map fun zoneId => (zoneId, ⟨zoneId, 0, 0, 0, 0, 1, "sim-1", "v1"⟩))
  metadata := .dict []

namespace MultiZoneExecutor

theorem accepted_executes_iff_bow :
    ∃ adapter' transitions result x' batch,
      SimulationToTransitionAdapter.convert exactSets exactEnv (restingOutput ["bow"])
        (some ["bow"]) true ⟨[]⟩ = (adapter', .ok (transitions, result)) ∧
      (new bowAlone (.new exactEnv)).executeBatch exactEnv transitions "standard"
        = (x', .ok batch) :=
  (accepted_executes_iff exactSets exactEnv (fun _ _ h => lt_asymm h) bowAlone []
    (restingOutput ["bow"]) ⟨[]⟩ (by decide +kernel) (some ["bow"]) (by decide +kernel)
    true).mpr (by decide +kernel)

/-- The output with a keel is accepted with a warning and converted, and the batch raises. -/
theorem keel_accepted_not_executed :
    let x := new bowAlone (.new exactEnv)
    let output := restingOutput ["bow", "keel"]
    let report := ContractValidator.validate exactSets exactEnv output (some x.state.zoneIds)
    report.valid = true ∧ report.errors = [] ∧ report.warnings.length = 1 ∧
      (SimulationToTransitionAdapter.convert exactSets exactEnv output (some x.state.zoneIds)
        true ⟨[]⟩).2.toOption.map (fun r => (x.executeBatch exactEnv r.1 "standard").2)
        = some (.error (.valueError "Zone 'keel' not in state vector")) := by
  decide +kernel

end MultiZoneExecutor

end QuantumFoundation
