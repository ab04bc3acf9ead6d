import QuantumFoundation.Physical.ShipState

/-!
# The transition engine

The engine of `transition_engine.py`: named transition functions, each a pure function from a
zone state and an input to a zone state that may also raise, and a log of the transitions that
were made, chained by hashes.  `apply` logs its record as soon as the function has returned.
-/

namespace QuantumFoundation

variable {F : Type*} [LT F] [LE F] [OfScientific F]

/-! ## Inputs -/

/-- The rates applied to a zone.  The last five fields are the checks of the constructor. -/
structure TransitionInput (F : Type*) [LT F] [LE F] [OfScientific F] where
  zoneId : String
  corrosionRate : F
  coatingDegradationRate : F
  barnacleGrowthRate : F
  roughnessRate : F
  dt : F
  zoneId_ne : zoneId ≠ ""
  corrosion_nonneg : ¬corrosionRate < 0.0
  coating_nonneg : ¬coatingDegradationRate < 0.0
  barnacle_nonneg : ¬barnacleGrowthRate < 0.0
  dt_pos : ¬dt ≤ 0.0

namespace TransitionInput

instance [DecidableEq F] : DecidableEq (TransitionInput F) := fun a b =>
  decidable_of_iff (a.zoneId = b.zoneId ∧ a.corrosionRate = b.corrosionRate ∧
    a.coatingDegradationRate = b.coatingDegradationRate ∧
    a.barnacleGrowthRate = b.barnacleGrowthRate ∧ a.roughnessRate = b.roughnessRate ∧
    a.dt = b.dt) (by cases a; cases b; simp)

/-- The constructor with the checks of `__post_init__`, in their order. -/
def new [DecidableLT F] [DecidableLE F] (E : FloatEnv F) (zoneId : String) (corrosionRate
    coatingDegradationRate barnacleGrowthRate roughnessRate dt : F) :
    Except PyError (TransitionInput F) :=
  if h₁ : zoneId = "" then .error (.valueError "zone_id must be non-empty")
  else if h₂ : corrosionRate < 0.0 then
    .error (.valueError ("corrosion_rate must be ≥ 0, got " ++ E.str corrosionRate))
  else if h₃ : coatingDegradationRate < 0.0 then
    .error (.valueError
      ("coating_degradation_rate must be ≥ 0, got " ++ E.str coatingDegradationRate))
  else if h₄ : barnacleGrowthRate < 0.0 then
    .error (.valueError ("barnacle_growth_rate must be ≥ 0, got " ++ E.str barnacleGrowthRate))
  else if h₅ : dt ≤ 0.0 then .error (.valueError ("dt must be > 0, got " ++ E.str dt))
  else
    .ok ⟨zoneId, corrosionRate, coatingDegradationRate, barnacleGrowthRate, roughnessRate, dt,
      h₁, h₂, h₃, h₄, h₅⟩

section New

variable [DecidableLT F] [DecidableLE F] {E : FloatEnv F} {zoneId : String}
  {corrosionRate coatingDegradationRate barnacleGrowthRate roughnessRate dt : F}
  {inp : TransitionInput F}

/-- An input that is made has the fields it was made from. -/
lemma fields_of_new (h : new E zoneId corrosionRate coatingDegradationRate barnacleGrowthRate
      roughnessRate dt = .ok inp) :
    inp.zoneId = zoneId ∧ inp.corrosionRate = corrosionRate ∧
      inp.coatingDegradationRate = coatingDegradationRate ∧
      inp.barnacleGrowthRate = barnacleGrowthRate ∧ inp.dt = dt := by
  rw [new] at h
  obtain ⟨_, h⟩ := dite_guard_eq_ok h
  obtain ⟨_, h⟩ := dite_guard_eq_ok h
  obtain ⟨_, h⟩ := dite_guard_eq_ok h
  obtain ⟨_, h⟩ := dite_guard_eq_ok h
  obtain ⟨_, h⟩ := dite_guard_eq_ok h
  rw [← Except.ok.inj h]
  exact ⟨rfl, rfl, rfl, rfl, rfl⟩

/-- An input that is made carries the id it was made for. -/
lemma zoneId_of_new (h : new E zoneId corrosionRate coatingDegradationRate barnacleGrowthRate
    roughnessRate dt = .ok inp) : inp.zoneId = zoneId := (fields_of_new h).1

/-- An input is made of what passes the checks. -/
lemma new_ok_iff : (∃ inp, new E zoneId corrosionRate coatingDegradationRate barnacleGrowthRate
      roughnessRate dt = .ok inp) ↔
    zoneId ≠ "" ∧ ¬corrosionRate < 0.0 ∧ ¬coatingDegradationRate < 0.0 ∧
      ¬barnacleGrowthRate < 0.0 ∧ ¬dt ≤ 0.0 := by
  constructor
  · rintro ⟨inp, h⟩
    obtain ⟨rfl, rfl, rfl, rfl, rfl⟩ := fields_of_new h
    exact ⟨inp.zoneId_ne, inp.corrosion_nonneg, inp.coating_nonneg, inp.barnacle_nonneg, inp.dt_pos⟩
  · rintro ⟨hid, hcorrosion, hcoating, hbarnacle, hdt⟩
    rw [new, dif_neg hid, dif_neg hcorrosion, dif_neg hcoating, dif_neg hbarnacle, dif_neg hdt]
    exact ⟨_, rfl⟩

end New

/-- The constructor made anew from the fields of an input. -/
lemma new_self [DecidableLT F] [DecidableLE F] (E : FloatEnv F) (inp : TransitionInput F) :
    new E inp.zoneId inp.corrosionRate inp.coatingDegradationRate inp.barnacleGrowthRate
      inp.roughnessRate inp.dt = .ok inp := by
  rw [new, dif_neg inp.zoneId_ne, dif_neg inp.corrosion_nonneg, dif_neg inp.coating_nonneg,
    dif_neg inp.barnacle_nonneg, dif_neg inp.dt_pos]

/-- `input_hash`. -/
def inputHash (E : FloatEnv F) (inp : TransitionInput F) : String :=
  E.sha256 (inp.zoneId ++ E.fmt8 inp.corrosionRate ++ E.fmt8 inp.coatingDegradationRate
    ++ E.fmt8 inp.barnacleGrowthRate ++ E.fmt8 inp.roughnessRate ++ E.fmt8 inp.dt)

end TransitionInput

/-! ## Transition functions -/

/-- A transition function: pure, but it may raise. -/
abbrev TransitionFunction (F : Type*) [LT F] [LE F] [OfScientific F] :=
  ShipState F → TransitionInput F → Except PyError (ShipState F)

section Physics

variable [Add F] [Sub F] [Mul F] [Div F] [DecidableLT F] (E : FloatEnv F)

/-- `standard_physical_transition`. -/
def standardPhysicalTransition : TransitionFunction F := fun state inp =>
  ShipState.create E state.zoneId
    (state.corrosionDepth + inp.corrosionRate * inp.dt)
    (pyMax 0.0 (state.coatingThickness - inp.coatingDegradationRate * inp.dt))
    (pyMax 0.0 (state.barnacleDensity + inp.barnacleGrowthRate * inp.dt))
    (pyMax 0.0 (state.roughness + inp.roughnessRate * inp.dt))

/-- `accelerated_corrosion_transition`. -/
def acceleratedCorrosionTransition : TransitionFunction F := fun state inp =>
  let coatingFactor := 1.0 + 1.0 / pyMax state.coatingThickness 1e-6
  ShipState.create E state.zoneId
    (state.corrosionDepth + inp.corrosionRate * inp.dt * coatingFactor)
    (pyMax 0.0 (state.coatingThickness - inp.coatingDegradationRate * inp.dt))
    (pyMax 0.0 (state.barnacleDensity + inp.barnacleGrowthRate * inp.dt))
    (pyMax 0.0 (state.roughness + inp.roughnessRate * inp.dt))

end Physics

/-! ## Records -/

/-- The record of one transition. -/
structure TransitionRecord where
  sequenceId : ℤ
  zoneId : String
  inputHash : String
  preStateHash : String
  postStateHash : String
  prevRecordHash : String
  recordHash : String
  transitionName : String
deriving DecidableEq

/-- `GENESIS_HASH` and `GENESIS_BATCH_HASH`: 64 zeros. -/
def genesisHash : String := "".pushn '0' 64

/-- `compute_record_hash`. -/
def TransitionRecord.computeRecordHash (E : FloatEnv F) (sequenceId : ℤ) (zoneId inputHash preHash
    postHash prevHash transitionName : String) : String :=
  E.sha256 (toString sequenceId ++ zoneId ++ inputHash ++ preHash ++ postHash ++ prevHash
    ++ transitionName)

/-! ## The engine -/

/-- The engine: the registered functions, the records and the counter. -/
structure DeterministicTransitionEngine (F : Type*) [LT F] [LE F] [OfScientific F] where
  transitionFns : Dict String (TransitionFunction F)
  records : List TransitionRecord
  sequenceCounter : ℕ

namespace DeterministicTransitionEngine

/-- `register_transition`. -/
def registerTransition (name : String) (fn : TransitionFunction F)
    (engine : DeterministicTransitionEngine F) : Outcome (DeterministicTransitionEngine F) Unit :=
  if engine.transitionFns.contains name then
    (engine, .error (.valueError ("Transition '" ++ name ++ "' already registered")))
  else ({ engine with transitionFns := engine.transitionFns.set name fn }, .ok ())

/-- A fresh engine with the two built-in transitions. -/
def new [Add F] [Sub F] [Mul F] [Div F] [DecidableLT F] (E : FloatEnv F) :
    DeterministicTransitionEngine F :=
  let bare : DeterministicTransitionEngine F := ⟨.empty, [], 0⟩
  let one := (registerTransition "standard" (standardPhysicalTransition E) bare).1
  (registerTransition "accelerated_corrosion" (acceleratedCorrosionTransition E) one).1

/-- `get_registered_transitions`. -/
def getRegisteredTransitions (engine : DeterministicTransitionEngine F) : List String :=
  engine.transitionFns.keys.insertionSort (· ≤ ·)

/-- `chain_hash`. -/
def chainHash (engine : DeterministicTransitionEngine F) : String :=
  (engine.records.getLast?.map (·.recordHash)).getD genesisHash

/-- `apply`. -/
def apply (E : FloatEnv F) (state : ShipState F) (inp : TransitionInput F)
    (transitionName : String) (engine : DeterministicTransitionEngine F) :
    Outcome (DeterministicTransitionEngine F) (ShipState F × TransitionRecord) :=
  match engine.transitionFns.get? transitionName with
  | none =>
    (engine, .error (.valueError ("Unknown transition '" ++ transitionName ++ "'. Registered: "
      ++ reprStrs engine.getRegisteredTransitions)))
  | some fn =>
    if inp.zoneId ≠ state.zoneId then
      (engine, .error (.valueError ("Input zone_id '" ++ inp.zoneId ++ "' ≠ state zone_id '"
        ++ state.zoneId ++ "'")))
    else
      match fn state inp with
      | .error exc => (engine, .error exc)
      | .ok newState =>
        let sequenceId := engine.sequenceCounter + 1
        let prevHash := engine.chainHash
        let record : TransitionRecord :=
          { sequenceId := sequenceId
            zoneId := state.zoneId
            inputHash := inp.inputHash E
            preStateHash := state.stateHash E
            postStateHash := newState.stateHash E
            prevRecordHash := prevHash
            recordHash := TransitionRecord.computeRecordHash E sequenceId state.zoneId
              (inp.inputHash E) (state.stateHash E) (newState.stateHash E) prevHash transitionName
            transitionName := transitionName }
        ({ engine with
            sequenceCounter := sequenceId
            records := engine.records ++ [record] }, .ok (newState, record))

end DeterministicTransitionEngine

end QuantumFoundation
