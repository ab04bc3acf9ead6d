import QuantumFoundation.Physical.TransitionEngine

/-!
# The multi-zone executor

The executor of `multi_zone_executor.py`.  A batch is validated as a whole; its zones then go
one by one, in sorted order, through the engine, which logs each of them at once; only when
all are through is the state vector replaced and the batch recorded.
-/

namespace QuantumFoundation

variable {F : Type*} [LT F] [LE F] [OfScientific F]

/-- The record of a batch. -/
structure ZoneBatch (F : Type*) [LT F] [LE F] [OfScientific F] where
  batchId : ℤ
  zoneTransitions : List (String × TransitionInput F)
  preGlobalHash : String
  postGlobalHash : String
  transitionRecords : List TransitionRecord
  batchHash : String
  prevBatchHash : String
deriving DecidableEq

/-- `compute_batch_hash`. -/
def ZoneBatch.computeBatchHash (E : FloatEnv F) (batchId : ℤ) (preHash postHash : String)
    (transitionHashes : List String) (prevBatchHash : String) : String :=
  E.sha256 (toString batchId ++ preHash ++ postHash ++ String.join transitionHashes
    ++ prevBatchHash)

/-- The executor: the state of all zones, the engine, and the batches so far. -/
structure MultiZoneExecutor (F : Type*) [LT F] [LE F] [OfScientific F] where
  state : ShipStateVector F
  engine : DeterministicTransitionEngine F
  batches : List (ZoneBatch F)
  batchCounter : ℕ

/-- What the loop over the zones has collected so far. -/
structure BatchProgress (F : Type*) [LT F] [LE F] [OfScientific F] where
  zoneUpdates : Dict String (ShipState F)
  records : List TransitionRecord
  orderedTransitions : List (String × TransitionInput F)

namespace MultiZoneExecutor

/-- An executor for a state vector, with the given engine. -/
def new (initialState : ShipStateVector F) (engine : DeterministicTransitionEngine F) :
    MultiZoneExecutor F := ⟨initialState, engine, [], 0⟩

/-- `global_hash`. -/
def globalHash (E : FloatEnv F) (x : MultiZoneExecutor F) : String := x.state.globalHash E

/-- `batch_chain_hash`. -/
def batchChainHash (x : MultiZoneExecutor F) : String :=
  (x.batches.getLast?.map (·.batchHash)).getD genesisHash

/-- The validation loop of `execute_batch`: the first error, if there is one. -/
def validate (x : MultiZoneExecutor F) (transitions : Dict String (TransitionInput F)) :
    Option PyError :=
  transitions.entries.findSome? fun p =>
    if !x.state.contains p.1 then
      some (.valueError ("Zone '" ++ p.1 ++ "' not in state vector"))
    else if p.2.zoneId ≠ p.1 then
      some (.valueError ("Input zone_id '" ++ p.2.zoneId ++ "' ≠ key '" ++ p.1 ++ "'"))
    else none

/-- The loop of `execute_batch` over the zones in sorted order. -/
def zoneLoop (E : FloatEnv F) (state : ShipStateVector F) (transitionName : String) :
    List (String × TransitionInput F) → DeterministicTransitionEngine F → BatchProgress F →
    Outcome (DeterministicTransitionEngine F) (BatchProgress F)
  | [], engine, progress => (engine, .ok progress)
  | (zoneId, inp) :: rest, engine, progress =>
    match state.get zoneId with
    | none =>
      -- not reached: the validation has found every zone
      (engine, .error (.other "'NoneType' object has no attribute 'zone_id'"))
    | some zoneState =>
      match engine.apply E zoneState inp transitionName with
      | (engine', .error exc) => (engine', .error exc)
      | (engine', .ok (newZoneState, record)) =>
        zoneLoop E state transitionName rest engine'
          { zoneUpdates := progress.zoneUpdates.set zoneId newZoneState
            records := progress.records ++ [record]
            orderedTransitions := progress.orderedTransitions ++ [(zoneId, inp)] }

/-- `execute_batch`. -/
def executeBatch (E : FloatEnv F) (transitions : Dict String (TransitionInput F))
    (transitionName : String) (x : MultiZoneExecutor F) :
    Outcome (MultiZoneExecutor F) (ZoneBatch F) :=
  match x.validate transitions with
  | some exc => (x, .error exc)
  | none =>
    match zoneLoop E x.state transitionName transitions.sorted.entries x.engine
        ⟨.empty, [], []⟩ with
    -- the engine has kept the records of the zones before the failing one
    | (engine, .error exc) => ({ x with engine := engine }, .error exc)
    | (engine, .ok progress) =>
      match x.state.withUpdatedZones progress.zoneUpdates with
      | .error exc => ({ x with engine := engine }, .error exc)
      | .ok state =>
        let batchId := x.batchCounter + 1
        let preHash := x.globalHash E
        let postHash := state.globalHash E
        let prevBatchHash := x.batchChainHash
        let batch : ZoneBatch F :=
          { batchId := batchId
            zoneTransitions := progress.orderedTransitions
            preGlobalHash := preHash
            postGlobalHash := postHash
            transitionRecords := progress.records
            batchHash := ZoneBatch.computeBatchHash E batchId preHash postHash
              (progress.records.map (·.recordHash)) prevBatchHash
            prevBatchHash := prevBatchHash }
        ({ state := state
           engine := engine
           batches := x.batches ++ [batch]
           batchCounter := batchId }, .ok batch)

end MultiZoneExecutor

end QuantumFoundation
