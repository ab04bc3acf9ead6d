import QuantumFoundation.Lib.HashChain
import QuantumFoundation.Lib.NumberedLog
import QuantumFoundation.Physical.Atomicity

/-!
# The chains of an executor

An executor keeps three chains: the global hashes before and after its batches, the hashes of
the batches, and the hashes of the engine's records.  A batch that raises may leave records in
the engine, but these are chained like all others, and the other two chains do not see them.  So
the checks of `transition_engine.py` and `multi_zone_executor.py` always say yes.
-/

namespace QuantumFoundation

variable {F : Type*} [LT F] [LE F] [OfScientific F]

/-- The beginning of a hash that is shown in a message. -/
def hash16 (hash : String) : String := (hash.take 16).toString ++ "..."

/-! ### The checks -/

namespace DeterministicTransitionEngine

/-- The records as a hash chain. -/
def recordChain (E : FloatEnv F) : ChainFormat TransitionRecord String where
  prev r := r.prevRecordHash
  hash r := r.recordHash
  digest r := TransitionRecord.computeRecordHash E r.sequenceId r.zoneId r.inputHash
    r.preStateHash r.postStateHash r.prevRecordHash r.transitionName

/-- `verify_chain_integrity`. -/
def verifyChainIntegrity (E : FloatEnv F) (engine : DeterministicTransitionEngine F) :
    Bool × Option String :=
  (recordChain E).verify
    (fun prevHash r => "Chain break at sequence_id=" ++ toString r.sequenceId
      ++ ": expected prev_hash=" ++ hash16 prevHash ++ ", got " ++ hash16 r.prevRecordHash)
    (fun r => "Record hash mismatch at sequence_id=" ++ toString r.sequenceId ++ ": expected="
      ++ hash16 ((recordChain E).digest r) ++ ", got=" ++ hash16 r.recordHash)
    genesisHash engine.records

end DeterministicTransitionEngine

namespace MultiZoneExecutor

/-- The batches as a hash chain. -/
def batchChain (E : FloatEnv F) : ChainFormat (ZoneBatch F) String where
  prev b := b.prevBatchHash
  hash b := b.batchHash
  digest b := ZoneBatch.computeBatchHash E b.batchId b.preGlobalHash b.postGlobalHash
    (b.transitionRecords.map (·.recordHash)) b.prevBatchHash

/-- `verify_batch_chain`. -/
def verifyBatchChain (E : FloatEnv F) (x : MultiZoneExecutor F) : Bool × Option String :=
  (batchChain E).verify
    (fun prevHash b => "Batch chain break at batch_id=" ++ toString b.batchId
      ++ ": expected prev=" ++ hash16 prevHash ++ ", got=" ++ hash16 b.prevBatchHash)
    (fun b => "Batch hash mismatch at batch_id=" ++ toString b.batchId)
    genesisHash x.batches

/-- `verify_cross_zone_consistency`. -/
def verifyCrossZoneConsistency (E : FloatEnv F) (x : MultiZoneExecutor F) :
    Bool × Option String :=
  match x.batches.getLast? with
  | none => (true, none)
  | some latest =>
    let current := x.globalHash E
    if latest.postGlobalHash ≠ current then
      (false, some ("Cross-zone inconsistency: latest batch post_hash="
        ++ hash16 latest.postGlobalHash ++ " ≠ current state hash=" ++ hash16 current))
    else (true, none)

end MultiZoneExecutor

/-! ### The engine's records -/

namespace DeterministicTransitionEngine

variable {E : FloatEnv F} {engine : DeterministicTransitionEngine F}

lemma verifyChainIntegrity_iff : engine.verifyChainIntegrity E = (true, none) ↔
    (recordChain E).Chained genesisHash engine.records :=
  ChainFormat.verify_eq_iff

/-- **What the engine logs.**  A transition that raises leaves the engine as it is; any other
logs one record, which carries the hash before it, the digest of its fields, and the name of the
transition. -/
theorem apply_record (E : FloatEnv F) (state : ShipState F) (inp : TransitionInput F)
    (transitionName : String) (engine : DeterministicTransitionEngine F) :
    (∃ exc, engine.apply E state inp transitionName = (engine, .error exc)) ∨
    ∃ s record, engine.apply E state inp transitionName
        = (engine.extend [record], .ok (s, record)) ∧
      (recordChain E).prev record = engine.chainHash ∧
      (recordChain E).hash record = (recordChain E).digest record ∧
      record.transitionName = transitionName := by
  rw [apply]
  cases engine.transitionFns.get? transitionName with
  | none => exact Or.inl ⟨_, rfl⟩
  | some fn =>
    by_cases hid : inp.zoneId ≠ state.zoneId
    · simp only [if_pos hid]
      exact Or.inl ⟨_, rfl⟩
    · simp only [if_neg hid]
      cases fn state inp with
      | error exc => exact Or.inl ⟨exc, rfl⟩
      | ok s => exact Or.inr ⟨s, _, rfl, rfl, rfl, rfl⟩

/-- **Step lemma.**  The records stay a hash chain. -/
theorem chained_apply (state : ShipState F) (inp : TransitionInput F) (transitionName : String)
    (h : (recordChain E).Chained genesisHash engine.records) :
    (recordChain E).Chained genesisHash
      (engine.apply E state inp transitionName).1.records := by
  rcases apply_record E state inp transitionName engine with
    ⟨exc, hr⟩ | ⟨s, record, hr, hprev, hhash, -⟩
  · rwa [hr]
  · rw [hr]
    exact h.append hprev hhash

lemma records_registerTransition (name : String) (fn : TransitionFunction F)
    (engine : DeterministicTransitionEngine F) :
    (engine.registerTransition name fn).1.records = engine.records := by
  rw [registerTransition]
  split <;> rfl

end DeterministicTransitionEngine

/-! ### Batches -/

namespace MultiZoneExecutor

variable {E : FloatEnv F} {x : MultiZoneExecutor F}

lemma verifyBatchChain_iff : x.verifyBatchChain E = (true, none) ↔
    (batchChain E).Chained genesisHash x.batches :=
  ChainFormat.verify_eq_iff

lemma verifyCrossZoneConsistency_iff {g : String} :
    x.verifyCrossZoneConsistency E = (true, none) ↔
      x.batches = [] ∨ tip (·.postGlobalHash) g x.batches = x.globalHash E := by
  rw [verifyCrossZoneConsistency]
  rcases List.eq_nil_or_concat x.batches with hnil | ⟨bs, b, hbs⟩
  · simp [hnil]
  · rw [hbs, List.concat_eq_append, tip_append_singleton,
      List.getLast?_append_of_ne_nil _ (by simp)]
    simp

/-- What holds of the engine and is kept by every transition holds after the loop. -/
lemma zoneLoop_engine {I : DeterministicTransitionEngine F → Prop}
    (hI : ∀ engine s inp name, I engine → I (engine.apply E s inp name).1)
    (state : ShipStateVector F) (transitionName : String) (l : List (String × TransitionInput F))
    (engine : DeterministicTransitionEngine F) (progress : BatchProgress F) (h : I engine) :
    I (zoneLoop E state transitionName l engine progress).1 := by
  induction l generalizing engine progress with
  | nil => exact h
  | cons p l ih =>
    rw [zoneLoop]
    cases state.get p.1 with
    | none => exact h
    | some zoneState =>
      have hstep := hI engine zoneState p.2 transitionName h
      rcases happly : engine.apply E zoneState p.2 transitionName with ⟨engine', exc | ⟨s, record⟩⟩
      · simpa only [happly] using hstep
      · simp only [happly]
        exact ih _ _ (by simpa only [happly] using hstep)

/-- The records that the loop collects. -/
lemma zoneLoop_records {R : TransitionRecord → Prop} (state : ShipStateVector F)
    {transitionName : String}
    (hR : ∀ (engine : DeterministicTransitionEngine F) s inp s' record,
      (engine.apply E s inp transitionName).2 = .ok (s', record) → R record)
    (l : List (String × TransitionInput F)) (engine : DeterministicTransitionEngine F)
    (progress : BatchProgress F) {progress' : BatchProgress F}
    (h : ∀ record ∈ progress.records, R record)
    (hl : (zoneLoop E state transitionName l engine progress).2 = .ok progress') :
    ∀ record ∈ progress'.records, R record := by
  induction l generalizing engine progress with
  | nil =>
    obtain rfl : progress = progress' := by simpa [zoneLoop] using hl
    exact h
  | cons p l ih =>
    rw [zoneLoop] at hl
    cases hz : state.get p.1 with
    | none => simp [hz] at hl
    | some zoneState =>
      rcases happly : engine.apply E zoneState p.2 transitionName with ⟨engine', exc | ⟨s, record⟩⟩
      · simp [hz, happly] at hl
      · simp only [hz, happly] at hl
        refine ih engine' _ ?_ hl
        intro r hr
        rcases List.mem_append.mp hr with hr | hr
        · exact h r hr
        · rw [List.mem_singleton.mp hr]
          exact hR engine zoneState p.2 s record (by rw [happly])

/-- **What is recorded of a batch.**  A batch that raises leaves the state and the batches; one
that goes through is recorded with the hashes before and after it and with the records that the
engine has returned.  In both cases the engine has taken some transitions. -/
theorem executeBatch_record (E : FloatEnv F) (transitions : Dict String (TransitionInput F))
    (transitionName : String) (x : MultiZoneExecutor F) :
    let r := x.executeBatch E transitions transitionName
    (∀ I : DeterministicTransitionEngine F → Prop,
        (∀ engine s inp name, I engine → I (engine.apply E s inp name).1) →
        I x.engine → I r.1.engine) ∧
    (((∃ exc, r.2 = .error exc) ∧ r.1.state = x.state ∧ r.1.batches = x.batches ∧
        r.1.batchCounter = x.batchCounter) ∨
      ∃ batch, r.2 = .ok batch ∧ r.1.batches = x.batches ++ [batch] ∧
        r.1.batchCounter = x.batchCounter + 1 ∧ batch.batchId = x.batchCounter + 1 ∧
        batch.preGlobalHash = x.globalHash E ∧ batch.postGlobalHash = r.1.globalHash E ∧
        batch.prevBatchHash = x.batchChainHash ∧
        (batchChain E).hash batch = (batchChain E).digest batch ∧
        ∀ R : TransitionRecord → Prop,
          (∀ (engine : DeterministicTransitionEngine F) s inp s' record,
            (engine.apply E s inp transitionName).2 = .ok (s', record) → R record) →
          ∀ record ∈ batch.transitionRecords, R record) := by
  intro r
  have hr : r = x.executeBatch E transitions transitionName := rfl
  rw [executeBatch] at hr
  cases hv : x.validate transitions with
  | some exc =>
    simp only [hv] at hr
    rw [hr]
    exact ⟨fun I _ h => h, Or.inl ⟨⟨exc, rfl⟩, rfl, rfl, rfl⟩⟩
  | none =>
    have hloop := fun I hI => zoneLoop_engine (E := E) (I := I) hI x.state transitionName
      transitions.sorted.entries x.engine ⟨.empty, [], []⟩
    simp only [hv] at hr
    rcases hl : zoneLoop E x.state transitionName transitions.sorted.entries x.engine
      ⟨.empty, [], []⟩ with ⟨engine, exc | progress⟩
    · simp only [hl] at hr hloop
      rw [hr]
      exact ⟨hloop, Or.inl ⟨⟨exc, rfl⟩, rfl, rfl, rfl⟩⟩
    · simp only [hl] at hr hloop
      cases hu : x.state.withUpdatedZones progress.zoneUpdates with
      | error exc =>
        simp only [hu] at hr
        rw [hr]
        exact ⟨hloop, Or.inl ⟨⟨exc, rfl⟩, rfl, rfl, rfl⟩⟩
      | ok state =>
        simp only [hu] at hr
        rw [hr]
        refine ⟨hloop, Or.inr ⟨_, rfl, rfl, rfl, by simp, rfl, rfl, rfl, rfl, ?_⟩⟩
        intro R hR
        exact zoneLoop_records x.state hR transitions.sorted.entries x.engine ⟨.empty, [], []⟩
          (by simp) (by rw [hl])

/-! ### Runs -/

/-- A call on an executor or on its engine. -/
inductive Call (F : Type*) [LT F] [LE F] [OfScientific F]
  | registerTransition (name : String) (fn : TransitionFunction F)
  | apply (state : ShipState F) (inp : TransitionInput F) (transitionName : String)
  | executeBatch (transitions : Dict String (TransitionInput F)) (transitionName : String)

/-- The executor after a call, which may have raised. -/
def perform (E : FloatEnv F) (x : MultiZoneExecutor F) : Call F → MultiZoneExecutor F
  | .registerTransition name fn => { x with engine := (x.engine.registerTransition name fn).1 }
  | .apply state inp transitionName =>
    { x with engine := (x.engine.apply E state inp transitionName).1 }
  | .executeBatch transitions transitionName => (x.executeBatch E transitions transitionName).1

/-- The three chains of an executor that has started with the state vector. -/
structure Intact (E : FloatEnv F) (initialState : ShipStateVector F) (x : MultiZoneExecutor F) :
    Prop where
  counter : x.batchCounter = x.batches.length
  numbered : NumberedFrom ZoneBatch.batchId 1 x.batches
  states : Linked (·.preGlobalHash) (·.postGlobalHash) (initialState.globalHash E) x.batches
  current : tip (·.postGlobalHash) (initialState.globalHash E) x.batches = x.globalHash E
  batches : (batchChain E).Chained genesisHash x.batches
  records : (DeterministicTransitionEngine.recordChain E).Chained genesisHash x.engine.records

variable {initialState : ShipStateVector F}

lemma Intact.init {engine : DeterministicTransitionEngine F} (h : engine.records = []) :
    Intact E initialState (new initialState engine) := by
  refine ⟨rfl, trivial, trivial, rfl, ChainFormat.chained_nil, ?_⟩
  show (DeterministicTransitionEngine.recordChain E).Chained genesisHash engine.records
  rw [h]
  exact ChainFormat.chained_nil

/-- **Step lemma.**  Every call keeps the three chains. -/
theorem Intact.perform (h : Intact E initialState x) (c : Call F) :
    Intact E initialState (perform E x c) := by
  cases c with
  | registerTransition name fn =>
    refine ⟨h.counter, h.numbered, h.states, h.current, h.batches, ?_⟩
    show (DeterministicTransitionEngine.recordChain E).Chained genesisHash
      (x.engine.registerTransition name fn).1.records
    rw [DeterministicTransitionEngine.records_registerTransition]
    exact h.records
  | apply state inp transitionName =>
    exact ⟨h.counter, h.numbered, h.states, h.current, h.batches,
      DeterministicTransitionEngine.chained_apply state inp transitionName h.records⟩
  | executeBatch transitions transitionName =>
    obtain ⟨hengine, hcase⟩ := executeBatch_record E transitions transitionName x
    have hrecords := hengine
      (fun engine => (DeterministicTransitionEngine.recordChain E).Chained genesisHash
        engine.records)
      (fun engine s inp name h => DeterministicTransitionEngine.chained_apply s inp name h)
      h.records
    rcases hcase with ⟨-, hstate, hbatches, hcounter⟩ |
      ⟨batch, -, hbatches, hcounter, hid, hpre, hpost, hprev, hhash, -⟩
    · refine ⟨?_, ?_, ?_, ?_, ?_, hrecords⟩ <;>
        simp only [MultiZoneExecutor.perform, hbatches, hcounter, globalHash, hstate]
      · exact h.counter
      · exact h.numbered
      · exact h.states
      · exact h.current
      · exact h.batches
    · refine ⟨?_, ?_, ?_, ?_, ?_, hrecords⟩ <;>
        simp only [MultiZoneExecutor.perform, hbatches, hcounter]
      · simp [h.counter]
      · refine NumberedFrom.append_singleton.mpr ⟨h.numbered, ?_⟩
        rw [hid, h.counter, add_comm]
      · exact linked_append_singleton.mpr ⟨h.states, hpre.trans h.current.symm⟩
      · rw [tip_append_singleton]
        exact hpost
      · exact h.batches.append hprev hhash

/-- **The chains of an executor.**  After every sequence of calls, with whatever transitions are
registered and whichever calls raise, the batches are numbered from 1, each begins with the
global hash and the batch hash that the one before it ended with, and all three checks say
yes. -/
theorem executor_chains_intact [Add F] [Sub F] [Mul F] [Div F] [DecidableLT F] (E : FloatEnv F)
    (initialState : ShipStateVector F) (calls : List (Call F)) :
    let x := Run.exec (MultiZoneExecutor.perform E)
      (new initialState (DeterministicTransitionEngine.new E)) calls
    NumberedFrom ZoneBatch.batchId 1 x.batches ∧
      Linked (·.preGlobalHash) (·.postGlobalHash) (initialState.globalHash E) x.batches ∧
      Linked (·.prevBatchHash) (·.batchHash) genesisHash x.batches ∧
      x.verifyBatchChain E = (true, none) ∧
      x.verifyCrossZoneConsistency E = (true, none) ∧
      x.engine.verifyChainIntegrity E = (true, none) := by
  intro x
  have h : Intact E initialState x :=
    Run.invariant_of_forall (I := Intact E initialState) (fun _ c h => h.perform c)
      (Intact.init rfl) calls
  exact ⟨h.numbered, h.states, h.batches.linked, verifyBatchChain_iff.mpr h.batches,
    verifyCrossZoneConsistency_iff.mpr (Or.inr h.current),
    DeterministicTransitionEngine.verifyChainIntegrity_iff.mpr h.records⟩

end MultiZoneExecutor

end QuantumFoundation
