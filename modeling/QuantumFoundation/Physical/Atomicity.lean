import Mathlib.Algebra.Order.Ring.Rat
import Mathlib.Tactic.NormNum
import QuantumFoundation.Lib.Run
import QuantumFoundation.Physical.Executor

/-!
# Atomicity of batches

The engine logs every zone of a batch at once, and nothing takes the records back when a later
zone fails, or when the new states turn out to carry other zone ids.  A failing batch leaves
everything as it was exactly if it fails in the validation or at its first zone.
-/

namespace QuantumFoundation

variable {F : Type*} [LT F] [LE F] [OfScientific F]

namespace DeterministicTransitionEngine

/-- The engine after it has logged the records. -/
def extend (engine : DeterministicTransitionEngine F) (recs : List TransitionRecord) :
    DeterministicTransitionEngine F :=
  { engine with
    records := engine.records ++ recs
    sequenceCounter := engine.sequenceCounter + recs.length }

@[simp] lemma extend_nil (engine : DeterministicTransitionEngine F) :
    engine.extend [] = engine := by
  simp [extend]

lemma extend_extend (engine : DeterministicTransitionEngine F)
    (recs recs' : List TransitionRecord) :
    (engine.extend recs).extend recs' = engine.extend (recs ++ recs') := by
  simp [extend, Nat.add_assoc]

lemma extend_eq_self {engine : DeterministicTransitionEngine F} {recs : List TransitionRecord}
    (h : (engine.extend recs).records = engine.records) : recs = [] :=
  List.append_right_eq_self.mp h

end DeterministicTransitionEngine

namespace MultiZoneExecutor

/-! ### One zone -/

/-- What the named transition makes of a zone: nothing, if it is not registered, if there is no
such zone, or if it raises. -/
def zoneResult (state : ShipStateVector F) (fns : Dict String (TransitionFunction F))
    (transitionName : String) (p : String × TransitionInput F) : Option (ShipState F) :=
  (fns.get? transitionName).bind fun fn =>
    (state.get p.1).bind fun zoneState => (fn zoneState p.2).toOption

/-- The engine on a zone without result raises and stays as it is; on a zone with a result it
returns the result and logs one record. -/
lemma apply_cases (E : FloatEnv F) {state : ShipStateVector F} {p : String × TransitionInput F}
    {zoneState : ShipState F} (hz : state.get p.1 = some zoneState) (hid : p.2.zoneId = p.1)
    (transitionName : String) (engine : DeterministicTransitionEngine F) :
    (∃ exc, engine.apply E zoneState p.2 transitionName = (engine, .error exc) ∧
      zoneResult state engine.transitionFns transitionName p = none) ∨
    ∃ s record, engine.apply E zoneState p.2 transitionName
        = (engine.extend [record], .ok (s, record)) ∧
      zoneResult state engine.transitionFns transitionName p = some s := by
  have hmatch : ¬p.2.zoneId ≠ zoneState.zoneId := by
    rw [ShipStateVector.zoneId_of_get hz, hid]
    exact fun h => h rfl
  rw [DeterministicTransitionEngine.apply]
  cases hfn : engine.transitionFns.get? transitionName with
  | none => exact Or.inl ⟨_, rfl, by simp [zoneResult, hfn]⟩
  | some fn =>
    simp only [if_neg hmatch]
    cases hs : fn zoneState p.2 with
    | error exc => exact Or.inl ⟨_, rfl, by simp [zoneResult, hfn, hz, hs, Except.toOption]⟩
    | ok s => exact Or.inr ⟨s, _, rfl, by simp [zoneResult, hfn, hz, hs, Except.toOption]⟩

/-! ### The loop over the zones -/

/-- What the loop has collected when it is through with the zones and results `done`. -/
def BatchProgress.after (progress : BatchProgress F)
    (done : List ((String × TransitionInput F) × ShipState F)) (recs : List TransitionRecord) :
    BatchProgress F where
  zoneUpdates := done.foldl (fun u d => u.set d.1.1 d.2) progress.zoneUpdates
  records := progress.records ++ recs
  orderedTransitions := progress.orderedTransitions ++ done.map Prod.fst

/-- **The loop over validated zones.**  It gets through `done`, logging one record for each
zone, and then ends, or raises at a zone without result. -/
theorem zoneLoop_cases (E : FloatEnv F) (state : ShipStateVector F) (transitionName : String)
    (l : List (String × TransitionInput F))
    (hl : ∀ p ∈ l, state.contains p.1 = true ∧ p.2.zoneId = p.1)
    (engine : DeterministicTransitionEngine F) (progress : BatchProgress F) :
    ∃ done recs, done.length = recs.length ∧
      (∀ d ∈ done, zoneResult state engine.transitionFns transitionName d.1 = some d.2) ∧
      ((l = done.map Prod.fst ∧ zoneLoop E state transitionName l engine progress
          = (engine.extend recs, .ok (BatchProgress.after progress done recs))) ∨
        ∃ p post exc, l = done.map Prod.fst ++ p :: post ∧
          zoneResult state engine.transitionFns transitionName p = none ∧
          zoneLoop E state transitionName l engine progress
            = (engine.extend recs, .error exc)) := by
  induction l generalizing engine progress with
  | nil => exact ⟨[], [], rfl, by simp, Or.inl ⟨rfl, by simp [zoneLoop, BatchProgress.after]⟩⟩
  | cons p l ih =>
    obtain ⟨zoneState, hz⟩ := ShipStateVector.contains_iff.mp (hl p List.mem_cons_self).1
    rcases apply_cases E hz (hl p List.mem_cons_self).2 transitionName engine with
      ⟨exc, happly, hnone⟩ | ⟨s, record, happly, hsome⟩
    · refine ⟨[], [], rfl, by simp, Or.inr ⟨p, l, exc, rfl, hnone, ?_⟩⟩
      rw [zoneLoop, hz]
      simp [happly]
    · obtain ⟨done, recs, hlen, hdone, hend⟩ := ih
        (fun q hq => hl q (List.mem_cons_of_mem _ hq)) (engine.extend [record])
        (BatchProgress.after progress [(p, s)] [record])
      have hloop : zoneLoop E state transitionName (p :: l) engine progress
          = zoneLoop E state transitionName l (engine.extend [record])
              (BatchProgress.after progress [(p, s)] [record]) := by
        rw [zoneLoop, hz]
        simp only [happly]
        rfl
      have hafter : BatchProgress.after (BatchProgress.after progress [(p, s)] [record]) done recs
          = BatchProgress.after progress ((p, s) :: done) (record :: recs) := by
        simp [BatchProgress.after]
      rw [DeterministicTransitionEngine.extend_extend, hafter] at hend
      refine ⟨(p, s) :: done, record :: recs, by simp [hlen], ?_, ?_⟩
      · rintro d hd
        rcases List.mem_cons.mp hd with rfl | hd
        · exact hsome
        · exact hdone d hd
      · rw [hloop]
        rcases hend with ⟨rfl, hok⟩ | ⟨q, post, exc, rfl, hnone, herr⟩
        · exact Or.inl ⟨rfl, hok⟩
        · exact Or.inr ⟨q, post, exc, rfl, hnone, herr⟩

/-! ### The whole batch -/

lemma validate_eq_none {x : MultiZoneExecutor F} {transitions : Dict String (TransitionInput F)} :
    x.validate transitions = none ↔
      ∀ p ∈ transitions.entries, x.state.contains p.1 = true ∧ p.2.zoneId = p.1 := by
  rw [validate, List.findSome?_eq_none_iff]
  refine forall₂_congr fun p _ => ?_
  by_cases hz : x.state.contains p.1 = true <;> by_cases hid : p.2.zoneId = p.1 <;> simp [hz, hid]

/-- The updates that the loop has collected for distinct zones. -/
lemma entries_zoneUpdates {transitions : Dict String (TransitionInput F)}
    {done : List ((String × TransitionInput F) × ShipState F)}
    (h : transitions.sorted.entries = done.map Prod.fst) (recs : List TransitionRecord) :
    (BatchProgress.after ⟨.empty, [], []⟩ done recs).zoneUpdates.entries
      = done.map fun d => (d.1.1, d.2) := by
  have hnodup : ((done.map fun d => (d.1.1, d.2)).map Prod.fst).Nodup := by
    have := transitions.sorted.nodup
    rw [h, List.map_map] at this
    rwa [List.map_map]
  rw [← Dict.entries_ofList hnodup, Dict.ofList, List.foldl_map]
  rfl

/-- **The update after the loop.**  The vector refuses the results if one of them carries another
id than its zone; otherwise the zones of the batch have their results, and the others stay. -/
theorem withUpdatedZones_cases {state : ShipStateVector F}
    {transitions : Dict String (TransitionInput F)}
    {done : List ((String × TransitionInput F) × ShipState F)}
    (hstate : ∀ p ∈ transitions.entries, state.contains p.1 = true)
    (hall : transitions.sorted.entries = done.map Prod.fst) (recs : List TransitionRecord) :
    let updates := (BatchProgress.after ⟨.empty, [], []⟩ done recs).zoneUpdates
    ((∃ d ∈ done, d.2.zoneId ≠ d.1.1) ∧ ∃ exc, state.withUpdatedZones updates = .error exc) ∨
      (∀ d ∈ done, d.2.zoneId = d.1.1) ∧ ∃ v, state.withUpdatedZones updates = .ok v ∧
        (∀ d ∈ done, v.get d.1.1 = some d.2) ∧
        ∀ zoneId ∉ transitions.keys, v.get zoneId = state.get zoneId := by
  intro updates
  have hentries : updates.entries = done.map fun d => (d.1.1, d.2) := entries_zoneUpdates hall recs
  have hmem : ∀ d ∈ done, d.1 ∈ transitions.entries := fun d hd =>
    Dict.mem_entries_sorted.mp (hall ▸ List.mem_map_of_mem hd)
  by_cases hids : ∀ d ∈ done, d.2.zoneId = d.1.1
  · -- every state carries its zone's id, so the vector takes them all
    have hupdates : ∀ q ∈ updates.entries, state.contains q.1 = true ∧ q.2.zoneId = q.1 := by
      intro q hq
      rw [hentries] at hq
      obtain ⟨d, hd, rfl⟩ := List.mem_map.mp hq
      exact ⟨hstate _ (hmem d hd), hids d hd⟩
    obtain ⟨v, hv, hget⟩ := ShipStateVector.withUpdatedZones_ok hupdates
    refine Or.inr ⟨hids, v, hv, fun d hd => ?_, fun zoneId hz => ?_⟩
    · have hd' : (d.1.1, d.2) ∈ updates.entries := by
        rw [hentries]
        exact List.mem_map_of_mem hd
      rw [hget, Dict.get?_eq_some.mpr hd', Option.some_or]
    · have hnone : updates.get? zoneId = none := by
        rw [Dict.get?_eq_none, Dict.mem_keys, hentries]
        rintro ⟨s, hs⟩
        obtain ⟨d, hd, heq⟩ := List.mem_map.mp hs
        exact hz (Dict.mem_keys.mpr ⟨d.1.2, (Prod.mk.inj heq).1 ▸ hmem d hd⟩)
      rw [hget, hnone, Option.none_or]
  · obtain ⟨d, hd⟩ := not_forall.mp hids
    obtain ⟨hd, hne⟩ := Classical.not_imp.mp hd
    have hupdate : ∃ q ∈ updates.entries, q.2.zoneId ≠ q.1 := by
      rw [hentries]
      exact ⟨(d.1.1, d.2), List.mem_map_of_mem hd, hne⟩
    exact Or.inl ⟨⟨d, hd, hne⟩, ShipStateVector.withUpdatedZones_error hupdate⟩

/-- **What a batch can do.**  It fails in the validation; or it gets through the zones `done` and
fails at the next one, or in the update of the vector; or it gets through all of them and is
recorded.  Each zone it gets through leaves a record in the engine. -/
theorem executeBatch_cases (E : FloatEnv F) (transitions : Dict String (TransitionInput F))
    (transitionName : String) (x : MultiZoneExecutor F) :
    (∃ exc, x.validate transitions = some exc ∧
      x.executeBatch E transitions transitionName = (x, .error exc)) ∨
    x.validate transitions = none ∧
      ∃ (done : List ((String × TransitionInput F) × ShipState F)) (recs : List TransitionRecord),
      done.length = recs.length ∧
      (∀ d ∈ done, zoneResult x.state x.engine.transitionFns transitionName d.1 = some d.2) ∧
      ((∃ p post exc, transitions.sorted.entries = done.map Prod.fst ++ p :: post ∧
          zoneResult x.state x.engine.transitionFns transitionName p = none ∧
          x.executeBatch E transitions transitionName
            = ({ x with engine := x.engine.extend recs }, .error exc)) ∨
        transitions.sorted.entries = done.map Prod.fst ∧
          (((∃ d ∈ done, d.2.zoneId ≠ d.1.1) ∧ ∃ exc, x.executeBatch E transitions transitionName
              = ({ x with engine := x.engine.extend recs }, .error exc)) ∨
            (∀ d ∈ done, d.2.zoneId = d.1.1) ∧ ∃ x' batch,
              x.executeBatch E transitions transitionName = (x', .ok batch) ∧
              x'.engine = x.engine.extend recs ∧ x'.batches = x.batches ++ [batch] ∧
              x'.batchCounter = x.batchCounter + 1 ∧ batch.transitionRecords = recs ∧
              batch.zoneTransitions = transitions.sorted.entries ∧
              (∀ d ∈ done, x'.state.get d.1.1 = some d.2) ∧
              ∀ zoneId ∉ transitions.keys, x'.state.get zoneId = x.state.get zoneId)) := by
  cases hv : x.validate transitions with
  | some exc => exact Or.inl ⟨exc, rfl, by rw [executeBatch, hv]⟩
  | none =>
    have hvalid := validate_eq_none.mp hv
    obtain ⟨done, recs, hlen, hdone, hend⟩ := zoneLoop_cases E x.state transitionName
      transitions.sorted.entries (fun p hp => hvalid p (Dict.mem_entries_sorted.mp hp)) x.engine
      ⟨.empty, [], []⟩
    refine Or.inr ⟨rfl, done, recs, hlen, hdone, ?_⟩
    rcases hend with ⟨hall, hloop⟩ | ⟨p, post, exc, hsplit, hnone, hloop⟩
    · refine Or.inr ⟨hall, ?_⟩
      rw [executeBatch, hv]
      simp only [hloop]
      rcases withUpdatedZones_cases (fun p hp => (hvalid p hp).1) hall recs with
        ⟨hne, exc, hexc⟩ | ⟨hids, v, hok, hget, hframe⟩
      · simp only [hexc]
        exact Or.inl ⟨hne, exc, rfl⟩
      · simp only [hok]
        exact Or.inr ⟨hids, _, _, rfl, rfl, rfl, rfl, rfl, hall.symm, hget, hframe⟩
    · refine Or.inl ⟨p, post, exc, hsplit, hnone, ?_⟩
      rw [executeBatch, hv]
      simp only [hloop]

/-- **When a batch goes through**: it passes the validation, and every zone has a result that
carries its id. -/
theorem executeBatch_ok_iff {E : FloatEnv F} {transitions : Dict String (TransitionInput F)}
    {transitionName : String} {x : MultiZoneExecutor F} :
    (∃ x' batch, x.executeBatch E transitions transitionName = (x', .ok batch)) ↔
      x.validate transitions = none ∧ ∀ p ∈ transitions.entries, ∃ s,
        zoneResult x.state x.engine.transitionFns transitionName p = some s ∧ s.zoneId = p.1 := by
  have hmem : ∀ {done : List ((String × TransitionInput F) × ShipState F)} {d},
      transitions.sorted.entries = done.map Prod.fst → d ∈ done → d.1 ∈ transitions.entries :=
    fun hall hd => Dict.mem_entries_sorted.mp (hall ▸ List.mem_map_of_mem hd)
  rcases executeBatch_cases E transitions transitionName x with ⟨exc, hv, hr⟩ |
    ⟨hv, done, recs, -, hdone, ⟨p, post, exc, hsplit, hnone, hr⟩ |
      ⟨hall, ⟨⟨d, hd, hne⟩, exc, hr⟩ | ⟨hids, x', batch, hr, -⟩⟩⟩
  · exact iff_of_false (by simp [hr]) (by simp [hv])
  · refine iff_of_false (by simp [hr]) fun h => ?_
    have hp : p ∈ transitions.sorted.entries := by
      rw [hsplit]
      simp
    obtain ⟨s, hs, -⟩ := h.2 p (Dict.mem_entries_sorted.mp hp)
    exact absurd (hs.symm.trans hnone) (by simp)
  · refine iff_of_false (by simp [hr]) fun h => ?_
    obtain ⟨s, hs, hid⟩ := h.2 d.1 (hmem hall hd)
    rw [← Option.some.inj (hs.symm.trans (hdone d hd))] at hne
    exact hne hid
  · refine iff_of_true ⟨x', batch, hr⟩ ⟨hv, fun p hp => ?_⟩
    obtain ⟨d, hd, rfl⟩ := List.mem_map.mp (hall ▸ Dict.mem_entries_sorted.mpr hp)
    exact ⟨d.2, hdone d hd, hids d hd⟩

/-! ### When a batch is atomic -/

/-- If the batch raises, then the state vector, the batches, the batch counter, the records and
the sequence counter are as before. -/
def Unchanged (E : FloatEnv F) (x : MultiZoneExecutor F)
    (transitions : Dict String (TransitionInput F)) (transitionName : String) : Prop :=
  let r := x.executeBatch E transitions transitionName
  (∃ exc, r.2 = .error exc) → r.1.state = x.state ∧ r.1.batches = x.batches ∧
    r.1.batchCounter = x.batchCounter ∧ r.1.engine.records = x.engine.records ∧
    r.1.engine.sequenceCounter = x.engine.sequenceCounter

/-- The batch fails in the validation, or at its first zone in sorted order, or every zone has a
result, and the result carries the zone's id. -/
def AtomicWhen (x : MultiZoneExecutor F) (transitions : Dict String (TransitionInput F))
    (transitionName : String) : Prop :=
  (x.validate transitions).isSome ∨
    (∃ p, transitions.sorted.entries.head? = some p ∧
      zoneResult x.state x.engine.transitionFns transitionName p = none) ∨
    ∀ p ∈ transitions.entries, ∃ s,
      zoneResult x.state x.engine.transitionFns transitionName p = some s ∧ s.zoneId = p.1

section Cases

variable {x : MultiZoneExecutor F} {transitions : Dict String (TransitionInput F)}
  {transitionName : String} {done : List ((String × TransitionInput F) × ShipState F)}

/-- A batch that fails at a zone is atomic exactly if that zone is the first. -/
lemma atomicWhen_iff_of_fails (hv : x.validate transitions = none)
    (hdone : ∀ d ∈ done, zoneResult x.state x.engine.transitionFns transitionName d.1 = some d.2)
    {p : String × TransitionInput F} {post : List (String × TransitionInput F)}
    (hsplit : transitions.sorted.entries = done.map Prod.fst ++ p :: post)
    (hnone : zoneResult x.state x.engine.transitionFns transitionName p = none) :
    AtomicWhen x transitions transitionName ↔ done = [] := by
  rw [AtomicWhen, hv, hsplit]
  constructor
  · rintro (h | ⟨q, hq, hqnone⟩ | h)
    · exact absurd h (by simp)
    · cases done with
      | nil => rfl
      | cons d done =>
        obtain rfl : d.1 = q := by simpa using hq
        exact absurd ((hdone d List.mem_cons_self).symm.trans hqnone) (by simp)
    · have hmem : p ∈ transitions.entries := by
        rw [← Dict.mem_entries_sorted, hsplit]
        simp
      obtain ⟨s, hs, -⟩ := h p hmem
      exact absurd (hs.symm.trans hnone) (by simp)
  · rintro rfl
    exact Or.inr (Or.inl ⟨p, rfl, hnone⟩)

/-- A batch whose zones all have results is atomic exactly if these carry the zones' ids. -/
lemma atomicWhen_iff_of_through (hv : x.validate transitions = none)
    (hdone : ∀ d ∈ done, zoneResult x.state x.engine.transitionFns transitionName d.1 = some d.2)
    (hall : transitions.sorted.entries = done.map Prod.fst) :
    AtomicWhen x transitions transitionName ↔ ∀ d ∈ done, d.2.zoneId = d.1.1 := by
  have hmem : ∀ {p}, p ∈ transitions.entries ↔ ∃ d ∈ done, d.1 = p := by
    intro p
    rw [← Dict.mem_entries_sorted, hall, List.mem_map]
  rw [AtomicWhen, hv, hall]
  constructor
  · rintro (h | ⟨q, hq, hqnone⟩ | h) d hd
    · exact absurd h (by simp)
    · obtain ⟨d', hd', rfl⟩ := List.mem_map.mp (List.mem_of_head? hq)
      exact absurd ((hdone d' hd').symm.trans hqnone) (by simp)
    · obtain ⟨s, hs, hid⟩ := h d.1 (hmem.mpr ⟨d, hd, rfl⟩)
      rwa [Option.some.inj ((hdone d hd).symm.trans hs)]
  · intro h
    refine Or.inr (Or.inr fun p hp => ?_)
    obtain ⟨d, hd, rfl⟩ := hmem.mp hp
    exact ⟨d.2, hdone d hd, h d hd⟩

end Cases

/-- **Atomicity of one batch.** -/
theorem unchanged_iff_atomicWhen (E : FloatEnv F) (x : MultiZoneExecutor F)
    (transitions : Dict String (TransitionInput F)) (transitionName : String) :
    Unchanged E x transitions transitionName ↔ AtomicWhen x transitions transitionName := by
  rw [Unchanged]
  rcases executeBatch_cases E transitions transitionName x with ⟨exc, hv, hr⟩ |
    ⟨hv, done, recs, hlen, hdone, ⟨p, post, exc, hsplit, hnone, hr⟩ |
      ⟨hall, ⟨⟨d, hd, hne⟩, exc, hr⟩ | ⟨hids, x', batch, hr, -⟩⟩⟩
  · rw [hr]
    exact iff_of_true (fun _ => ⟨rfl, rfl, rfl, rfl, rfl⟩) (Or.inl (by simp [hv]))
  · rw [hr, atomicWhen_iff_of_fails hv hdone hsplit hnone]
    constructor
    · intro h
      have hrecs := DeterministicTransitionEngine.extend_eq_self (h ⟨exc, rfl⟩).2.2.2.1
      exact List.length_eq_zero_iff.mp (by rw [hlen, hrecs, List.length_nil])
    · rintro rfl -
      obtain rfl : recs = [] := List.length_eq_zero_iff.mp hlen.symm
      simp
  · rw [hr, atomicWhen_iff_of_through hv hdone hall]
    refine iff_of_false (fun h => ?_) fun h => hne (h d hd)
    have hrecs := DeterministicTransitionEngine.extend_eq_self (h ⟨exc, rfl⟩).2.2.2.1
    rw [hrecs, List.length_nil, List.length_eq_zero_iff] at hlen
    exact absurd hd (by simp [hlen])
  · rw [hr, atomicWhen_iff_of_through hv hdone hall]
    exact iff_of_true (fun ⟨exc, h⟩ => absurd h (by simp)) hids

/-! ### The records of the batches -/

/-- The engine's records are those of the executed batches, in order. -/
def RecordsMatch (x : MultiZoneExecutor F) : Prop :=
  x.engine.records = x.batches.flatMap (·.transitionRecords)

/-- A call of `execute_batch`, as a step of a run. -/
def call (E : FloatEnv F) (x : MultiZoneExecutor F)
    (c : Dict String (TransitionInput F) × String) : MultiZoneExecutor F :=
  (x.executeBatch E c.1 c.2).1

/-- The records go on matching the batches exactly if the batch is atomic. -/
lemma recordsMatch_call_iff (E : FloatEnv F) {x : MultiZoneExecutor F} (h : RecordsMatch x)
    (c : Dict String (TransitionInput F) × String) :
    RecordsMatch (call E x c) ↔ AtomicWhen x c.1 c.2 := by
  have hfail : ∀ recs : List TransitionRecord,
      RecordsMatch { x with engine := x.engine.extend recs } ↔ recs = [] := by
    intro recs
    show x.engine.records ++ recs = x.batches.flatMap (·.transitionRecords) ↔ recs = []
    rw [← h]
    exact List.append_right_eq_self
  rw [call]
  rcases executeBatch_cases E c.1 c.2 x with ⟨exc, hv, hr⟩ |
    ⟨hv, done, recs, hlen, hdone, ⟨p, post, exc, hsplit, hnone, hr⟩ |
      ⟨hall, ⟨⟨d, hd, hne⟩, exc, hr⟩ | ⟨hids, x', batch, hr, heng, hbatches, -, hrecs, -⟩⟩⟩
  · rw [hr]
    exact iff_of_true h (Or.inl (by simp [hv]))
  · rw [hr, atomicWhen_iff_of_fails hv hdone hsplit hnone, hfail, ← List.length_eq_zero_iff,
      ← hlen, List.length_eq_zero_iff]
  · rw [hr, atomicWhen_iff_of_through hv hdone hall, hfail, ← List.length_eq_zero_iff, ← hlen,
      List.length_eq_zero_iff]
    refine iff_of_false (fun hnil => ?_) fun hids => hne (hids d hd)
    rw [hnil] at hd
    exact absurd hd List.not_mem_nil
  · rw [hr, atomicWhen_iff_of_through hv hdone hall]
    refine iff_of_true ?_ hids
    show x'.engine.records = x'.batches.flatMap (·.transitionRecords)
    rw [heng, hbatches, List.flatMap_append, List.flatMap_singleton, hrecs, ← h]
    rfl

/-- **Atomicity.**  A batch that raises leaves the executor and the engine as they were exactly
if it fails in the validation or at its first zone.  Along a run, the engine's records are those
of the executed batches exactly if the engine starts without records and every batch either
fails so early or goes through. -/
theorem execute_batch_atomic_iff (E : FloatEnv F) :
    (∀ (x : MultiZoneExecutor F) (transitions : Dict String (TransitionInput F))
        (transitionName : String),
      Unchanged E x transitions transitionName ↔ AtomicWhen x transitions transitionName) ∧
    ∀ (state : ShipStateVector F) (engine : DeterministicTransitionEngine F)
        (calls : List (Dict String (TransitionInput F) × String)),
      (RecordsMatch (new state engine) ∧
          Run.Along (call E) (fun x c => RecordsMatch (call E x c)) (new state engine) calls) ↔
        engine.records = [] ∧
          Run.Along (call E) (fun x c => AtomicWhen x c.1 c.2) (new state engine) calls := by
  refine ⟨unchanged_iff_atomicWhen E, fun state engine calls => ?_⟩
  have hnew : RecordsMatch (new state engine) ↔ engine.records = [] := Iff.rfl
  rw [hnew]
  refine and_congr_right fun hnil => ?_
  exact Run.along_congr (P := fun _ => True) (I := RecordsMatch)
    (fun x c _ hx => recordsMatch_call_iff E hx c) (fun _ _ _ _ hnext => hnext)
    (fun _ _ => trivial) (hnew.mpr hnil)

end MultiZoneExecutor

/-! ### A batch that is not atomic -/

/-- Exact arithmetic, with fractions for decimals and texts in place of their hashes. -/
def exactEnv : FloatEnv ℚ where
  round8 := id
  fmt8 q := toString q.num ++ "/" ++ toString q.den
  str q := toString q.num ++ "/" ++ toString q.den
  sha256 := id

lemma bow_ne_empty : "bow" ≠ "" := by decide

lemma zero_not_negative : ¬(0 : ℚ) < 0.0 := by norm_num

lemma one_not_negative : ¬(1 : ℚ) < 0.0 := by norm_num

lemma one_positive : ¬(1 : ℚ) ≤ 0.0 := by norm_num

/-- A zone at rest. -/
def restingZone (zoneId : String) (h : zoneId ≠ "") : ShipState ℚ :=
  ⟨zoneId, 0, 1, 0, 0, 0, h, one_not_negative, zero_not_negative, zero_not_negative⟩

/-- The input that leaves a zone at rest for one unit of time. -/
def restingInput (zoneId : String) (h : zoneId ≠ "") : TransitionInput ℚ :=
  ⟨zoneId, 0, 0, 0, 0, 1, h, zero_not_negative, zero_not_negative, zero_not_negative, one_positive⟩

/-- A ship of which the bow is at rest. -/
def restingBow : ShipStateVector ℚ :=
  ⟨.ofList [("bow", restingZone "bow" bow_ne_empty)], by decide, by decide⟩

/-- A transition that raises on the stern. -/
def sternFault : TransitionFunction ℚ := fun state _ =>
  if state.zoneId = "stern" then .error (.valueError "sensor offline") else .ok state

namespace MultiZoneExecutor

/-- An executor with a bow and a stern, and the transition that raises on the stern. -/
def bowAndStern : MultiZoneExecutor ℚ :=
  new ⟨.ofList [("bow", restingZone "bow" bow_ne_empty),
      ("stern", restingZone "stern" (by decide))], by decide, by decide⟩
    ((DeterministicTransitionEngine.new exactEnv).registerTransition "stern_fault" sternFault).1

/-- The batch fails at the stern, and the record of the bow stays in the engine. -/
theorem stern_fault_keeps_record :
    let r := bowAndStern.executeBatch exactEnv
      (.ofList [("bow", restingInput "bow" (by decide)),
        ("stern", restingInput "stern" (by decide))]) "stern_fault"
    r.2 = .error (.valueError "sensor offline") ∧ r.1.batches = [] ∧
      r.1.engine.records.map (·.zoneId) = ["bow"] ∧ r.1.engine.sequenceCounter = 1 ∧
      bowAndStern.engine.records = [] := by
  decide

end MultiZoneExecutor

end QuantumFoundation
