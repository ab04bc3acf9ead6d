import QuantumFoundation.Lib.Documents
import QuantumFoundation.Physical.Verification

/-!
# The history of a zone

The batches of an executor keep, for every zone they have changed, the input and the record of its
transition.  Read zone by zone, they are the history of the zone: the zone is in the state to which
its own inputs take it, one after the other, whatever happened to the other zones, and the records
lead from hash to hash from its first state to its present one.  The engine's records of the zone
may be more, for a batch that fails leaves records behind.
-/

namespace QuantumFoundation

variable {F : Type*} [LT F] [LE F] [OfScientific F]

/-- `get_records_for_zone`. -/
def DeterministicTransitionEngine.getRecordsForZone (engine : DeterministicTransitionEngine F)
    (zoneId : String) : List TransitionRecord :=
  engine.records.filter fun r => r.zoneId = zoneId

/-- An input of a zone with the record of the transition it has caused. -/
abbrev HistoryEntry (F : Type*) [LT F] [LE F] [OfScientific F] :=
  (String × TransitionInput F) × TransitionRecord

/-- The inputs of a batch with their records. -/
def ZoneBatch.history (batch : ZoneBatch F) : List (HistoryEntry F) :=
  batch.zoneTransitions.zip batch.transitionRecords

/-- What the batches keep of a zone. -/
def MultiZoneExecutor.zoneHistory (x : MultiZoneExecutor F) (zoneId : String) :
    List (HistoryEntry F) :=
  (x.batches.flatMap ZoneBatch.history).filter fun q => q.1.1 = zoneId

/-- The recorded inputs take the zone through the recorded transitions. -/
def replayZone (fns : Dict String (TransitionFunction F)) :
    List (HistoryEntry F) → ShipState F → Option (ShipState F)
  | [], s => some s
  | (p, r) :: history, s =>
    (fns.get? r.transitionName).bind fun fn =>
      (fn s p.2).toOption.bind fun s' => replayZone fns history s'

/-! ### What an entry says -/

/-- The entry tells the transition of a zone from one state to another. -/
structure Tells (E : FloatEnv F) (fns : Dict String (TransitionFunction F)) (s : ShipState F)
    (q : HistoryEntry F) (s' : ShipState F) : Prop where
  transition : ∃ fn, fns.get? q.2.transitionName = some fn ∧ fn s q.1.2 = .ok s'
  zoneId : q.2.zoneId = q.1.1
  inputHash : q.2.inputHash = q.1.2.inputHash E
  preStateHash : q.2.preStateHash = s.stateHash E
  postStateHash : q.2.postStateHash = s'.stateHash E

/-- The history tells how a zone came from one state to another: its inputs take it there, and its
records lead from hash to hash. -/
structure Recounts (E : FloatEnv F) (fns : Dict String (TransitionFunction F)) (s : ShipState F)
    (history : List (HistoryEntry F)) (s' : ShipState F) : Prop where
  replay : replayZone fns history s = some s'
  linked : Linked (·.2.preStateHash) (·.2.postStateHash) (s.stateHash E) history
  tip : tip (·.2.postStateHash) (s.stateHash E) history = s'.stateHash E
  inputs : ∀ q ∈ history, q.2.zoneId = q.1.1 ∧ q.2.inputHash = q.1.2.inputHash E

section Histories

variable {E : FloatEnv F} {fns : Dict String (TransitionFunction F)} {s t u : ShipState F}
  {history : List (HistoryEntry F)} {q : HistoryEntry F}

lemma replayZone_append (history' : List (HistoryEntry F)) :
    replayZone fns (history ++ history') s
      = (replayZone fns history s).bind (replayZone fns history') := by
  induction history generalizing s with
  | nil => rfl
  | cons q history ih =>
    rw [List.cons_append, replayZone, replayZone]
    simp only [ih, Option.bind_assoc]

lemma Recounts.refl (s : ShipState F) : Recounts E fns s [] s := ⟨rfl, trivial, rfl, nofun⟩

/-- One transition more. -/
lemma Recounts.append (h : Recounts E fns s history t) (hq : Tells E fns t q u) :
    Recounts E fns s (history ++ [q]) u where
  replay := by
    obtain ⟨fn, hfn, hok⟩ := hq.transition
    rw [replayZone_append, h.replay, Option.bind_some, replayZone, hfn, Option.bind_some, hok]
    rfl
  linked := linked_append_singleton.mpr ⟨h.linked, hq.preStateHash.trans h.tip.symm⟩
  tip := by
    rw [tip_append_singleton]
    exact hq.postStateHash
  inputs q' hq' := by
    rcases List.mem_append.mp hq' with hq' | hq'
    · exact h.inputs q' hq'
    · obtain rfl := List.mem_singleton.mp hq'
      exact ⟨hq.zoneId, hq.inputHash⟩

end Histories

/-! ### What a batch adds to the histories -/

namespace MultiZoneExecutor

variable {E : FloatEnv F} {x : MultiZoneExecutor F} {transitionName : String}

/-- A transition that the engine makes is told by its record. -/
lemma tells_of_apply {engine : DeterministicTransitionEngine F} {p : String × TransitionInput F}
    {s s' : ShipState F} {record : TransitionRecord} (hid : s.zoneId = p.1)
    (h : (engine.apply E s p.2 transitionName).2 = .ok (s', record)) :
    Tells E engine.transitionFns s (p, record) s' ∧ record.transitionName = transitionName := by
  rw [DeterministicTransitionEngine.apply] at h
  cases hfn : engine.transitionFns.get? transitionName with
  | none => simp [hfn] at h
  | some fn =>
    simp only [hfn] at h
    split at h
    · exact absurd h (by simp)
    · cases hs : fn s p.2 with
      | error exc => simp [hs] at h
      | ok t =>
        simp only [hs] at h
        obtain ⟨rfl, rfl⟩ := Prod.mk.inj (Except.ok.inj h)
        exact ⟨⟨⟨fn, hfn, hs⟩, hid, rfl, rfl, rfl⟩, rfl⟩

/-- The registered functions are not changed by a transition. -/
lemma transitionFns_apply (engine : DeterministicTransitionEngine F) (s : ShipState F)
    (inp : TransitionInput F) (transitionName : String) :
    (engine.apply E s inp transitionName).1.transitionFns = engine.transitionFns := by
  rcases DeterministicTransitionEngine.apply_record E s inp transitionName engine with
    ⟨exc, h⟩ | ⟨t, record, h, -⟩
  · rw [h]
  · rw [h]
    rfl

/-- The entry tells a transition of a zone of the vector, made under the given name. -/
def Told (E : FloatEnv F) (state : ShipStateVector F) (fns : Dict String (TransitionFunction F))
    (transitionName : String) (q : HistoryEntry F) : Prop :=
  q.2.transitionName = transitionName ∧
    ∃ s s', state.get q.1.1 = some s ∧ Tells E fns s q s'

/-- The loop collects one record for each input, and the two tell the transition of the zone. -/
lemma zoneLoop_told (state : ShipStateVector F) (fns : Dict String (TransitionFunction F))
    (l : List (String × TransitionInput F)) {engine : DeterministicTransitionEngine F}
    (hfns : engine.transitionFns = fns) {progress progress' : BatchProgress F}
    (hlength : progress.orderedTransitions.length = progress.records.length)
    (h : ∀ q ∈ progress.orderedTransitions.zip progress.records, Told E state fns transitionName q)
    (hl : (zoneLoop E state transitionName l engine progress).2 = .ok progress') :
    progress'.orderedTransitions.length = progress'.records.length ∧
      ∀ q ∈ progress'.orderedTransitions.zip progress'.records,
        Told E state fns transitionName q := by
  induction l generalizing engine progress with
  | nil =>
    obtain rfl : progress = progress' := by simpa [zoneLoop] using hl
    exact ⟨hlength, h⟩
  | cons p l ih =>
    rw [zoneLoop] at hl
    cases hz : state.get p.1 with
    | none => simp [hz] at hl
    | some s =>
      have hkeep := transitionFns_apply (E := E) engine s p.2 transitionName
      have htells : ∀ s' record, (engine.apply E s p.2 transitionName).2 = .ok (s', record) →
          Tells E engine.transitionFns s (p, record) s' ∧ record.transitionName = transitionName :=
        fun s' record => tells_of_apply (ShipStateVector.zoneId_of_get hz)
      rcases happly : engine.apply E s p.2 transitionName with ⟨engine', exc | ⟨s', record⟩⟩
      · simp [hz, happly] at hl
      · rw [happly] at hkeep htells
        simp only [hz, happly] at hl
        refine ih (hkeep.trans hfns) (by simp [hlength]) (fun q hq => ?_) hl
        rw [List.zip_append hlength] at hq
        rcases List.mem_append.mp hq with hq | hq
        · exact h q hq
        · obtain rfl : q = (p, record) := by simpa using hq
          obtain ⟨htold, hname⟩ := htells s' record rfl
          exact ⟨hname, s, s', hz, hfns ▸ htold⟩

/-- What a batch keeps is what the loop has collected. -/
lemma executeBatch_told {transitions : Dict String (TransitionInput F)}
    {x' : MultiZoneExecutor F} {batch : ZoneBatch F}
    (h : x.executeBatch E transitions transitionName = (x', .ok batch)) :
    ∀ q ∈ batch.history, Told E x.state x.engine.transitionFns transitionName q := by
  rw [executeBatch] at h
  cases hv : x.validate transitions with
  | some exc => simp [hv] at h
  | none =>
    have htold : ∀ progress, (zoneLoop E x.state transitionName transitions.sorted.entries x.engine
        ⟨.empty, [], []⟩).2 = .ok progress → _ := fun progress =>
      zoneLoop_told x.state x.engine.transitionFns transitions.sorted.entries rfl rfl
        (fun q hq => absurd hq List.not_mem_nil)
    rcases hloop : zoneLoop E x.state transitionName transitions.sorted.entries x.engine
      ⟨.empty, [], []⟩ with ⟨engine, exc | progress⟩
    · simp [hv, hloop] at h
    · rw [hloop] at htold
      cases hstate : x.state.withUpdatedZones progress.zoneUpdates with
      | error exc => simp [hv, hloop, hstate] at h
      | ok state =>
        simp only [hv, hloop, hstate] at h
        obtain rfl := Except.ok.inj (Prod.mk.inj h).2
        exact (htold progress rfl).2

/-- **What a batch tells.**  A batch that goes through has one record for each of its inputs; the
two tell the transition of a zone of the vector before the batch to its state in the vector after
it. -/
theorem executeBatch_tells {transitions : Dict String (TransitionInput F)}
    {x' : MultiZoneExecutor F} {batch : ZoneBatch F}
    (h : x.executeBatch E transitions transitionName = (x', .ok batch)) :
    x'.batches = x.batches ++ [batch] ∧
      x'.engine = x.engine.extend batch.transitionRecords ∧
      batch.zoneTransitions = transitions.sorted.entries ∧
      batch.zoneTransitions.length = batch.transitionRecords.length ∧
      (∀ q ∈ batch.history, ∃ s s', x.state.get q.1.1 = some s ∧
        x'.state.get q.1.1 = some s' ∧ Tells E x.engine.transitionFns s q s') ∧
      ∀ zoneId ∉ transitions.keys, x'.state.get zoneId = x.state.get zoneId := by
  rcases executeBatch_cases E transitions transitionName x with ⟨exc, hv, hr⟩ |
    ⟨hv, done, recs, hlen, hdone, ⟨p, post, exc, hsplit, hnone, hr⟩ |
      ⟨hall, ⟨⟨d, hd, hne⟩, exc, hr⟩ |
        ⟨hids, x₁, batch₁, hr, hengine, hbatches, -, hrecs, hzones, hget, hframe⟩⟩⟩
  · exact absurd (hr.symm.trans h) (by simp)
  · exact absurd (hr.symm.trans h) (by simp)
  · exact absurd (hr.symm.trans h) (by simp)
  obtain ⟨rfl, rfl⟩ : x' = x₁ ∧ batch = batch₁ := by simpa using h.symm.trans hr
  have hlength : batch.zoneTransitions.length = batch.transitionRecords.length := by
    rw [hzones, hall, hrecs, List.length_map, hlen]
  refine ⟨hbatches, hrecs ▸ hengine, hzones, hlength, fun q hq => ?_, hframe⟩
  obtain ⟨hname, s, s', hs, htells⟩ := executeBatch_told h q hq
  refine ⟨s, s', hs, ?_, htells⟩
  have hmem : q.1 ∈ batch.zoneTransitions := (List.of_mem_zip hq).1
  rw [hzones, hall] at hmem
  obtain ⟨d, hd, hdq⟩ := List.mem_map.mp hmem
  obtain ⟨fn, hfn, hok⟩ := htells.transition
  have hresult := hdone d hd
  rw [hdq, zoneResult, ← hname, hfn, Option.bind_some, hs, Option.bind_some, hok] at hresult
  rw [← hdq, hget d hd, ← Option.some.inj hresult]

/-- What a batch adds to the history of a zone: nothing, if it does not list the zone, and
otherwise one entry. -/
lemma history_filter {transitions : Dict String (TransitionInput F)} {batch : ZoneBatch F}
    (hzones : batch.zoneTransitions = transitions.sorted.entries)
    (hlength : batch.zoneTransitions.length = batch.transitionRecords.length) (zoneId : String) :
    (zoneId ∉ transitions.keys ∧ (batch.history.filter fun q => q.1.1 = zoneId) = []) ∨
      ∃ q ∈ batch.history, q.1.1 = zoneId ∧
        (batch.history.filter fun q => q.1.1 = zoneId) = [q] := by
  have hinputs : batch.history.map Prod.fst = transitions.sorted.entries := by
    rw [ZoneBatch.history, List.map_fst_zip hlength.le, hzones]
  have hkeys : (batch.history.map fun q => q.1.1).Nodup := by
    have hnodup := transitions.sorted.nodup
    rwa [← hinputs, List.map_map] at hnodup
  by_cases hz : zoneId ∈ transitions.keys
  · obtain ⟨inp, hinp⟩ := Dict.mem_keys.mp hz
    have hmem : (zoneId, inp) ∈ batch.history.map Prod.fst :=
      hinputs ▸ Dict.mem_entries_sorted.mpr hinp
    obtain ⟨q, hq, hqz⟩ := List.mem_map.mp hmem
    obtain rfl : q.1.1 = zoneId := congrArg Prod.fst hqz
    exact Or.inr ⟨q, hq, rfl, Documents.filter_key_eq_singleton hkeys hq⟩
  · refine Or.inl ⟨hz, List.filter_eq_nil_iff.mpr fun q hq heq => hz ?_⟩
    have hmem : q.1 ∈ transitions.sorted.entries := hinputs ▸ List.mem_map_of_mem hq
    exact Dict.mem_keys.mpr ⟨q.1.2, of_decide_eq_true heq ▸ Dict.mem_entries_sorted.mp hmem⟩

/-! ### Every run -/

/-- What every batch keeps, whether it goes through or raises. -/
structure Provenance (E : FloatEnv F) (fns : Dict String (TransitionFunction F))
    (initialState : ShipStateVector F) (x : MultiZoneExecutor F) : Prop where
  transitionFns : x.engine.transitionFns = fns
  present : ∀ zoneId s₀, initialState.get zoneId = some s₀ → ∃ s, x.state.get zoneId = some s ∧
    Recounts E fns s₀ (x.zoneHistory zoneId) s
  absent : ∀ zoneId, initialState.get zoneId = none → x.state.get zoneId = none ∧
    x.zoneHistory zoneId = []
  logged : ∀ zoneId, ((x.zoneHistory zoneId).map Prod.snd).Sublist
    (x.engine.getRecordsForZone zoneId)

variable {initialState : ShipStateVector F}

lemma Provenance.init (engine : DeterministicTransitionEngine F) :
    Provenance E engine.transitionFns initialState (new initialState engine) where
  transitionFns := rfl
  present _ s₀ hs₀ := ⟨s₀, hs₀, .refl s₀⟩
  absent _ hnone := ⟨hnone, rfl⟩
  logged _ := List.nil_sublist _

/-- A batch that raises may leave records in the engine. -/
lemma Provenance.fail {fns : Dict String (TransitionFunction F)}
    (h : Provenance E fns initialState x) (recs : List TransitionRecord) :
    Provenance E fns initialState { x with engine := x.engine.extend recs } where
  transitionFns := h.transitionFns
  present := h.present
  absent := h.absent
  logged zoneId := by
    refine (h.logged zoneId).trans ?_
    rw [DeterministicTransitionEngine.getRecordsForZone,
      DeterministicTransitionEngine.getRecordsForZone, DeterministicTransitionEngine.extend,
      List.filter_append]
    exact List.sublist_append_left _ _

lemma Provenance.succeed {fns : Dict String (TransitionFunction F)}
    (h : Provenance E fns initialState x) {transitions : Dict String (TransitionInput F)}
    {x' : MultiZoneExecutor F} {batch : ZoneBatch F}
    (hbatch : x.executeBatch E transitions transitionName = (x', .ok batch)) :
    Provenance E fns initialState x' := by
  obtain ⟨hbatches, hengine, hzones, hlength, htells, hframe⟩ := executeBatch_tells hbatch
  rw [h.transitionFns] at htells
  have hhistory : ∀ zoneId, x'.zoneHistory zoneId
      = x.zoneHistory zoneId ++ batch.history.filter fun q => q.1.1 = zoneId := fun zoneId => by
    rw [zoneHistory, hbatches, List.flatMap_append, List.flatMap_singleton, List.filter_append]
    rfl
  refine ⟨?_, fun zoneId s₀ hs₀ => ?_, fun zoneId hnone => ?_, fun zoneId => ?_⟩
  · rw [hengine]
    exact h.transitionFns
  · obtain ⟨s, hs, hrecounts⟩ := h.present zoneId s₀ hs₀
    rw [hhistory]
    rcases history_filter hzones hlength zoneId with ⟨hz, hnil⟩ | ⟨q, hq, rfl, hsingle⟩
    · rw [hnil, List.append_nil]
      exact ⟨s, (hframe zoneId hz).trans hs, hrecounts⟩
    · obtain ⟨t, s', ht, hs', htold⟩ := htells q hq
      obtain rfl : s = t := Option.some.inj (hs.symm.trans ht)
      rw [hsingle]
      exact ⟨s', hs', hrecounts.append htold⟩
  · obtain ⟨hstate, hnil⟩ := h.absent zoneId hnone
    rw [hhistory, hnil, List.nil_append]
    rcases history_filter hzones hlength zoneId with ⟨hz, hfilter⟩ | ⟨q, hq, rfl, hsingle⟩
    · exact ⟨(hframe zoneId hz).trans hstate, hfilter⟩
    · obtain ⟨t, -, ht, -⟩ := htells q hq
      exact absurd (hstate.symm.trans ht).symm (Option.some_ne_none t)
  · have hnew : (batch.history.filter fun q => q.1.1 = zoneId).map Prod.snd
        = batch.transitionRecords.filter fun r => r.zoneId = zoneId := by
      have hrecords : batch.history.map Prod.snd = batch.transitionRecords :=
        List.map_snd_zip hlength.ge
      rw [← hrecords, List.filter_map]
      refine congrArg _ (List.filter_congr fun q hq => ?_)
      obtain ⟨s, s', -, -, htold⟩ := htells q hq
      rw [Function.comp_apply, htold.zoneId]
    rw [hhistory, List.map_append, hnew, hengine, DeterministicTransitionEngine.getRecordsForZone,
      DeterministicTransitionEngine.extend, List.filter_append]
    exact (h.logged zoneId).append_right _

/-- **Step lemma.** -/
theorem Provenance.call {fns : Dict String (TransitionFunction F)}
    (h : Provenance E fns initialState x) (c : Dict String (TransitionInput F) × String) :
    Provenance E fns initialState (call E x c) := by
  rw [MultiZoneExecutor.call]
  rcases executeBatch_cases E c.1 c.2 x with ⟨exc, -, hr⟩ |
    ⟨-, done, recs, -, -, ⟨p, post, exc, -, -, hr⟩ | ⟨-, ⟨-, exc, hr⟩ | ⟨-, x', batch, hr, -⟩⟩⟩
  · rw [hr]
    exact h
  · rw [hr]
    exact h.fail recs
  · rw [hr]
    exact h.fail recs
  · rw [hr]
    exact h.succeed hr

/-- **Provenance.**  After every sequence of batches, with whatever transitions are registered and
whichever batches raise: every zone is in the state to which the transitions recorded of it take its
first state, at the recorded inputs and with no regard to the other zones; its records lead from the
hash of its first state to that of its present one, carry its id and the hashes of its inputs, and
are among the engine's records of the zone, in the same order; and there are no other zones. -/
theorem zone_provenance (E : FloatEnv F) (initialState : ShipStateVector F)
    (engine : DeterministicTransitionEngine F)
    (calls : List (Dict String (TransitionInput F) × String)) :
    let x := Run.exec (call E) (new initialState engine) calls
    (∀ zoneId s₀, initialState.get zoneId = some s₀ → ∃ s, x.state.get zoneId = some s ∧
      replayZone engine.transitionFns (x.zoneHistory zoneId) s₀ = some s ∧
      Linked (·.2.preStateHash) (·.2.postStateHash) (s₀.stateHash E) (x.zoneHistory zoneId) ∧
      tip (·.2.postStateHash) (s₀.stateHash E) (x.zoneHistory zoneId) = s.stateHash E ∧
      (∀ q ∈ x.zoneHistory zoneId, q.2.zoneId = zoneId ∧ q.2.inputHash = q.1.2.inputHash E) ∧
      ((x.zoneHistory zoneId).map Prod.snd).Sublist (x.engine.getRecordsForZone zoneId)) ∧
    ∀ zoneId, initialState.get zoneId = none →
      x.state.get zoneId = none ∧ x.zoneHistory zoneId = [] := by
  intro x
  have h : Provenance E engine.transitionFns initialState x :=
    Run.invariant_of_forall (I := Provenance E engine.transitionFns initialState)
      (fun _ c h => h.call c) (.init engine) calls
  refine ⟨fun zoneId s₀ hs₀ => ?_, h.absent⟩
  obtain ⟨s, hs, hrecounts⟩ := h.present zoneId s₀ hs₀
  refine ⟨s, hs, hrecounts.replay, hrecounts.linked, hrecounts.tip, fun q hq => ?_,
    h.logged zoneId⟩
  obtain ⟨hid, hinput⟩ := hrecounts.inputs q hq
  exact ⟨hid.trans (of_decide_eq_true (List.mem_filter.mp hq).2), hinput⟩

end MultiZoneExecutor

end QuantumFoundation
