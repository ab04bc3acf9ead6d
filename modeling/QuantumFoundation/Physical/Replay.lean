import QuantumFoundation.Lib.Digest
import QuantumFoundation.Physical.Verification

/-!
# Replay

`replay` takes one transition name for all batches, and a batch does not carry the name with which
it was executed.  So an executor is reproduced from the inputs that its batches have recorded
exactly if all its batches that are not empty were executed with one name.
-/

namespace QuantumFoundation

variable {F : Type*} [LT F] [LE F] [OfScientific F]

namespace MultiZoneExecutor

/-! ### Executing batches in a row -/

/-- The batches are executed one after the other, up to the first that raises. -/
def executeAll (E : FloatEnv F) : List (Dict String (TransitionInput F) × String) →
    MultiZoneExecutor F → Except PyError (MultiZoneExecutor F)
  | [], x => .ok x
  | (transitions, transitionName) :: rest, x =>
    match x.executeBatch E transitions transitionName with
    | (_, .error exc) => .error exc
    | (x', .ok _) => executeAll E rest x'

/-- `replay`. -/
def replay [Add F] [Sub F] [Mul F] [Div F] [DecidableLT F] (E : FloatEnv F)
    (initialState : ShipStateVector F) (inputsSequence : List (Dict String (TransitionInput F)))
    (transitionName : String) : Except PyError (MultiZoneExecutor F) :=
  executeAll E (inputsSequence.map fun batchInputs => (batchInputs, transitionName))
    (new initialState (DeterministicTransitionEngine.new E))

/-- The inputs that the batches have recorded, as dictionaries. -/
def recordedInputs (x : MultiZoneExecutor F) : List (Dict String (TransitionInput F)) :=
  x.batches.map fun b => .ofList b.zoneTransitions

variable {E : FloatEnv F} {transitions : Dict String (TransitionInput F)} {transitionName : String}
  {x x' : MultiZoneExecutor F} {batch : ZoneBatch F}

lemma validate_of_ok (h : x.executeBatch E transitions transitionName = (x', .ok batch)) :
    x.validate transitions = none := by
  cases hv : x.validate transitions with
  | none => rfl
  | some exc =>
    rw [executeBatch, hv] at h
    exact absurd h (by simp)

/-- A batch that goes through does the same with its zones in sorted order. -/
lemma executeBatch_sorted (h : x.validate transitions = none) (transitionName : String) :
    x.executeBatch E transitions.sorted transitionName
      = x.executeBatch E transitions transitionName := by
  have hsorted : x.validate transitions.sorted = none := by
    rw [validate_eq_none] at h ⊢
    intro p hp
    exact h p (Dict.mem_entries_sorted.mp hp)
  rw [executeBatch, executeBatch, h, hsorted, Dict.sorted_sorted]

/-- An empty batch asks for no transition. -/
lemma executeBatch_empty (h : transitions.entries = []) (name name' : String) :
    x.executeBatch E transitions name = x.executeBatch E transitions name' := by
  rw [executeBatch, executeBatch, Dict.entries_sorted_eq_nil.mpr h]
  rfl

/-! ### What a batch records -/

/-- The batch as the record of a call. -/
structure RecordOf (E : FloatEnv F) (c : Dict String (TransitionInput F) × String)
    (batch : ZoneBatch F) : Prop where
  zoneTransitions : batch.zoneTransitions = c.1.sorted.entries
  length : batch.transitionRecords.length = batch.zoneTransitions.length
  digest : ∀ r ∈ batch.transitionRecords,
    r.recordHash = (DeterministicTransitionEngine.recordChain E).digest r
  name : ∀ r ∈ batch.transitionRecords, r.transitionName = c.2
  pre : batch.preGlobalHash ∈ Set.range E.sha256
  post : batch.postGlobalHash ∈ Set.range E.sha256

lemma RecordOf.ne_nil_iff {c : Dict String (TransitionInput F) × String}
    (h : RecordOf E c batch) : batch.zoneTransitions ≠ [] ↔ c.1.entries ≠ [] := by
  rw [h.zoneTransitions, ne_eq, ne_eq, Dict.entries_sorted_eq_nil]

lemma RecordOf.records_ne_nil_iff {c : Dict String (TransitionInput F) × String}
    (h : RecordOf E c batch) : batch.transitionRecords ≠ [] ↔ batch.zoneTransitions ≠ [] := by
  rw [← List.length_pos_iff, ← List.length_pos_iff, h.length]

/-- **A batch that goes through** is recorded, with the next batch id, and leaves the registered
transitions; if it has a zone, then its transition is one of these. -/
theorem recordOf_executeBatch
    (h : x.executeBatch E transitions transitionName = (x', .ok batch)) :
    RecordOf E (transitions, transitionName) batch ∧ x'.batches = x.batches ++ [batch] ∧
      batch.batchId = x.batchCounter + 1 ∧ x'.batchCounter = x.batchCounter + 1 ∧
      x'.engine.transitionFns = x.engine.transitionFns ∧
      (transitions.entries ≠ [] → ∃ fn, x.engine.transitionFns.get? transitionName = some fn) := by
  rcases executeBatch_cases E transitions transitionName x with ⟨exc, hv, hr⟩ |
    ⟨hv, done, recs, hlen, hdone, ⟨p, post, exc, hsplit, hnone, hr⟩ |
      ⟨hall, ⟨⟨d, hd, hne⟩, exc, hr⟩ |
        ⟨hids, x₁, batch₁, hr, hengine, hbatches, hcounter, hrecs, hzones, -⟩⟩⟩
  · exact absurd (hr.symm.trans h) (by simp)
  · exact absurd (hr.symm.trans h) (by simp)
  · exact absurd (hr.symm.trans h) (by simp)
  obtain ⟨rfl, rfl⟩ : x' = x₁ ∧ batch = batch₁ := by simpa using h.symm.trans hr
  obtain ⟨-, ⟨⟨exc, hexc⟩, -⟩ | ⟨batch₂, hok, -, -, hid, hpre, hpost, -, -, hR⟩⟩ :=
    executeBatch_record E transitions transitionName x
  · exact absurd hexc (by simp [h])
  obtain rfl : batch = batch₂ := by simpa [h] using hok
  have hrecords : ∀ r ∈ batch.transitionRecords,
      r.recordHash = (DeterministicTransitionEngine.recordChain E).digest r ∧
        r.transitionName = transitionName := by
    refine hR _ ?_
    intro engine s inp s' record happly
    rcases DeterministicTransitionEngine.apply_record E s inp transitionName engine with
      ⟨exc, happ⟩ | ⟨s₁, record₁, happ, -, hhash, hname⟩
    · exact absurd happly (by simp [happ])
    · obtain ⟨rfl, rfl⟩ : s₁ = s' ∧ record₁ = record := by simpa [happ] using happly
      exact ⟨hhash, hname⟩
  refine ⟨⟨hzones, ?_, fun r hr => (hrecords r hr).1, fun r hr => (hrecords r hr).2,
    ⟨_, hpre.symm⟩, ⟨_, hpost.symm⟩⟩, hbatches, hid, hcounter, by rw [hengine]; rfl, ?_⟩
  · rw [hzones, hall, hrecs, List.length_map, hlen]
  · intro hne
    cases done with
    | nil => exact absurd (Dict.entries_sorted_eq_nil.mp hall) hne
    | cons d done =>
      obtain ⟨fn, hfn, -⟩ := Option.bind_eq_some_iff.mp (hdone d List.mem_cons_self)
      exact ⟨fn, hfn⟩

/-! ### What a run of batches records -/

lemma executeAll_cons {c : Dict String (TransitionInput F) × String}
    {calls : List (Dict String (TransitionInput F) × String)} :
    executeAll E (c :: calls) x = .ok x' ↔
      ∃ x₁ batch, x.executeBatch E c.1 c.2 = (x₁, .ok batch) ∧ executeAll E calls x₁ = .ok x' := by
  rw [executeAll]
  rcases h : x.executeBatch E c.1 c.2 with ⟨x₁, exc | batch⟩ <;> simp

/-- **Run lemma.**  The batches of a run are the records of its calls, numbered on; a batch with a
zone is executed with a transition that the engine knows. -/
theorem executeAll_records {calls : List (Dict String (TransitionInput F) × String)}
    (h : executeAll E calls x = .ok x') :
    ∃ bs, x'.batches = x.batches ++ bs ∧ List.Forall₂ (RecordOf E) calls bs ∧
      NumberedFrom ZoneBatch.batchId (x.batchCounter + 1) bs ∧
      ∀ c ∈ calls, c.1.entries ≠ [] → ∃ fn, x.engine.transitionFns.get? c.2 = some fn := by
  induction calls generalizing x with
  | nil =>
    obtain rfl : x = x' := by simpa [executeAll] using h
    exact ⟨[], by simp, .nil, trivial, by simp⟩
  | cons c calls ih =>
    obtain ⟨x₁, batch, hbatch, hrest⟩ := executeAll_cons.mp h
    obtain ⟨hrecord, hbatches, hid, hcounter, hfns, hname⟩ := recordOf_executeBatch hbatch
    obtain ⟨bs, hbs, hrecords, hnum, hnames⟩ := ih hrest
    refine ⟨batch :: bs, by simp [hbs, hbatches], .cons hrecord hrecords, ⟨hid, ?_⟩, ?_⟩
    · rwa [hcounter, Nat.cast_succ] at hnum
    · intro c' hc' hne
      rcases List.mem_cons.mp hc' with rfl | hc'
      · exact hname hne
      · rw [← hfns]
        exact hnames c' hc' hne

/-- The inputs that the records of the calls carry are those of the calls, in sorted order. -/
lemma recordedInputs_eq {calls : List (Dict String (TransitionInput F) × String)}
    {bs : List (ZoneBatch F)} (h : List.Forall₂ (RecordOf E) calls bs) :
    bs.map (fun b => Dict.ofList b.zoneTransitions) = calls.map fun c => c.1.sorted := by
  induction h with
  | nil => rfl
  | cons hc _ ih => rw [List.map_cons, List.map_cons, ih, hc.zoneTransitions, Dict.ofList_entries]

/-- A run in which every batch with a zone is executed with one name does the same if all batches
are executed with this name, and their zones in sorted order. -/
lemma executeAll_sameName {calls : List (Dict String (TransitionInput F) × String)}
    {name : String} (hname : ∀ c ∈ calls, c.1.entries ≠ [] → c.2 = name)
    (h : executeAll E calls x = .ok x') :
    executeAll E (calls.map fun c => (c.1.sorted, name)) x = .ok x' := by
  induction calls generalizing x with
  | nil => exact h
  | cons c calls ih =>
    obtain ⟨x₁, batch, hbatch, hrest⟩ := executeAll_cons.mp h
    rw [List.map_cons, executeAll_cons]
    refine ⟨x₁, batch, ?_, ih (fun c' hc' => hname c' (List.mem_cons_of_mem c hc')) hrest⟩
    rw [executeBatch_sorted (validate_of_ok hbatch), ← hbatch]
    -- a batch without a zone asks for no transition, whatever its name
    by_cases hempty : c.1.entries = []
    · exact executeBatch_empty hempty name c.2
    · rw [hname c List.mem_cons_self hempty]

/-- The batches of a run form a hash chain behind the ones before. -/
lemma chained_of_executeAll {initialState : ShipStateVector F}
    {calls : List (Dict String (TransitionInput F) × String)} (h₀ : Intact E initialState x)
    (h : executeAll E calls x = .ok x') : Intact E initialState x' := by
  induction calls generalizing x with
  | nil =>
    obtain rfl : x = x' := by simpa [executeAll] using h
    exact h₀
  | cons c calls ih =>
    obtain ⟨x₁, batch, hbatch, hrest⟩ := executeAll_cons.mp h
    have hstep := h₀.perform (.executeBatch c.1 c.2)
    rw [perform, hbatch] at hstep
    exact ih hstep hrest

/-! ### What the batch hashes fix -/

/-- The transitions that the default engine knows. -/
lemma name_of_default [Add F] [Sub F] [Mul F] [Div F] [DecidableLT F] {name : String}
    {fn : TransitionFunction F}
    (h : (DeterministicTransitionEngine.new E).transitionFns.get? name = some fn) :
    name = "accelerated_corrosion" ∨ name = "standard" := by
  have hmem := Dict.mem_keys_of_get? h
  simpa [DeterministicTransitionEngine.new, DeterministicTransitionEngine.registerTransition,
    Dict.mem_keys_set, Dict.contains] using hmem

/-- Two texts that are equal end with the same character. -/
lemma getLast?_of_append_eq {s t a b : String} (h : a ++ s = b ++ t) (hs : s.toList ≠ [])
    (ht : t.toList ≠ []) : s.toList.getLast? = t.toList.getLast? := by
  have hlist := congrArg (fun u => u.toList.getLast?) h
  simp only [String.toList_append] at hlist
  rwa [List.getLast?_append_of_ne_nil _ hs, List.getLast?_append_of_ne_nil _ ht] at hlist

omit [LT F] [LE F] [OfScientific F] in
/-- The names of the transitions of the default engine end differently, so a record hash, which
is made of a text that ends with the name, fixes the name. -/
lemma name_eq_of_digest_eq (hE : IdealDigest E.sha256) {r r' : TransitionRecord}
    (hr : r.transitionName = "accelerated_corrosion" ∨ r.transitionName = "standard")
    (hr' : r'.transitionName = "accelerated_corrosion" ∨ r'.transitionName = "standard")
    (h : (DeterministicTransitionEngine.recordChain E).digest r
      = (DeterministicTransitionEngine.recordChain E).digest r') :
    r.transitionName = r'.transitionName := by
  have htext := hE.injective h
  rcases hr with hr | hr <;> rcases hr' with hr' | hr' <;> rw [hr, hr'] at htext ⊢
  · exact absurd (getLast?_of_append_eq htext (by decide) (by decide)) (by decide)
  · exact absurd (getLast?_of_append_eq htext (by decide) (by decide)) (by decide)

/-- **What the hash of a batch fixes.**  Two batches with the same id and the same zones, executed
with transitions of the default engine: if their hashes are equal, then so are the names of
their transitions, if there is a zone, and the hashes of the batches before. -/
theorem RecordOf.agree (hE : IdealDigest E.sha256)
    {c d : Dict String (TransitionInput F) × String} {b b' : ZoneBatch F} (hb : RecordOf E c b)
    (hb' : RecordOf E d b') (hid : b.batchId = b'.batchId)
    (hzones : b.zoneTransitions = b'.zoneTransitions)
    (hc : b.zoneTransitions ≠ [] → c.2 = "accelerated_corrosion" ∨ c.2 = "standard")
    (hd : b'.zoneTransitions ≠ [] → d.2 = "accelerated_corrosion" ∨ d.2 = "standard")
    (h : (batchChain E).digest b = (batchChain E).digest b') :
    (b.zoneTransitions ≠ [] → c.2 = d.2) ∧ b.prevBatchHash = b'.prevBatchHash := by
  have htext := hE.injective h
  obtain ⟨pre, hpre⟩ := hb.pre
  obtain ⟨pre', hpre'⟩ := hb'.pre
  obtain ⟨post, hpost⟩ := hb.post
  obtain ⟨post', hpost'⟩ := hb'.post
  rw [hid, ← hpre, ← hpre', ← hpost, ← hpost'] at htext
  simp only [String.append_assoc, String.append_right_inj] at htext
  -- the text is read from the left: the global hashes, the record hashes, the previous hash
  obtain ⟨-, htext⟩ := hE.append_inj htext
  obtain ⟨-, htext⟩ := hE.append_inj htext
  have hdigest : ∀ {c : Dict String (TransitionInput F) × String} {b : ZoneBatch F},
      RecordOf E c b → ∀ t ∈ b.transitionRecords.map (·.recordHash), t ∈ Set.range E.sha256 := by
    intro c b hb t ht
    obtain ⟨r, hr, rfl⟩ := List.mem_map.mp ht
    exact ⟨_, (hb.digest r hr).symm⟩
  obtain ⟨hrecords, hprev⟩ := hE.join_append_inj (hdigest hb) (hdigest hb')
    (by rw [List.length_map, List.length_map, hb.length, hb'.length, hzones]) htext
  refine ⟨fun hne => ?_, hprev⟩
  -- with a zone there is a first record on both sides, and their hashes are equal
  have hne' : b'.zoneTransitions ≠ [] := hzones ▸ hne
  obtain ⟨r, rs, hrs⟩ := List.exists_cons_of_ne_nil (hb.records_ne_nil_iff.mpr hne)
  obtain ⟨r', rs', hrs'⟩ := List.exists_cons_of_ne_nil (hb'.records_ne_nil_iff.mpr hne')
  have hr : r ∈ b.transitionRecords := hrs ▸ List.mem_cons_self
  have hr' : r' ∈ b'.transitionRecords := hrs' ▸ List.mem_cons_self
  rw [hrs, hrs', List.map_cons, List.map_cons, List.cons.injEq] at hrecords
  rw [← hb.name r hr, ← hb'.name r' hr']
  refine name_eq_of_digest_eq hE ?_ ?_ ?_
  · rw [hb.name r hr]
    exact hc hne
  · rw [hb'.name r' hr']
    exact hd hne'
  · rw [← hb.digest r hr, ← hb'.digest r' hr']
    exact hrecords.1

/-- Two numbered lists whose entries belong to the same calls correspond by their numbers. -/
lemma forall₂_numbered {γ : Type*} {P Q : γ → ZoneBatch F → Prop} {calls : List γ}
    {bs bs' : List (ZoneBatch F)} {k : ℤ} (h : List.Forall₂ P calls bs)
    (h' : List.Forall₂ Q calls bs') (hnum : NumberedFrom ZoneBatch.batchId k bs)
    (hnum' : NumberedFrom ZoneBatch.batchId k bs') :
    List.Forall₂ (fun b b' => b.batchId = b'.batchId ∧ ∃ c, P c b ∧ Q c b') bs bs' := by
  induction h generalizing bs' k with
  | nil =>
    cases h'
    exact .nil
  | cons hb _ ih =>
    cases h' with
    | cons hb' hrest =>
      exact .cons ⟨hnum.1.trans hnum'.1.symm, _, hb, hb'⟩ (ih hrest hnum.2 hnum'.2)

/-! ### When replay reproduces the run -/

section Replay

variable [Add F] [Sub F] [Mul F] [Div F] [DecidableLT F]

/-- With some transition name, the replay of the recorded inputs goes through, and ends with the
same state hash and the same batch chain hash. -/
def ReplayReproduces (E : FloatEnv F) (initialState : ShipStateVector F) (x : MultiZoneExecutor F) :
    Prop :=
  ∃ name r, replay E initialState x.recordedInputs name = .ok r ∧
    r.globalHash E = x.globalHash E ∧ r.batchChainHash = x.batchChainHash

/-- The calls that have a zone to change all name the same transition. -/
def OneName (calls : List (Dict String (TransitionInput F) × String)) : Prop :=
  ∃ name, ∀ c ∈ calls, c.1.entries ≠ [] → c.2 = name

lemma replay_recordedInputs {initialState : ShipStateVector F}
    {calls : List (Dict String (TransitionInput F) × String)}
    (hx : executeAll E calls (new initialState (DeterministicTransitionEngine.new E)) = .ok x)
    (name : String) : replay E initialState x.recordedInputs name
      = executeAll E (calls.map fun c => (c.1.sorted, name))
        (new initialState (DeterministicTransitionEngine.new E)) := by
  obtain ⟨bs, hbs, hrecords, -⟩ := executeAll_records hx
  obtain rfl : x.batches = bs := hbs
  rw [replay, recordedInputs, recordedInputs_eq hrecords, List.map_map]
  rfl

/-- A replay that ends with the same batch chain hash has used the name of every batch. -/
lemma name_of_replay (hE : IdealDigest E.sha256) {initialState : ShipStateVector F}
    {calls : List (Dict String (TransitionInput F) × String)} {name : String}
    {r : MultiZoneExecutor F}
    (hx : executeAll E calls (new initialState (DeterministicTransitionEngine.new E)) = .ok x)
    (hr : executeAll E (calls.map fun c => (c.1.sorted, name))
      (new initialState (DeterministicTransitionEngine.new E)) = .ok r)
    (hhash : r.batchChainHash = x.batchChainHash) :
    ∀ c ∈ calls, c.1.entries ≠ [] → c.2 = name := by
  obtain ⟨bs, hbs, hrecords, hnum, hknown⟩ := executeAll_records hx
  obtain ⟨rs, hrs, hrecords', hnum', hknown'⟩ := executeAll_records hr
  obtain rfl : x.batches = bs := hbs
  obtain rfl : r.batches = rs := hrs
  have hxchain := (chained_of_executeAll (Intact.init rfl : Intact E initialState _) hx).batches
  have hrchain := (chained_of_executeAll (Intact.init rfl : Intact E initialState _) hr).batches
  have hcalls := (List.forall₂_and_left _ _).mpr
    ⟨fun c hc hne => name_of_default (hknown c hc hne).choose_spec, hrecords⟩
  have hcalls' := List.forall₂_map_left_iff.mp ((List.forall₂_and_left _ _).mpr
    ⟨fun c hc hne => name_of_default (hknown' c hc hne).choose_spec, hrecords'⟩)
  have hpairs := forall₂_numbered hcalls hcalls' hnum hnum'
  -- from the common tip backwards, every pair of batches has the same name
  obtain ⟨hnames, -⟩ := ChainFormat.Chained.forall₂_of_tip_eq
    (S := fun b _ => ∀ record ∈ b.transitionRecords, record.transitionName = name)
    (fun b b' hbb' hb hb' hhash => by
      obtain ⟨hid, c, ⟨hc, hrec⟩, hc', hrec'⟩ := hbb'
      have hzones : b.zoneTransitions = b'.zoneTransitions := by
        rw [hrec.zoneTransitions, hrec'.zoneTransitions, Dict.sorted_sorted]
      obtain ⟨hname, hprev⟩ := hrec.agree hE hrec' hid hzones
        (fun hne => hc (hrec.ne_nil_iff.mp hne))
        (fun hne => hc' (hrec'.ne_nil_iff.mp hne)) (hb.symm.trans (hhash.trans hb'))
      refine ⟨fun record hmem => ?_, hprev⟩
      rw [hrec.name record hmem]
      exact hname (hrec.records_ne_nil_iff.mp (List.ne_nil_of_mem hmem)))
    hxchain hrchain hpairs hhash.symm
  intro c hc hne
  obtain ⟨b, hb, hrec⟩ := ChainFormat.exists_of_forall₂ hrecords hc
  obtain ⟨-, -, hname⟩ := ChainFormat.exists_of_forall₂ hnames hb
  obtain ⟨record, hrecord⟩ := List.exists_mem_of_ne_nil _
    (hrec.records_ne_nil_iff.mpr (hrec.ne_nil_iff.mpr hne))
  rw [← hrec.name record hrecord, hname record hrecord]

/-- **Replay.**  A run of successful batches on the default engine is reproduced by the replay of
its recorded inputs if all its batches that have a zone name the same transition, and, with an
ideal digest, only then. -/
theorem replay_reproduces_iff {initialState : ShipStateVector F}
    {calls : List (Dict String (TransitionInput F) × String)}
    (hx : executeAll E calls (new initialState (DeterministicTransitionEngine.new E)) = .ok x) :
    (OneName calls → ReplayReproduces E initialState x) ∧
      (IdealDigest E.sha256 → (ReplayReproduces E initialState x ↔ OneName calls)) := by
  have hback : OneName calls → ReplayReproduces E initialState x := by
    rintro ⟨name, hname⟩
    refine ⟨name, x, ?_, rfl, rfl⟩
    rw [replay_recordedInputs hx]
    exact executeAll_sameName hname hx
  refine ⟨hback, fun hE => ⟨?_, hback⟩⟩
  rintro ⟨name, r, hr, -, hhash⟩
  rw [replay_recordedInputs hx] at hr
  exact ⟨name, name_of_replay hE hx hr hhash⟩

end Replay

/-! ### One batch, executed twice -/

/-- Exact arithmetic, with an ideal digest. -/
def announcedEnv : FloatEnv ℚ := { exactEnv with sha256 := announcedText }

/-- A vector with a bow at rest. -/
def bowVector : ShipStateVector ℚ := restingBow

/-- The bow rests for one unit of time. -/
def bowBatch : Dict String (TransitionInput ℚ) := .ofList [("bow", restingInput "bow" bow_ne_empty)]

/-- The run of the batch under the given names. -/
def bowRun (names : List String) : Except PyError (MultiZoneExecutor ℚ) :=
  executeAll announcedEnv (names.map fun name => (bowBatch, name))
    (new bowVector (DeterministicTransitionEngine.new announcedEnv))

/-- With one name the run is reproduced. -/
theorem replay_one_name :
    ∃ x, bowRun ["standard", "standard"] = .ok x ∧ ReplayReproduces announcedEnv bowVector x := by
  obtain ⟨x, hx⟩ := exists_of_isSome
    (show (bowRun ["standard", "standard"]).toOption.isSome = true by decide +kernel)
  refine ⟨x, hx, ((replay_reproduces_iff hx).2 idealDigest_announcedText).mpr ⟨"standard", ?_⟩⟩
  rintro c hc -
  obtain ⟨name, hname, rfl⟩ := List.mem_map.mp hc
  simpa using hname

/-- With two names no replay reproduces the run. -/
theorem replay_two_names :
    ∃ x, bowRun ["standard", "accelerated_corrosion"] = .ok x ∧
      ¬ReplayReproduces announcedEnv bowVector x := by
  obtain ⟨x, hx⟩ := exists_of_isSome
    (show (bowRun ["standard", "accelerated_corrosion"]).toOption.isSome = true by decide +kernel)
  refine ⟨x, hx, ?_⟩
  rintro ⟨name, r, hr, -, hhash⟩
  rw [replay_recordedInputs hx] at hr
  have hname := name_of_replay idealDigest_announcedText hx hr hhash
  have hstandard := hname (bowBatch, "standard") List.mem_cons_self (by decide)
  have haccelerated := hname (bowBatch, "accelerated_corrosion") (by simp) (by decide)
  rw [← haccelerated] at hstandard
  exact absurd hstandard (by decide)

end MultiZoneExecutor

end QuantumFoundation
