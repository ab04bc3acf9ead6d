import QuantumFoundation.Physical.Replay

/-!
# What the chains give evidence of

The checks of the chains compare hashes only, so they give evidence of an edit as far as the
hashed texts fix the data.  The text of a record is its fields in a row, with nothing between
them: it fixes the fields only together with their lengths.  The text of a batch has the record
hashes in it, but neither the inputs of the zones nor the other fields of the records.
-/

namespace QuantumFoundation

variable {F : Type*}

/-! ### Records -/

attribute [ext] TransitionRecord

namespace TransitionRecord

/-- The fields that are hashed begin and end at the same places. -/
structure SameLayout (r r' : TransitionRecord) : Prop where
  sequenceId : (toString r.sequenceId).length = (toString r'.sequenceId).length
  zoneId : r.zoneId.length = r'.zoneId.length
  inputHash : r.inputHash.length = r'.inputHash.length
  preStateHash : r.preStateHash.length = r'.preStateHash.length
  postStateHash : r.postStateHash.length = r'.postStateHash.length
  prevRecordHash : r.prevRecordHash.length = r'.prevRecordHash.length

lemma SameLayout.refl (r : TransitionRecord) : SameLayout r r := ⟨rfl, rfl, rfl, rfl, rfl, rfl⟩

end TransitionRecord

/-- A text that begins with parts of one length is read in one way. -/
lemma append_inj_of_length {s t a b : String} (h : s ++ a = t ++ b) (hlen : s.length = t.length) :
    s = t ∧ a = b := by
  have hlist : s.toList ++ a.toList = t.toList ++ b.toList := by
    rw [← String.toList_append, h, String.toList_append]
  obtain ⟨hs, ha⟩ := List.append_inj hlist (by simpa only [String.length_toList] using hlen)
  exact ⟨String.toList_inj.mp hs, String.toList_inj.mp ha⟩

/-- **What the hash of a record fixes.**  Records of the same layout with the same hash are equal
up to that hash. -/
theorem TransitionRecord.eq_of_digest_eq {E : FloatEnv F} (hE : Function.Injective E.sha256)
    {r r' : TransitionRecord} (hlayout : SameLayout r r') (hhash : r.recordHash = r'.recordHash)
    (h : (DeterministicTransitionEngine.recordChain E).digest r
      = (DeterministicTransitionEngine.recordChain E).digest r') : r = r' := by
  have htext := hE h
  simp only [String.append_assoc] at htext
  obtain ⟨hseq, htext⟩ := append_inj_of_length htext hlayout.sequenceId
  obtain ⟨hzone, htext⟩ := append_inj_of_length htext hlayout.zoneId
  obtain ⟨hinput, htext⟩ := append_inj_of_length htext hlayout.inputHash
  obtain ⟨hpre, htext⟩ := append_inj_of_length htext hlayout.preStateHash
  obtain ⟨hpost, htext⟩ := append_inj_of_length htext hlayout.postStateHash
  obtain ⟨hprev, hname⟩ := append_inj_of_length htext hlayout.prevRecordHash
  exact TransitionRecord.ext (toString_int_inj hseq) hzone hinput hpre hpost hprev hhash hname

namespace DeterministicTransitionEngine

variable [LT F] [LE F] [OfScientific F] {E : FloatEnv F}

/-- **Tamper evidence of the records.**  Two lists of records that both pass the check and end with
the same hash are equal exactly if corresponding records have the same layout. -/
theorem records_eq_iff_sameLayout (hE : Function.Injective E.sha256)
    {engine engine' : DeterministicTransitionEngine F}
    (h : engine.verifyChainIntegrity E = (true, none))
    (h' : engine'.verifyChainIntegrity E = (true, none))
    (htip : engine.chainHash = engine'.chainHash) :
    engine.records = engine'.records ↔
      List.Forall₂ TransitionRecord.SameLayout engine.records engine'.records := by
  constructor
  · intro heq
    rw [heq]
    exact List.forall₂_same.mpr fun r _ => TransitionRecord.SameLayout.refl r
  · intro hlayout
    obtain ⟨heq, -⟩ := ChainFormat.Chained.forall₂_of_tip_eq (S := Eq)
      (fun r r' hrr' hr hr' hhash => by
        have hdigest := hr.symm.trans (hhash.trans hr')
        have heq := TransitionRecord.eq_of_digest_eq hE hrr' hhash hdigest
        exact ⟨heq, by rw [heq]⟩)
      (verifyChainIntegrity_iff.mp h) (verifyChainIntegrity_iff.mp h') hlayout htip
    rwa [List.forall₂_eq_eq_eq] at heq

/-- An engine with one record, of a zone that stays as it is. -/
def oneRecord (sequenceId : ℤ) (zoneId : String) : DeterministicTransitionEngine ℚ :=
  { DeterministicTransitionEngine.new exactEnv with
    records := [{ sequenceId := sequenceId
                  zoneId := zoneId
                  inputHash := genesisHash
                  preStateHash := genesisHash
                  postStateHash := genesisHash
                  prevRecordHash := genesisHash
                  recordHash := TransitionRecord.computeRecordHash exactEnv sequenceId zoneId
                    genesisHash genesisHash genesisHash genesisHash "standard"
                  transitionName := "standard" }] }

lemma oneRecord_verified (sequenceId : ℤ) (zoneId : String) :
    (oneRecord sequenceId zoneId).verifyChainIntegrity exactEnv = (true, none) :=
  verifyChainIntegrity_iff.mpr (ChainFormat.chained_cons.mpr ⟨rfl, rfl, ChainFormat.chained_nil⟩)

/-- The first transition of the zone `1bow` has the hash that the eleventh of the zone `bow` would
have. -/
lemma recordHash_moved_digit :
    TransitionRecord.computeRecordHash exactEnv 1 "1bow" genesisHash genesisHash genesisHash
        genesisHash "standard"
      = TransitionRecord.computeRecordHash exactEnv 11 "bow" genesisHash genesisHash genesisHash
        genesisHash "standard" := by
  have hdigit : toString (1 : ℤ) ++ "1bow" = toString (11 : ℤ) ++ "bow" := by decide
  rw [TransitionRecord.computeRecordHash, TransitionRecord.computeRecordHash, hdigit]

/-- An engine that has a record of the stern after that one. -/
def twoRecords (sequenceId : ℤ) (zoneId : String) : DeterministicTransitionEngine ℚ :=
  let prevRecordHash := (oneRecord sequenceId zoneId).chainHash
  { oneRecord sequenceId zoneId with
    records := (oneRecord sequenceId zoneId).records ++
      [{ sequenceId := 2
         zoneId := "stern"
         inputHash := genesisHash
         preStateHash := genesisHash
         postStateHash := genesisHash
         prevRecordHash := prevRecordHash
         recordHash := TransitionRecord.computeRecordHash exactEnv 2 "stern" genesisHash
           genesisHash genesisHash prevRecordHash "standard"
         transitionName := "standard" }] }

lemma twoRecords_verified (sequenceId : ℤ) (zoneId : String) :
    (twoRecords sequenceId zoneId).verifyChainIntegrity exactEnv = (true, none) :=
  verifyChainIntegrity_iff.mpr (ChainFormat.chained_cons.mpr
    ⟨rfl, rfl, ChainFormat.chained_cons.mpr ⟨rfl, rfl, ChainFormat.chained_nil⟩⟩)

/-- Two engines with the same hash of two records, of which the first ones differ, and differ in
their layout. -/
theorem records_eq_iff_sameLayout_bow :
    ((twoRecords 1 "1bow").records = (twoRecords 11 "bow").records ↔
      List.Forall₂ TransitionRecord.SameLayout (twoRecords 1 "1bow").records
        (twoRecords 11 "bow").records) ∧
    (twoRecords 1 "1bow").records ≠ (twoRecords 11 "bow").records := by
  have htip : (twoRecords 1 "1bow").chainHash = (twoRecords 11 "bow").chainHash :=
    congrArg (TransitionRecord.computeRecordHash exactEnv 2 "stern" genesisHash genesisHash
      genesisHash · "standard") recordHash_moved_digit
  refine ⟨records_eq_iff_sameLayout (E := exactEnv) Function.injective_id
    (twoRecords_verified 1 "1bow") (twoRecords_verified 11 "bow") htip, fun h => ?_⟩
  exact absurd (congrArg (List.map (·.sequenceId)) h) (by decide)

/-- So an edit of one into the other passes the check. -/
theorem moved_digit_undetected :
    Function.Injective exactEnv.sha256 ∧
      (oneRecord 1 "1bow").verifyChainIntegrity exactEnv = (true, none) ∧
      (oneRecord 11 "bow").verifyChainIntegrity exactEnv = (true, none) ∧
      (oneRecord 1 "1bow").records.length = (oneRecord 11 "bow").records.length ∧
      (oneRecord 1 "1bow").chainHash = (oneRecord 11 "bow").chainHash ∧
      (oneRecord 1 "1bow").records ≠ (oneRecord 11 "bow").records := by
  refine ⟨Function.injective_id, oneRecord_verified 1 "1bow", oneRecord_verified 11 "bow", rfl,
    recordHash_moved_digit, fun h => ?_⟩
  exact absurd (congrArg (List.map (·.sequenceId)) h) (by decide)

end DeterministicTransitionEngine

/-! ### Batches -/

namespace MultiZoneExecutor

variable [LT F] [LE F] [OfScientific F] {E : FloatEnv F} {x : MultiZoneExecutor F}

/-- The batch with other inputs and other records. -/
def editBatch (b : ZoneBatch F) (zoneTransitions : List (String × TransitionInput F))
    (transitionRecords : List TransitionRecord) : ZoneBatch F :=
  { b with zoneTransitions := zoneTransitions, transitionRecords := transitionRecords }

/-- **What the hash of a batch leaves open.**  Any edit of the last batch that keeps the record
hashes passes the check, and keeps the hash of the chain. -/
theorem editBatch_undetected {bs : List (ZoneBatch F)} {b : ZoneBatch F}
    (hx : x.batches = bs ++ [b]) (h : x.verifyBatchChain E = (true, none))
    (zoneTransitions : List (String × TransitionInput F))
    (transitionRecords : List TransitionRecord)
    (hhashes : String.join (transitionRecords.map (·.recordHash))
      = String.join (b.transitionRecords.map (·.recordHash))) :
    let y := { x with batches := bs ++ [editBatch b zoneTransitions transitionRecords] }
    y.verifyBatchChain E = (true, none) ∧ y.batchChainHash = x.batchChainHash := by
  intro y
  rw [verifyBatchChain_iff, hx] at h
  obtain ⟨hlinked, hdigests⟩ := h
  obtain ⟨hlinked, hprev⟩ := linked_append_singleton.mp hlinked
  have hdigest : b.batchHash = (batchChain E).digest b := hdigests b (by simp)
  refine ⟨?_, ?_⟩
  · -- the digest takes nothing of the records but their hashes
    rw [verifyBatchChain_iff]
    refine ChainFormat.Chained.append ⟨hlinked, fun b' hb' => hdigests b' ?_⟩ hprev ?_
    · exact List.mem_append_left [b] hb'
    · show b.batchHash = ZoneBatch.computeBatchHash E b.batchId b.preGlobalHash b.postGlobalHash
        (transitionRecords.map (·.recordHash)) b.prevBatchHash
      rw [hdigest, ZoneBatch.computeBatchHash, hhashes]
      rfl
  · show tip (·.batchHash) genesisHash (bs ++ [_]) = tip (·.batchHash) genesisHash x.batches
    rw [hx, tip_append_singleton, tip_append_singleton]
    rfl

/-- Every history of the same length that passes the check and ends with the same hash has
recorded the same inputs and the same records. -/
def PinnedDown (E : FloatEnv F) (x : MultiZoneExecutor F) : Prop :=
  ∀ y : MultiZoneExecutor F, y.verifyBatchChain E = (true, none) →
    y.batches.length = x.batches.length → y.batchChainHash = x.batchChainHash →
    y.batches.map (fun b => (b.zoneTransitions, b.transitionRecords))
      = x.batches.map fun b => (b.zoneTransitions, b.transitionRecords)

/-- **Tamper evidence of the batches.**  The chain pins down what a history has recorded exactly
if there is nothing recorded, whatever the digest. -/
theorem pinnedDown_iff (h : x.verifyBatchChain E = (true, none)) :
    PinnedDown E x ↔ x.batches = [] := by
  constructor
  · intro hpinned
    rcases List.eq_nil_or_concat x.batches with hnil | ⟨bs, b, hbs⟩
    · exact hnil
    · exfalso
      rw [List.concat_eq_append] at hbs
      -- one more record, with an empty hash, does not show in the text of the batch
      obtain ⟨hverify, htip⟩ := editBatch_undetected hbs h b.zoneTransitions
        (b.transitionRecords ++ [⟨0, "", "", "", "", "", "", ""⟩]) (by simp [String.join_append])
      have hsame := hpinned _ hverify (by simp [hbs]) htip
      rw [hbs, List.map_append, List.map_append] at hsame
      have hlast := List.append_cancel_left hsame
      simp [editBatch] at hlast
  · intro hnil y _ hlen _
    rw [hnil, List.length_nil, List.length_eq_zero_iff] at hlen
    rw [hnil, hlen]

/-! ### A batch whose recorded input is edited -/

/-- The bow corrodes for one unit of time. -/
def corrodingInput : TransitionInput ℚ :=
  { restingInput "bow" bow_ne_empty with
    corrosionRate := 1
    corrosion_nonneg := one_not_negative }

/-- The executor that has executed one batch. -/
lemma exists_bowRun : ∃ x b, bowRun ["standard"] = .ok x ∧ x.batches = [b] ∧
    b.zoneTransitions = bowBatch.sorted.entries ∧
    x.verifyBatchChain announcedEnv = (true, none) := by
  obtain ⟨x, hx⟩ := exists_of_isSome
    (show (bowRun ["standard"]).toOption.isSome = true by decide +kernel)
  obtain ⟨bs, hbs, hrecords, -⟩ := executeAll_records hx
  obtain rfl : x.batches = bs := hbs
  obtain ⟨b, rest, hb, hrest, hbatches⟩ := List.forall₂_cons_left_iff.mp hrecords
  rw [List.map_nil, List.forall₂_nil_left_iff] at hrest
  rw [hrest] at hbatches
  have hintact := chained_of_executeAll (Intact.init rfl : Intact announcedEnv bowVector _) hx
  exact ⟨x, b, hx, hbatches, hb.zoneTransitions, verifyBatchChain_iff.mpr hintact.batches⟩

/-- The chain of one batch does not pin down what it has recorded. -/
theorem pinnedDown_iff_bow :
    ∃ x, bowRun ["standard"] = .ok x ∧ (PinnedDown announcedEnv x ↔ x.batches = []) := by
  obtain ⟨x, b, hx, -, -, hverify⟩ := exists_bowRun
  exact ⟨x, hx, pinnedDown_iff hverify⟩

/-- The batch has recorded that the bow rests; edited to say that it corrodes, it passes the
check, and the hash of the chain is the same. -/
theorem edited_input_undetected :
    Function.Injective announcedEnv.sha256 ∧ ∃ x y : MultiZoneExecutor ℚ,
      bowRun ["standard"] = .ok x ∧ x.verifyBatchChain announcedEnv = (true, none) ∧
      y.verifyBatchChain announcedEnv = (true, none) ∧ y.batches.length = x.batches.length ∧
      y.batchChainHash = x.batchChainHash ∧
      x.batches.map (·.zoneTransitions) = [[("bow", restingInput "bow" (by decide))]] ∧
      y.batches.map (·.zoneTransitions) = [[("bow", corrodingInput)]] := by
  refine ⟨idealDigest_announcedText.injective, ?_⟩
  obtain ⟨x, b, hx, hbatches, hzones, hverify⟩ := exists_bowRun
  obtain ⟨hy, htip⟩ := editBatch_undetected (hbatches.trans (List.nil_append [b]).symm)
    hverify [("bow", corrodingInput)] b.transitionRecords rfl
  refine ⟨x, _, hx, hverify, hy, by rw [hbatches]; rfl, htip, ?_, rfl⟩
  rw [hbatches, List.map_singleton, hzones]
  rfl

end MultiZoneExecutor

end QuantumFoundation
