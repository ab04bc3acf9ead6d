import QuantumFoundation.Distributed.Accounting

/-!
# The distributed invariant check

The checker of `distributed_invariant_check.py`: it runs the local invariants of every node,
compares the state hashes of the nodes that have nothing buffered, and reports a halt if
anything fails.  It takes a node for fully committed if its buffer is empty; the event log of
the hub is not consulted.  A clean report therefore vouches for the log only as far as missed
events show in a buffer, in a hash or in an invariant (`clean_sound_iff`).
-/

namespace QuantumFoundation

variable {S P : Type*}

/-! ## The check -/

/-- What an invariant suite says of one cycle, `passed` and `failed`, each of which may be
missing. -/
structure CycleReport where
  passed : Option (List String)
  failed : Option (List String)

/-- `verify_all_invariants` of an adapter, if it has this method. -/
abbrev VerifyAllInvariants (S : Type*) := Option (S → Except PyError (Dict String CycleReport))

/-- `verify_node_integrity`. -/
def DistributedStateNode.verifyNodeIntegrity (V : VerifyAllInvariants S)
    (n : DistributedStateNode S P) : Except PyError (Dict String CycleReport) :=
  match V with
  | some verifyAllInvariants => verifyAllInvariants n.adapterState
  | none => .ok (Dict.ofList [("Adapter_Invariants", ⟨some [], some []⟩)])

/-- The invariant check of one node. -/
structure NodeInvariantResult where
  nodeId : String
  committedCausalId : ℤ
  stateHash : String
  localPassed : List String
  localFailed : List String
  isPartial : Bool

/-- `ok`. -/
def NodeInvariantResult.ok (r : NodeInvariantResult) : Bool :=
  r.localFailed.isEmpty && !r.isPartial

/-- The report of a full check. -/
structure GlobalInvariantReport where
  nodeResults : List NodeInvariantResult
  globalConsensus : Bool
  allLocalPassed : Bool
  divergedNodes : List String
  partialNodes : List String
  failedInvariantNodes : List String
  referenceHash : String
  systemShouldHalt : Bool
  haltReasons : List String

/-- `clean`. -/
def GlobalInvariantReport.clean (r : GlobalInvariantReport) : Bool :=
  r.globalConsensus && r.allLocalPassed && !r.systemShouldHalt

namespace DistributedInvariantChecker

variable (A : Adapter S P) (V : VerifyAllInvariants S) (O : SetOrder)

/-- The entries `cycle::name` of a report. -/
def entries (select : CycleReport → Option (List String)) (report : Dict String CycleReport) :
    List String :=
  report.entries.flatMap fun p => ((select p.2).getD []).map fun name => p.1 ++ "::" ++ name

/-- `_check_node`.  An exception of the invariants counts as a failed invariant. -/
def checkNode (n : ProtocolNode S P) : NodeInvariantResult where
  nodeId := n.nodeId
  committedCausalId := n.committedCausalId
  stateHash := n.getStateHash A
  localPassed :=
    match n.verifyNodeIntegrity V with
    | .ok report => entries CycleReport.passed report
    | .error _ => []
  localFailed :=
    match n.verifyNodeIntegrity V with
    | .ok report => entries CycleReport.failed report
    | .error exc => ["EXCEPTION during invariant check: " ++ exc.str]
  isPartial := n.isPartial

/-- The reasons to halt that the check of one node gives. -/
def nodeReasons (n : ProtocolNode S P) : List String :=
  let result := checkNode A V n
  if result.ok then []
  else
    (if result.localFailed = [] then []
      else ["Node " ++ n.nodeId ++ " invariant failures: " ++ reprStrs result.localFailed]) ++
    (if result.isPartial then
      ["Node " ++ n.nodeId ++ " is partial (pending causal_ids: "
        ++ reprInts n.pendingCausalIds ++ ")"]
      else [])

/-- `run_full_check`. -/
def runFullCheck (hub : ComputationProtocolHub S P) : GlobalInvariantReport :=
  let nodeResults := hub.nodes.map (checkNode A V)
  let fullyCommitted := nodeResults.filter fun r => !r.isPartial
  let partialNodes := (nodeResults.filter fun r => r.isPartial).map fun r => r.nodeId
  let allHashes := Dict.ofList (fullyCommitted.map fun r => (r.nodeId, r.stateHash))
  let uniqueHashes := O.iter allHashes.values
  let globalConsensus := decide (uniqueHashes.length ≤ 1) && partialNodes.isEmpty
  let majorityHash := (maxKey (fun h => (allHashes.values.count h : ℤ)) uniqueHashes).getD ""
  let diverged :=
    if globalConsensus then []
    else (allHashes.entries.filter fun p => p.2 ≠ majorityHash).map Prod.fst
  let haltReasons := hub.nodes.flatMap (nodeReasons A V) ++
    if globalConsensus then []
    else ["Global hash divergence: nodes " ++ reprStrs diverged ++ " disagree."]
  { nodeResults := nodeResults
    globalConsensus := globalConsensus
    allLocalPassed := (nodeResults.filter fun r => !r.isPartial).all fun r => r.ok
    divergedNodes := diverged
    partialNodes := partialNodes
    failedInvariantNodes :=
      (nodeResults.filter fun r => !r.localFailed.isEmpty).map fun r => r.nodeId
    referenceHash :=
      ((maxKey (fun r => r.committedCausalId) fullyCommitted).map fun r => r.stateHash).getD ""
    systemShouldHalt := !haltReasons.isEmpty
    haltReasons := haltReasons }

/-! ## What a clean report says -/

variable {A V O}

/-- The local invariants of the node. -/
def localFailed (V : VerifyAllInvariants S) (A : Adapter S P) (n : ProtocolNode S P) :
    List String := (checkNode A V n).localFailed

/-- The state hashes as the check files them, under the ids of the nodes. -/
def filedHashes (A : Adapter S P) (nodes : List (ProtocolNode S P)) : List String :=
  (Dict.ofList (nodes.map fun n => (n.nodeId, n.getStateHash A))).values

lemma nodeReasons_eq_nil {n : ProtocolNode S P} :
    nodeReasons A V n = [] ↔ localFailed V A n = [] ∧ n.isPartial = false := by
  have hfailed : (checkNode A V n).localFailed = localFailed V A n := rfl
  have hbuf : (checkNode A V n).isPartial = n.isPartial := rfl
  rw [nodeReasons, NodeInvariantResult.ok, hfailed, hbuf]
  by_cases hf : localFailed V A n = []
  · cases n.isPartial <;> simp [hf]
  · simp [hf]

/-- With nothing buffered anywhere, the check compares the hashes of all nodes. -/
lemma filter_fullyCommitted {nodes : List (ProtocolNode S P)}
    (h : ∀ n ∈ nodes, n.isPartial = false) :
    (nodes.map (checkNode A V)).filter (fun r => !r.isPartial) = nodes.map (checkNode A V) := by
  refine List.filter_eq_self.mpr fun r hr => ?_
  obtain ⟨n, hn, rfl⟩ := List.mem_map.mp hr
  have hbuf : (checkNode A V n).isPartial = n.isPartial := rfl
  rw [hbuf, h n hn]
  rfl

/-- **A clean report** means that no node has anything buffered or a failed invariant, and that
the hashes filed under the node ids are all the same. -/
theorem clean_iff (hub : ComputationProtocolHub S P) :
    (runFullCheck A V O hub).clean = true ↔
      (∀ n ∈ hub.nodes, n.isPartial = false) ∧ (∀ n ∈ hub.nodes, localFailed V A n = []) ∧
        ∀ a ∈ filedHashes A hub.nodes, ∀ b ∈ filedHashes A hub.nodes, a = b := by
  have hreasons : hub.nodes.flatMap (nodeReasons A V) = [] ↔
      ∀ n ∈ hub.nodes, localFailed V A n = [] ∧ n.isPartial = false := by
    rw [List.flatMap_eq_nil_iff]
    exact forall₂_congr fun n _ => nodeReasons_eq_nil
  have hhashes : (hub.nodes.map (checkNode A V)).map (fun r => (r.nodeId, r.stateHash))
      = hub.nodes.map fun n => (n.nodeId, n.getStateHash A) := by
    rw [List.map_map]
    rfl
  rw [GlobalInvariantReport.clean, runFullCheck]
  dsimp only
  constructor
  · intro h
    simp only [Bool.and_eq_true, Bool.not_not, List.isEmpty_iff, decide_eq_true_eq] at h
    obtain ⟨⟨hcons, -⟩, hnil⟩ := h
    have hnodes := hreasons.mp (List.append_eq_nil_iff.mp hnil).1
    refine ⟨fun n hn => (hnodes n hn).2, fun n hn => (hnodes n hn).1, ?_⟩
    have hle := hcons.1
    rw [filter_fullyCommitted fun n hn => (hnodes n hn).2, hhashes, (O.perm _).length_eq] at hle
    exact length_dedup_le_one_iff.mp hle
  · rintro ⟨hbuf, hfailed, hsame⟩
    have hnil := hreasons.mpr fun n hn => ⟨hfailed n hn, hbuf n hn⟩
    have hle : (O.iter (filedHashes A hub.nodes)).length ≤ 1 := by
      rw [(O.perm _).length_eq]
      exact length_dedup_le_one_iff.mpr hsame
    have hnone : (hub.nodes.map (checkNode A V)).filter (fun r => r.isPartial) = [] := by
      refine List.filter_eq_nil_iff.mpr fun r hr => ?_
      obtain ⟨n, hn, rfl⟩ := List.mem_map.mp hr
      exact Bool.not_eq_true _ ▸ hbuf n hn
    have hok : (hub.nodes.map (checkNode A V)).all (fun r => r.ok) = true := by
      refine List.all_eq_true.mpr fun r hr => ?_
      obtain ⟨n, hn, rfl⟩ := List.mem_map.mp hr
      simpa [NodeInvariantResult.ok] using ⟨hfailed n hn, hbuf n hn⟩
    rw [filedHashes] at hle
    rw [filter_fullyCommitted hbuf, hhashes, hnone, hnil, hok]
    simp [hle]

/-- A node whose hash is filed under its id: the hash of every node is on file, if nodes that
share an id have the same hash. -/
lemma mem_filedHashes {nodes : List (ProtocolNode S P)}
    (h : ∀ n ∈ nodes, ∀ n' ∈ nodes, n.nodeId = n'.nodeId → n.getStateHash A = n'.getStateHash A)
    {n : ProtocolNode S P} (hn : n ∈ nodes) : n.getStateHash A ∈ filedHashes A nodes := by
  have hkey : n.nodeId ∈ (Dict.ofList (nodes.map fun n => (n.nodeId, n.getStateHash A))).keys := by
    rw [Dict.mem_keys_ofList, List.map_map]
    exact List.mem_map_of_mem hn
  obtain ⟨v, hv⟩ := Option.ne_none_iff_exists'.mp (mt Dict.get?_eq_none.mp (not_not.mpr hkey))
  obtain ⟨n', hn', heq⟩ := List.mem_map.mp (Dict.mem_of_get?_ofList hv)
  obtain ⟨hid, rfl⟩ := Prod.mk.inj heq
  rw [h n hn n' hn' hid.symm]
  exact Dict.mem_values.mpr ⟨_, hv⟩

end DistributedInvariantChecker

/-! ## The hub that is checked -/

namespace ProtocolNode

variable {A : Adapter S P}

/-- The node's record agrees with its buffer: it was handed events of the log, and these are
the ones it has committed or holds in its buffer. -/
structure Tracked (log : List (SequencedEvent P)) (n : ProtocolNode S P) : Prop where
  settled : n.inbox.Settled
  received : ∀ k, k ∈ n.inbox.received ↔ k < 1 ∨ k ∈ n.handedIds
  handed : ∀ k ∈ n.handedIds, ∃ e ∈ log, e.causalId = k

namespace Tracked

variable {log : List (SequencedEvent P)} {n : ProtocolNode S P}

lemma init (nodeId : String) (s : S) : Tracked (P := P) log (.new nodeId s) where
  settled := fun k hk => absurd hk (by
    simp [DistributedStateNode.inbox, ProtocolNode.new, PropagatingStateNode.new,
      DistributedStateNode.new])
  received := by
    intro k
    simp [DistributedStateNode.inbox, ProtocolNode.new, PropagatingStateNode.new,
      DistributedStateNode.new, ReorderBuffer.mem_received, handedIds]
  handed := fun k hk => absurd hk (by simp [handedIds, ProtocolNode.new])

lemma grow (h : Tracked log n) (es : List (SequencedEvent P)) : Tracked (log ++ es) n where
  settled := h.settled
  received := h.received
  handed := fun k hk => by
    obtain ⟨e, he, hek⟩ := h.handed k hk
    exact ⟨e, List.mem_append_left _ he, hek⟩

lemma executeSequencedEvent (hA : A.NonRaising) (h : Tracked log n) {event : SequencedEvent P}
    (he : event ∈ log) (hs : event.stepType ≠ "SYNC") :
    Tracked log (n.executeSequencedEvent A event).1 := by
  obtain ⟨-, l, hoff, -⟩ := n.toDistributedStateNode.receiveEvent_offers hA event.toExecutionEvent
  have hnode : (n.executeSequencedEvent A event).1.toDistributedStateNode
      = (n.receiveEvent A event.toExecutionEvent).1 := by
    rw [executeSequencedEvent_core, SequencedEvent.toInput, if_neg hs]
    rfl
  have hrec : (n.receiveEvent A event.toExecutionEvent).1.inbox.received
      = insert event.causalId n.inbox.received := hoff.received_eq
  refine ⟨?_, fun k => ?_, fun k hk => ?_⟩
  · rw [hnode]
    exact hoff.settled h.settled
  · rw [hnode, hrec, Set.mem_insert_iff, h.received, n.executeSequencedEvent_handedIds,
      List.mem_append, List.mem_singleton]
    exact or_rotate
  · rw [n.executeSequencedEvent_handedIds, List.mem_append, List.mem_singleton] at hk
    rcases hk with hk | rfl
    · exact h.handed k hk
    · exact ⟨event, he, rfl⟩

lemma cursor_not_mem (h : Tracked log n) : n.nextExpectedCausalId ∉ n.inbox.received :=
  h.settled.isLeast.1

/-- The node has events in its buffer exactly if it was handed an event behind one that it was
not handed. -/
lemma isPartial_iff (hL : NumberedFrom SequencedEvent.causalId 1 log) (h : Tracked log n) :
    n.isPartial = true ↔ ∃ e ∈ log, ∃ e' ∈ log, e.causalId < e'.causalId ∧
      e.causalId ∉ n.handedIds ∧ e'.causalId ∈ n.handedIds := by
  rw [PropagatingStateNode.isPartial, decide_eq_true_eq, Nat.pos_iff_ne_zero, Ne,
    Dict.size_eq_zero, not_forall]
  constructor
  · rintro ⟨k, hk⟩
    obtain ⟨v, hv⟩ := Option.ne_none_iff_exists'.mp hk
    have hkey : k ∈ n.inbox.pending.keys := Dict.mem_keys_of_get? hv
    have hlt : n.nextExpectedCausalId < k := h.settled k hkey
    have hcur := h.cursor_not_mem
    rw [h.received, not_or] at hcur
    have hhanded : k ∈ n.handedIds := by
      rcases (h.received k).mp (Or.inr hkey) with hk1 | hk1
      · omega
      · exact hk1
    obtain ⟨e', he', rfl⟩ := h.handed k hhanded
    have := hL.bounds he'
    -- the event at the cursor is the one that was missed
    obtain ⟨e, he, hek⟩ := hL.exists_mem (k := n.nextExpectedCausalId) (by omega) (by omega)
    exact ⟨e, he, e', he', by omega, hek ▸ hcur.2, hhanded⟩
  · rintro ⟨e, he, e', he', hlt, hmiss, hhanded⟩
    have hpos := (hL.bounds he).1
    have hge : ¬e.causalId < n.nextExpectedCausalId := fun hc =>
      absurd ((h.received _).mp (Or.inl hc)) (by simp only [hmiss, or_false]; omega)
    rcases (h.received _).mpr (Or.inr hhanded) with hc | hkey
    · have hc' : e'.causalId < n.nextExpectedCausalId := hc
      omega
    · exact ⟨e'.causalId, fun hnone => Dict.get?_eq_none.mp hnone hkey⟩

/-- A node with an empty buffer has committed the whole log exactly if it was handed every
event of it. -/
lemma committed_iff (hL : NumberedFrom SequencedEvent.causalId 1 log) (h : Tracked log n)
    (hbuf : n.isPartial = false) :
    n.committedCausalId = log.length ↔ ∀ e ∈ log, e.causalId ∈ n.handedIds := by
  have hempty : ∀ k, k ∉ n.inbox.pending.keys := by
    rw [PropagatingStateNode.isPartial, decide_eq_false_iff_not, Nat.pos_iff_ne_zero, not_not,
      Dict.size_eq_zero] at hbuf
    exact fun k => Dict.get?_eq_none.mp (hbuf k)
  have hrec : ∀ k, k < n.nextExpectedCausalId ↔ k < 1 ∨ k ∈ n.handedIds := fun k => by
    rw [← h.received, ReorderBuffer.mem_received]
    exact (or_iff_left (hempty k)).symm
  rw [PropagatingStateNode.committedCausalId]
  constructor
  · intro hcom e he
    have := hL.bounds he
    exact ((hrec _).mp (by omega)).resolve_left (by omega)
  · intro hall
    have hcur : ¬n.nextExpectedCausalId ≤ log.length := fun hle => by
      have hpos : ¬n.nextExpectedCausalId < 1 := fun hlt => absurd
        ((hrec n.nextExpectedCausalId).mpr (Or.inl hlt)) (lt_irrefl _)
      obtain ⟨e, he, hek⟩ := hL.exists_mem (k := n.nextExpectedCausalId) (by omega) (by omega)
      exact absurd ((hrec _).mpr (Or.inr (hek ▸ hall e he))) (lt_irrefl _)
    have hle : n.nextExpectedCausalId - 1 ≤ log.length := by
      rcases (hrec (n.nextExpectedCausalId - 1)).mp (by omega) with hlt | hmem
      · omega
      · obtain ⟨e, he, hek⟩ := h.handed _ hmem
        have := hL.bounds he
        omega
    omega

end Tracked

end ProtocolNode

/-- The operation submits no `SYNC`. -/
def HubTraffic.SyncFree : HubTraffic S (ProposalMessage P) → Prop
  | .send proposal _ _ => proposal.stepType ≠ "SYNC"
  | .registerNode _ _ | .releaseHeldEvents _ => True

instance : DecidablePred (HubTraffic.SyncFree (S := S) (P := P))
  | .send proposal _ _ => inferInstanceAs (Decidable (proposal.stepType ≠ "SYNC"))
  | .registerNode _ _ | .releaseHeldEvents _ => .isTrue trivial

namespace ComputationProtocolHub

open ProtocolNode (Tracked)

variable {A : Adapter S P} {V : VerifyAllInvariants S} {O : SetOrder}

/-- The log is in order and free of `SYNC`s, and every node's record agrees with its buffer. -/
structure AllTracked (hub : ComputationProtocolHub S P) : Prop extends LogInv hub where
  syncFree : ∀ e ∈ hub.eventLog, e.stepType ≠ "SYNC"
  tracked : ∀ n ∈ hub.nodes, Tracked hub.eventLog n

lemma AllTracked.new (hr hd : Bool) :
    AllTracked (ComputationProtocolHub.new hr hd : ComputationProtocolHub S P) where
  toLogInv := .new hr hd
  syncFree := fun e he => absurd he (by simp [ComputationProtocolHub.new])
  tracked := fun n hn => absurd hn (by simp [ComputationProtocolHub.new])

lemma tracked_releaseLoop (hA : A.NonRaising) (hr : Bool) {log held : List (SequencedEvent P)}
    (hheld : held ⊆ log) (hsync : ∀ e ∈ log, e.stepType ≠ "SYNC") {n : ProtocolNode S P}
    (h : Tracked log n) : Tracked log (releaseLoop A hr held n).1 := by
  induction held generalizing n with
  | nil => exact h
  | cons event held ih =>
    have he : event ∈ log := hheld List.mem_cons_self
    have hstep := h.executeSequencedEvent hA he (hsync event he)
    rw [releaseLoop]
    dsimp only
    split
    · exact hstep
    · exact ih (fun e hmem => hheld (List.mem_cons_of_mem _ hmem)) hstep

lemma AllTracked.handle (hA : A.NonRaising) {hub : ComputationProtocolHub S P}
    (h : AllTracked hub) {op : HubTraffic S (ProposalMessage P)} (hop : op.SyncFree) :
    AllTracked (hub.handle A O op) := by
  cases op with
  | registerNode nodeId s =>
    refine ⟨h.toLogInv.registerNode _, h.syncFree, fun n hn => ?_⟩
    rcases List.mem_append.mp hn with hn | hn
    · exact h.tracked n hn
    · rw [List.mem_singleton.mp hn]
      exact Tracked.init nodeId s
  | send proposal ex de =>
    by_cases hh : hub.halted
    · have hsame : hub.handle A O (.send proposal ex de) = hub := by
        rw [ComputationProtocolHub.handle, submit, if_pos hh]
      rwa [hsame]
    obtain ⟨hlog, hnodes, -⟩ := submit_of_not_halted (A := A) (O := O) hh proposal ex de
    have hsync : ∀ e ∈ hub.eventLog ++ [hub.sequence proposal], e.stepType ≠ "SYNC" := by
      intro e he
      rcases List.mem_append.mp he with he | he
      · exact h.syncFree e he
      · rw [List.mem_singleton.mp he]
        exact hop
    refine ⟨h.toLogInv.submit proposal ex de, fun e he => ?_, fun n hn => ?_⟩
    · rw [ComputationProtocolHub.handle, hlog] at he
      exact hsync e he
    · rw [ComputationProtocolHub.handle, hnodes] at hn
      rw [ComputationProtocolHub.handle, hlog]
      obtain ⟨n₀, hn₀, rfl⟩ := List.mem_map.mp hn
      have hgrown := (h.tracked n₀ hn₀).grow [hub.sequence proposal]
      rw [delivered]
      split
      · exact hgrown.executeSequencedEvent hA (by simp) hop
      · exact hgrown
  | releaseHeldEvents nodeId =>
    have hinv := h.toLogInv.perform (A := A) (O := O) (.releaseHeldEvents nodeId)
    rcases hub.releaseHeldEvents_cases (A := A) nodeId with hsame | ⟨i, -, -, hlog, hnodes, -⟩
    · rwa [ComputationProtocolHub.handle, hsame]
    · refine ⟨hinv, fun e he => ?_, fun n hn => ?_⟩
      · rw [ComputationProtocolHub.handle, hlog] at he
        exact h.syncFree e he
      · rw [ComputationProtocolHub.handle, hnodes] at hn
        rw [ComputationProtocolHub.handle, hlog]
        rcases Run.mem_set_cases hn with rfl | ⟨j, -, rfl⟩
        · exact tracked_releaseLoop hA _ (fun e he => h.held.mem_listAt he) h.syncFree
            (h.tracked _ (List.getElem_mem _))
        · exact h.tracked _ (List.getElem_mem _)

lemma AllTracked.exec (hA : A.NonRaising) (hr hd : Bool)
    {ops : List (HubTraffic S (ProposalMessage P))} (hops : ∀ op ∈ ops, op.SyncFree) :
    AllTracked (Run.exec (ComputationProtocolHub.handle A O) (.new hr hd) ops) :=
  Run.invariant_of_mem (fun _ op hop h => h.handle hA (hops op hop)) (.new hr hd)

/-- What a clean report is taken to mean: every node has committed the whole log, with nothing
buffered and no failed invariant, and all state hashes are equal. -/
structure FullyCommitted (A : Adapter S P) (V : VerifyAllInvariants S)
    (hub : ComputationProtocolHub S P) : Prop where
  committed : ∀ n ∈ hub.nodes, n.committedCausalId = hub.globalCausalId - 1
  buffer : ∀ n ∈ hub.nodes, n.eventBuffer.size = 0
  failed : ∀ n ∈ hub.nodes, DistributedInvariantChecker.localFailed V A n = []
  hashes : ∀ n ∈ hub.nodes, ∀ n' ∈ hub.nodes, n.getStateHash A = n'.getStateHash A

open DistributedInvariantChecker in
/-- Whatever a node has missed shows somewhere else: a node was handed an event behind one that
it missed, or has a failed invariant, or the hashes filed under the node ids differ; or else
no node has missed anything, and nodes that share an id have the same hash. -/
def MissesShow (A : Adapter S P) (V : VerifyAllInvariants S) (hub : ComputationProtocolHub S P) :
    Prop :=
  (∃ n ∈ hub.nodes, ∃ e ∈ hub.eventLog, ∃ e' ∈ hub.eventLog, e.causalId < e'.causalId ∧
      e.causalId ∉ n.handedIds ∧ e'.causalId ∈ n.handedIds) ∨
    (∃ n ∈ hub.nodes, localFailed V A n ≠ []) ∨
    (∃ a ∈ filedHashes A hub.nodes, ∃ b ∈ filedHashes A hub.nodes, a ≠ b) ∨
    (∀ n ∈ hub.nodes, ∀ e ∈ hub.eventLog, e.causalId ∈ n.handedIds) ∧
      ∀ n ∈ hub.nodes, ∀ n' ∈ hub.nodes, n.nodeId = n'.nodeId →
        n.getStateHash A = n'.getStateHash A

open DistributedInvariantChecker in
instance (V : VerifyAllInvariants S) (hub : ComputationProtocolHub S P) :
    Decidable (MissesShow A V hub) :=
  inferInstanceAs (Decidable ((∃ n ∈ hub.nodes, _) ∨ (∃ n ∈ hub.nodes, _) ∨
    (∃ a ∈ filedHashes A hub.nodes, _) ∨ _ ∧ _))

open DistributedInvariantChecker in
lemma AllTracked.clean_iff_sound {hub : ComputationProtocolHub S P} (h : AllTracked hub) :
    ((runFullCheck A V O hub).clean = true → FullyCommitted A V hub) ↔ MissesShow A V hub := by
  have hlen : hub.globalCausalId - 1 = hub.eventLog.length := by rw [h.next]; omega
  rw [clean_iff]
  constructor
  · intro hsound
    by_cases hbuf : ∀ n ∈ hub.nodes, n.isPartial = false
    · by_cases hfailed : ∀ n ∈ hub.nodes, localFailed V A n = []
      · by_cases hsame : ∀ a ∈ filedHashes A hub.nodes, ∀ b ∈ filedHashes A hub.nodes, a = b
        · have hset := hsound ⟨hbuf, hfailed, hsame⟩
          refine Or.inr (Or.inr (Or.inr ⟨fun n hn => ?_, fun n hn n' hn' _ =>
            hset.hashes n hn n' hn'⟩))
          exact ((h.tracked n hn).committed_iff h.numbered (hbuf n hn)).mp
            ((hset.committed n hn).trans hlen)
        · push Not at hsame
          exact Or.inr (Or.inr (Or.inl hsame))
      · push Not at hfailed
        exact Or.inr (Or.inl hfailed)
    · push Not at hbuf
      obtain ⟨n, hn, hp⟩ := hbuf
      refine Or.inl ⟨n, hn, ((h.tracked n hn).isPartial_iff h.numbered).mp ?_⟩
      simpa using hp
  · rintro hshow ⟨hbuf, hfailed, hsame⟩
    rcases hshow with ⟨n, hn, hgap⟩ | ⟨n, hn, hf⟩ | ⟨a, ha, b, hb, hne⟩ | ⟨hall, hids⟩
    · have hp := ((h.tracked n hn).isPartial_iff h.numbered).mpr hgap
      exact absurd (hbuf n hn) (by simp [hp])
    · exact absurd (hfailed n hn) hf
    · exact absurd (hsame a ha b hb) hne
    · refine ⟨fun n hn => ?_, fun n hn => ?_, hfailed, fun n hn n' hn' =>
        hsame _ (mem_filedHashes hids hn) _ (mem_filedHashes hids hn')⟩
      · exact (((h.tracked n hn).committed_iff h.numbered (hbuf n hn)).mpr
          (hall n hn)).trans hlen.symm
      · have hp := hbuf n hn
        rwa [PropagatingStateNode.isPartial, decide_eq_false_iff_not, Nat.pos_iff_ne_zero,
          not_not] at hp

/-- **When a clean report can be trusted.**  In every state that a hub reaches without `SYNC`s,
with an adapter that never raises, a clean report of the invariant check means that all nodes
have committed the whole log, with nothing buffered, no failed invariant and equal hashes, if
and only if the misses show. -/
theorem clean_sound_iff (hA : A.NonRaising) (V : VerifyAllInvariants S) (O : SetOrder)
    (hr hd : Bool) (ops : List (HubTraffic S (ProposalMessage P)))
    (hops : ∀ op ∈ ops, op.SyncFree) :
    let hub := Run.exec (ComputationProtocolHub.handle A O) (.new hr hd) ops
    ((DistributedInvariantChecker.runFullCheck A V O hub).clean = true → FullyCommitted A V hub) ↔
      MissesShow A V hub :=
  (AllTracked.exec hA hr hd hops).clean_iff_sound

/-- A hub with nodes `A` and `B` to which one addition is submitted. -/
def oneAddition (excludeNodes delayNodes : List String) : ComputationProtocolHub ℤ (Option ℤ) :=
  Run.exec (ComputationProtocolHub.handle (mockAdapter id) .lastInsertion) (.new true true)
    [.registerNode "A" 0, .registerNode "B" 0, .send (addProposal 1) excludeNodes delayNodes]

/-- The report on an addition that both nodes receive is clean, and can be trusted. -/
theorem clean_sound_mock : FullyCommitted (mockAdapter id) none (oneAddition [] []) :=
  (clean_sound_iff (mockAdapter_nonRaising id) none .lastInsertion true true
    [.registerNode "A" 0, .registerNode "B" 0, .send (addProposal 1) [] []] (by decide)).mpr
    (by decide) (by decide)

/-- The report on an addition that neither node receives is clean as well. -/
theorem clean_unsound :
    ¬((DistributedInvariantChecker.runFullCheck (mockAdapter id) none .lastInsertion
        (oneAddition ["A", "B"] [])).clean = true →
      FullyCommitted (mockAdapter id) none (oneAddition ["A", "B"] [])) :=
  fun h => absurd (h (by decide)).committed (by decide)

end ComputationProtocolHub

end QuantumFoundation
