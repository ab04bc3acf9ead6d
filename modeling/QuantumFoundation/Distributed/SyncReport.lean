import QuantumFoundation.Distributed.System

/-!
# What a `SYNC` report says

The report is built from the acknowledgements that came back, and compares nothing but state
hashes.  Consensus therefore means that the nodes the `SYNC` reached, and of these there is at
least one, have the same hash; nothing follows for the other nodes, for what is buffered, or
for what was applied.
-/

namespace QuantumFoundation

variable {S P : Type*} {A : Adapter S P} {O : SetOrder}

namespace ProtocolNode

/-- The acknowledgement of a `SYNC` carries the state hash the node has anyway. -/
lemma executeSequencedEvent_sync {event : SequencedEvent P} (hs : event.stepType = "SYNC")
    (n : ProtocolNode S P) :
    (n.executeSequencedEvent A event).2.nodeId = n.nodeId ∧
      (n.executeSequencedEvent A event).2.stateHash = n.getStateHash A := by
  simp [executeSequencedEvent, executeCore, hs, DistributedStateNode.getStateHash]

/-- A `SYNC` changes the cursor of the state node, and nothing else of it. -/
lemma executeSequencedEvent_sync_core {event : SequencedEvent P} (hs : event.stepType = "SYNC")
    (n : ProtocolNode S P) : (n.executeSequencedEvent A event).1.toDistributedStateNode
      = { n.toDistributedStateNode with nextExpectedCausalId := event.causalId + 1 } := by
  rw [executeSequencedEvent_core, SequencedEvent.toInput, if_pos hs]
  rfl

end ProtocolNode

namespace ComputationProtocolHub

variable {hub : ComputationProtocolHub S P} {proposal : ProposalMessage P} {ex de : List String}

/-- The hashes of the report are those of the nodes that were reached. -/
lemma buildSyncReport_nodeHashes (nodes : List (ProtocolNode S P)) {event : SequencedEvent P}
    (hs : event.stepType = "SYNC") :
    (buildSyncReport O nodes event (hub.deliver A event ex de).acks).nodeHashes
      = Dict.ofList ((hub.nodes.filter fun n => Reaches ex de n).map
          fun n => (n.nodeId, n.getStateHash A)) := by
  show Dict.ofList _ = _
  rw [deliver_acks, List.map_map]
  refine congrArg Dict.ofList (List.map_congr_left fun n _ => ?_)
  obtain ⟨hid, hhash⟩ := n.executeSequencedEvent_sync (A := A) hs
  rw [Function.comp_apply, hid, hhash]

/-- Consensus of a report: there are hashes, and they are all the same. -/
lemma buildSyncReport_consensus (nodes : List (ProtocolNode S P)) (event : SequencedEvent P)
    (acks : List AckMessage) : (buildSyncReport O nodes event acks).consensus = true ↔
      (buildSyncReport O nodes event acks).nodeHashes.values ≠ [] ∧
        ∀ a ∈ (buildSyncReport O nodes event acks).nodeHashes.values,
          ∀ b ∈ (buildSyncReport O nodes event acks).nodeHashes.values, a = b :=
  decide_eq_true_iff.trans O.length_iter_eq_one

/-- The receipt of a `SYNC` carries a report on the acknowledgements. -/
lemma submit_sync (hh : hub.halted = false) (hs : proposal.stepType = "SYNC")
    (ex de : List String) :
    ∃ receipt, (hub.submit A O proposal ex de).2 = .ok receipt ∧
      receipt.syncReport = some (buildSyncReport O
        (hub.deliver A (hub.sequence proposal) ex de).nodes (hub.sequence proposal)
        (hub.deliver A (hub.sequence proposal) ex de).acks) := by
  refine ⟨_, by rw [submit, if_neg (by simp [hh])], ?_⟩
  simp only [if_pos hs]

/-- **The meaning of consensus.**  With pairwise distinct node ids, the report of a `SYNC` that
is submitted to a hub in any state says consensus exactly if at least one node was reached and
all nodes that were reached have the same state hash.  The step itself leaves the adapter
state, the log and the buffer of every node as they were. -/
theorem submit_sync_consensus_iff (A : Adapter S P) (O : SetOrder)
    (hub : ComputationProtocolHub S P) (hids : (hub.nodes.map (·.nodeId)).Nodup)
    (hh : hub.halted = false) (proposal : ProposalMessage P) (hs : proposal.stepType = "SYNC")
    (ex de : List String) :
    ∃ receipt report, (hub.submit A O proposal ex de).2 = .ok receipt ∧
      receipt.syncReport = some report ∧
      (report.consensus = true ↔ (∃ n ∈ hub.nodes, Reaches ex de n) ∧
        ∀ n ∈ hub.nodes, ∀ n' ∈ hub.nodes, Reaches ex de n → Reaches ex de n' →
          n.getStateHash A = n'.getStateHash A) ∧
      (hub.submit A O proposal ex de).1.nodes.map
          (fun n => (n.nodeId, n.adapterState, n.localLog, n.eventBuffer))
        = hub.nodes.map fun n => (n.nodeId, n.adapterState, n.localLog, n.eventBuffer) := by
  have hsync : (hub.sequence proposal).stepType = "SYNC" := hs
  obtain ⟨receipt, hreceipt, hreport⟩ := submit_sync (A := A) (O := O) hh hs ex de
  refine ⟨receipt, _, hreceipt, hreport, ?_, ?_⟩
  · have hnodup : (((hub.nodes.filter fun n => Reaches ex de n).map
        fun n => (n.nodeId, n.getStateHash A)).map Prod.fst).Nodup := by
      rw [List.map_map]
      exact hids.sublist (List.filter_sublist.map _)
    rw [buildSyncReport_consensus, buildSyncReport_nodeHashes _ hsync, Dict.values,
      Dict.entries_ofList hnodup, List.map_map]
    have hmem : ∀ {a : String}, a ∈ (hub.nodes.filter fun n => Reaches ex de n).map
        (Prod.snd ∘ fun n => (n.nodeId, n.getStateHash A)) ↔
          ∃ n ∈ hub.nodes, Reaches ex de n ∧ n.getStateHash A = a := by
      simp [and_assoc]
    refine and_congr ?_ ⟨fun h n hn n' hn' hr hr' => ?_, fun h a ha b hb => ?_⟩
    · rw [ne_eq, List.map_eq_nil_iff, List.filter_eq_nil_iff]
      simp
    · exact h _ (hmem.mpr ⟨n, hn, hr, rfl⟩) _ (hmem.mpr ⟨n', hn', hr', rfl⟩)
    · obtain ⟨n, hn, hr, rfl⟩ := hmem.mp ha
      obtain ⟨n', hn', hr', rfl⟩ := hmem.mp hb
      exact h n hn n' hn' hr hr'
  · have hnodes : (hub.submit A O proposal ex de).1.nodes
        = hub.nodes.map (delivered A (hub.sequence proposal) ex de) := by
      rw [submit, if_neg (by simp [hh])]
      exact deliver_nodes _ ex de hub
    rw [hnodes, List.map_map]
    refine List.map_congr_left fun n _ => ?_
    rw [Function.comp_apply, delivered]
    split
    · rw [n.executeSequencedEvent_sync_core hsync]
    · rfl

/-- The report of a `SYNC` that misses a node with another counter. -/
theorem submit_sync_consensus_mock :
    let hub := mockRun [.submit (addProposal 1) ["B"] []]
    ∃ receipt report, (hub.submit (mockAdapter id) .lastInsertion syncProposal ["B"] []).2
        = .ok receipt ∧ receipt.syncReport = some report ∧ report.consensus = true := by
  obtain ⟨receipt, report, hreceipt, hreport, hiff, -⟩ := submit_sync_consensus_iff (mockAdapter id)
    .lastInsertion (mockRun [.submit (addProposal 1) ["B"] []]) (by decide) (by decide)
    syncProposal (by decide) ["B"] []
  exact ⟨receipt, report, hreceipt, hreport, hiff.mpr (by decide)⟩

/-- The consensus of the last `SYNC` report of a run. -/
def lastConsensus (hub : ComputationProtocolHub S P) : Option Bool :=
  hub.syncReports.getLast?.map (·.consensus)

/-- Consensus in spite of an unreached node with another hash; in spite of a buffered event and
of different sets of applied events; and, with two nodes of one id, in spite of different
hashes of the reached nodes. -/
theorem consensus_limits :
    let missed := mockRun [.submit (addProposal 1) ["B"] [], .submit syncProposal ["B"] []]
    let gap := mockRun [.submit (addProposal 0) ["B"] [], .submit (addProposal 0) [] [],
      .submit syncProposal [] []]
    let twins := Run.exec (perform (mockAdapter id) .lastInsertion)
      (withNodes true true [("A", 0), ("A", 1)]) [.submit syncProposal [] []]
    (lastConsensus missed = some true ∧ missed.nodes.map (·.adapterState) = [1, 0]) ∧
      (lastConsensus gap = some true ∧ gap.nodes.map (·.isPartial) = [false, true] ∧
        gap.nodes.map (·.localLog.length) = [2, 0]) ∧
      (lastConsensus twins = some true ∧ twins.nodes.map (·.adapterState) = [0, 1]) := by
  decide

end ComputationProtocolHub

end QuantumFoundation
