import QuantumFoundation.Distributed.SyncReport

/-!
# Lockstep

When every submission reaches every node, all nodes take the same step, whatever the adapter
does: also a call that raises, half-way through, leaves them all in one state, and a halt in
the middle of the delivery loop does not end the loop.  Nothing a node does depends on its id,
so the nodes agree up to their ids.
-/

namespace QuantumFoundation

variable {S P : Type*} {A : Adapter S P} {O : SetOrder}

namespace DistributedStateNode

/-- The node under another id. -/
def rename (nodeId : String) (m : DistributedStateNode S P) : DistributedStateNode S P :=
  { m with nodeId := nodeId }

lemma processBufferLoop_rename (nodeId : String) (rounds : ℕ) (m : DistributedStateNode S P) :
    processBufferLoop A rounds (m.rename nodeId)
      = ((processBufferLoop A rounds m).1.rename nodeId, (processBufferLoop A rounds m).2) := by
  induction rounds generalizing m with
  | zero => rfl
  | succ rounds ih =>
    rw [processBufferLoop, processBufferLoop]
    change _ = ((_ : DistributedStateNode S P × Option PyError).1.rename nodeId, _)
    have hbuffer : (m.rename nodeId).eventBuffer.get? (m.rename nodeId).nextExpectedCausalId =
      m.eventBuffer.get? m.nextExpectedCausalId := rfl
    cases hnext : m.eventBuffer.get? m.nextExpectedCausalId with
    | none => rw [hbuffer, hnext]
    | some event =>
      rw [hbuffer, hnext]
      dsimp only
      rcases hs : A.applyEventPayload event.payload m.adapterState with ⟨s, exc⟩
      have hs' : A.applyEventPayload event.payload (m.rename nodeId).adapterState = (s, exc) := hs
      simp only [hs']
      cases exc with
      | none => exact ih (m.commit event s)
      | some exc => rfl

/-- Reception does not depend on the node's id. -/
lemma receiveEvent_rename (nodeId : String) (event : ExecutionEvent P)
    (m : DistributedStateNode S P) : (m.rename nodeId).receiveEvent A event
      = ((m.receiveEvent A event).1.rename nodeId, (m.receiveEvent A event).2) := by
  rw [receiveEvent, receiveEvent]
  show (if event.causalId < m.nextExpectedCausalId then _ else _) = _
  split
  · rfl
  · exact processBufferLoop_rename nodeId _
      { m with eventBuffer := m.eventBuffer.set event.causalId event }

lemma input_rename (nodeId : String) (m : DistributedStateNode S P) (x : NodeInput P) :
    (m.rename nodeId).input A x = (m.input A x).rename nodeId := by
  cases x with
  | receive event => exact congrArg Prod.fst (receiveEvent_rename nodeId event m)
  | sync causalId => rfl

end DistributedStateNode

/-- What is compared between nodes: the state node without its id. -/
def ProtocolNode.anonymous (n : ProtocolNode S P) : DistributedStateNode S P :=
  n.toDistributedStateNode.rename ""

namespace ComputationProtocolHub

/-- A submission that reaches every node. -/
def submitToAll (A : Adapter S P) (O : SetOrder) (hub : ComputationProtocolHub S P)
    (proposal : ProposalMessage P) : ComputationProtocolHub S P :=
  (hub.submit A O proposal [] []).1

lemma submitToAll_of_halted {hub : ComputationProtocolHub S P} (h : hub.halted = true)
    (proposal : ProposalMessage P) : submitToAll A O hub proposal = hub := by
  rw [submitToAll, submit, if_pos h]

lemma submitToAll_nodes {hub : ComputationProtocolHub S P} (h : hub.halted = false)
    (proposal : ProposalMessage P) : (submitToAll A O hub proposal).nodes
      = hub.nodes.map fun n => (n.executeSequencedEvent A (hub.sequence proposal)).1 := by
  rw [submitToAll, submit, if_neg (by simp [h])]
  show (hub.deliver A (hub.sequence proposal) [] []).nodes = _
  rw [deliver_nodes]
  exact List.map_congr_left fun n _ => if_pos ⟨by simp, by simp⟩

/-- A step of the system keeps the nodes in agreement. -/
lemma agree_submitToAll {hub : ComputationProtocolHub S P}
    (h : Run.Agree ProtocolNode.anonymous hub.nodes) (proposal : ProposalMessage P) :
    Run.Agree ProtocolNode.anonymous (submitToAll A O hub proposal).nodes := by
  by_cases hh : hub.halted = true
  · rwa [submitToAll_of_halted hh]
  · rw [submitToAll_nodes (by simpa using hh)]
    refine h.map fun a b hab => ?_
    rw [ProtocolNode.anonymous, ProtocolNode.anonymous, ProtocolNode.executeSequencedEvent_core,
      ProtocolNode.executeSequencedEvent_core, ← DistributedStateNode.input_rename,
      ← DistributedStateNode.input_rename]
    exact congrArg (DistributedStateNode.input A · _) hab

/-- The report of a `SYNC` that reaches every one of a list of agreeing nodes. -/
lemma consensus_of_agree {hub : ComputationProtocolHub S P}
    (h : Run.Agree ProtocolNode.anonymous hub.nodes) {event : SequencedEvent P}
    (hs : event.stepType = "SYNC") (nodes : List (ProtocolNode S P)) :
    (buildSyncReport O nodes event (hub.deliver A event [] []).acks).consensus
      = !hub.nodes.isEmpty := by
  have hall : (hub.nodes.filter fun n => Reaches [] [] n) = hub.nodes :=
    List.filter_eq_self.mpr fun n _ => by simp [Reaches]
  rw [Bool.eq_iff_iff, buildSyncReport_consensus, buildSyncReport_nodeHashes _ hs, hall]
  constructor
  · rintro ⟨hne, -⟩
    simp only [Bool.not_eq_true', List.isEmpty_eq_false_iff]
    rintro hnil
    exact hne (by rw [hnil]; rfl)
  · intro hne
    simp only [Bool.not_eq_true', List.isEmpty_eq_false_iff] at hne
    refine ⟨Dict.values_ofList_ne_nil (by simpa using hne), fun a ha b hb => ?_⟩
    have ha := Dict.mem_values_ofList ha
    have hb := Dict.mem_values_ofList hb
    rw [List.map_map] at ha hb
    obtain ⟨n, hn, rfl⟩ := List.mem_map.mp ha
    obtain ⟨n', hn', rfl⟩ := List.mem_map.mp hb
    exact congrArg (fun m => A.getStateHash m.adapterState) (h n hn n' hn')

/-- What submissions to all nodes keep: the log is in order, the nodes agree, and the reports
say consensus unless there is no node. -/
structure InLockstep (hub : ComputationProtocolHub S P) : Prop extends LogInv hub where
  agree : Run.Agree ProtocolNode.anonymous hub.nodes
  reports : ∀ r ∈ hub.syncReports, r.consensus = !hub.nodes.isEmpty

lemma InLockstep.withNodes (hr hd : Bool) (ids : List String) (s₀ : S) :
    InLockstep (withNodes (P := P) hr hd (ids.map fun i => (i, s₀))) where
  toLogInv := .withNodes hr hd _
  agree := by
    rw [withNodes_nodes, List.map_map]
    intro a ha b hb
    obtain ⟨i, -, rfl⟩ := List.mem_map.mp ha
    obtain ⟨j, -, rfl⟩ := List.mem_map.mp hb
    rfl
  reports := by
    have hnil : (ComputationProtocolHub.withNodes (P := P) hr hd
        (ids.map fun i => (i, s₀))).syncReports = [] :=
      withNodes_induction (J := fun hub => hub.syncReports = []) rfl fun _ _ _ h => h
    rw [hnil]
    exact fun r hr => absurd hr List.not_mem_nil

/-- **Step lemma.** -/
theorem InLockstep.submitToAll {hub : ComputationProtocolHub S P} (h : InLockstep hub)
    (proposal : ProposalMessage P) : InLockstep (submitToAll A O hub proposal) := by
  refine ⟨h.toLogInv.submit proposal [] [], agree_submitToAll h.agree proposal, fun r hr => ?_⟩
  by_cases hh : hub.halted = true
  · rw [submitToAll_of_halted hh] at hr ⊢
    exact h.reports r hr
  · have hh' : hub.halted = false := by simpa using hh
    have hempty : (ComputationProtocolHub.submitToAll A O hub proposal).nodes.isEmpty
        = hub.nodes.isEmpty := by
      rw [submitToAll_nodes hh', List.isEmpty_map]
    rw [hempty]
    rw [ComputationProtocolHub.submitToAll, submit, if_neg hh] at hr
    rcases List.mem_append.mp hr with hr | hr
    · exact h.reports r hr
    · split at hr
      · next hs =>
        rw [Option.toList_some, List.mem_singleton] at hr
        rw [hr]
        exact consensus_of_agree h.agree hs _
      · exact absurd hr (by simp)

/-- No submission changes the number of nodes. -/
lemma length_nodes_exec (hub : ComputationProtocolHub S P)
    (proposals : List (ProposalMessage P)) :
    (Run.exec (submitToAll A O) hub proposals).nodes.length = hub.nodes.length := by
  refine Run.invariant_of_forall
    (I := fun hub' : ComputationProtocolHub S P => hub'.nodes.length = hub.nodes.length)
    (fun hub' proposal h => ?_) rfl proposals
  by_cases hh : hub'.halted = true
  · rwa [submitToAll_of_halted hh]
  · rwa [submitToAll_nodes (by simpa using hh), List.length_map]

/-- A halted hub refuses every operation, and stays as it is. -/
lemma refuses_of_halted {hub : ComputationProtocolHub S P} (h : hub.halted = true) :
    (∀ proposal ex de, ∃ msg, hub.submit A O proposal ex de = (hub, .error (.runtimeError msg))) ∧
      ∀ nodeId, ∃ msg, hub.releaseHeldEvents A nodeId = (hub, .error (.runtimeError msg)) :=
  ⟨fun _ _ _ => ⟨_, by rw [submit, if_pos h]⟩, fun _ => ⟨_, by rw [releaseHeldEvents, if_pos h]⟩⟩

/-- **Lockstep.**  Nodes that start in one state and get every submission, over any adapter
and with any halt flags: they agree after every call, every `SYNC` report says consensus
unless there is no node, the log carries the ids `1, 2, …` in order, and once it is halted
the hub refuses every operation. -/
theorem submitToAll_lockstep (A : Adapter S P) (O : SetOrder) (hr hd : Bool) (ids : List String)
    (s₀ : S) (proposals : List (ProposalMessage P)) :
    let hub := Run.exec (submitToAll A O) (withNodes hr hd (ids.map fun i => (i, s₀))) proposals
    (∀ n ∈ hub.nodes, ∀ n' ∈ hub.nodes, n.adapterState = n'.adapterState ∧
        n.localLog = n'.localLog ∧ n.eventBuffer = n'.eventBuffer ∧
        n.nextExpectedCausalId = n'.nextExpectedCausalId) ∧
      (∀ r ∈ hub.syncReports, r.consensus = !ids.isEmpty) ∧
      hub.eventLog.map (·.causalId)
        = (List.range hub.eventLog.length).map (fun i : ℕ => 1 + (i : ℤ)) ∧
      (hub.halted = true →
        (∀ proposal ex de, ∃ msg,
          hub.submit A O proposal ex de = (hub, .error (.runtimeError msg))) ∧
        ∀ nodeId, ∃ msg, hub.releaseHeldEvents A nodeId = (hub, .error (.runtimeError msg))) := by
  intro hub
  have h : InLockstep hub := Run.invariant_of_forall (fun _ proposal h => h.submitToAll proposal)
    (InLockstep.withNodes hr hd ids s₀) proposals
  have hlength : hub.nodes.length = ids.length := by
    rw [length_nodes_exec, withNodes_nodes, List.length_map, List.length_map]
  have hempty : hub.nodes.isEmpty = ids.isEmpty := by
    rw [Bool.eq_iff_iff, List.isEmpty_iff_length_eq_zero, List.isEmpty_iff_length_eq_zero, hlength]
  refine ⟨fun n hn n' hn' => ?_, fun r hr => ?_, h.numbered.map_eq, refuses_of_halted⟩
  · have heq := h.agree n hn n' hn'
    exact ⟨congrArg (·.adapterState) heq, congrArg (·.localLog) heq, congrArg (·.eventBuffer) heq,
      congrArg (·.nextExpectedCausalId) heq⟩
  · rw [h.reports r hr, hempty]

/-- A hub without nodes reports no consensus. -/
theorem no_nodes_no_consensus :
    (Run.exec (submitToAll (mockAdapter id) .lastInsertion) (withNodes true true [])
      [syncProposal]).syncReports.map (·.consensus) = [false] := by
  decide

end ComputationProtocolHub

end QuantumFoundation
