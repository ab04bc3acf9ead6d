import QuantumFoundation.Distributed.Accounting
import QuantumFoundation.Distributed.Lockstep
import QuantumFoundation.Lib.Answers

/-!
# The execution service

The routes of `execution_interface.py`: a hub that halts on rejection and on divergence, with
several nodes around adapters that start in one state; every request becomes a proposal that goes to
all nodes.  From outside the service is one adapter behind a counter, that stops for good at the
first payload that raises: a client sees neither the nodes nor the protocol, for any adapter.
-/

namespace QuantumFoundation

variable {S P : Type*}

/-! ### The routes -/

/-- `any_rejected`. -/
def ExecutionReceipt.anyRejected (receipt : ExecutionReceipt P) : Bool :=
  receipt.acks.any fun a => a.ackType = .rejected

/-- What `check_full_consensus` returns. -/
structure FullConsensus where
  consensus : Bool
  uniqueHashes : List String
  nodeHashes : Dict String String
  partialNodes : List String

/-- `check_full_consensus`. -/
def ComputationProtocolHub.checkFullConsensus (A : Adapter S P) (O : SetOrder)
    (hub : ComputationProtocolHub S P) : FullConsensus :=
  let hashes := Dict.ofList (hub.nodes.map fun n => (n.nodeId, n.getStateHash A))
  let unique := O.iter hashes.values
  let partialNodes := (hub.nodes.filter fun n => n.isPartial).map (·.nodeId)
  { consensus := decide (unique.length ≤ 1) && partialNodes.isEmpty
    uniqueHashes := unique
    nodeHashes := hashes
    partialNodes := partialNodes }

/-- The body of a request, with the id that is drawn for its proposal. -/
structure ExecuteRequest (P : Type*) where
  proposalId : String
  eventType : String
  origin : String
  payload : P

/-- The proposal that is made of a request. -/
def ExecuteRequest.proposal (req : ExecuteRequest P) : ProposalMessage P :=
  ⟨req.proposalId, req.origin, req.eventType, req.payload⟩

/-- An answer: the body of a success, or a status code with a detail. -/
inductive ExecuteResponse
  | applied (causalId : ℤ) (stateHash : String) (consensus : Bool)
  | httpException (statusCode : ℕ) (detail : String)
deriving DecidableEq

/-- The body of `get_hub_metrics`. -/
structure HubMetrics where
  engineCausalId : ℤ
  nodesRegistered : ℕ
  isHalted : Bool
  haltReason : Option String
  consensusVerified : Bool
  divergentHashes : Option (List String)
  globalStateHash : String
deriving DecidableEq

namespace ExecutionService

variable (A : Adapter S P) (O : SetOrder)

/-- The hub with its nodes as the service is started. -/
def start (ids : List String) (s₀ : S) : ComputationProtocolHub S P :=
  .withNodes true true (ids.map fun name => (name, s₀))

/-- `nodes[0].get_state_hash()`.  There is a first node. -/
def firstHash (hub : ComputationProtocolHub S P) : String :=
  (hub.nodes.head?.map fun n => n.getStateHash A).getD ""

/-- `execute_event`. -/
def executeEvent (hub : ComputationProtocolHub S P) (req : ExecuteRequest P) :
    ComputationProtocolHub S P × ExecuteResponse :=
  if hub.halted then
    (hub, .httpException 500
      ("Hub is halted: " ++ (hub.haltReason.map HaltReason.text).getD "None"))
  else
    match hub.submit A O req.proposal [] [] with
    | (hub', .error _) => (hub', .httpException 500 "Internal Server Error")
    | (hub', .ok receipt) =>
      if receipt.anyRejected then
        (hub', .httpException 400
          "Update rejected by one or more covariant nodes. Divergence prevented.")
      else
        (hub', .applied receipt.sequencedEvent.causalId (firstHash A hub')
          (hub'.checkFullConsensus A O).consensus)

/-- `get_hub_metrics`. -/
def getHubMetrics (hub : ComputationProtocolHub S P) : HubMetrics :=
  let syncCheck := hub.checkFullConsensus A O
  { engineCausalId := hub.globalCausalId - 1
    nodesRegistered := hub.nodes.length
    isHalted := hub.halted
    haltReason := hub.haltReason.map HaltReason.text
    consensusVerified := syncCheck.consensus
    divergentHashes := if syncCheck.consensus then none else some syncCheck.uniqueHashes
    globalStateHash := firstHash A hub }

end ExecutionService

/-! ### What the service is for -/

/-- One adapter behind a counter. -/
structure SequentialService (S : Type*) where
  adapterState : S
  sequenced : ℕ
  /-- Why the service has stopped. -/
  refusal : Option String

namespace SequentialService

variable (A : Adapter S P)

/-- What a step asks of the adapter: nothing, if it is a consensus check. -/
def attempt (stepType : String) (payload : P) (state : S) : S × Option PyError :=
  if stepType = "SYNC" then (state, none) else A.applyEventPayload payload state

/-- A request is carried out, or it stops the service, or the service has stopped.  In the reason
it is the last node that has the last word. -/
def execute (lastId : String) (s : SequentialService S) (req : ExecuteRequest P) :
    SequentialService S × ExecuteResponse :=
  match s.refusal with
  | some reason => (s, .httpException 500 ("Hub is halted: " ++ reason))
  | none =>
    let causalId : ℤ := s.sequenced + 1
    match attempt A req.eventType req.payload s.adapterState with
    | (state, none) =>
      (⟨state, s.sequenced + 1, none⟩, .applied causalId (A.getStateHash state) true)
    | (state, some exc) =>
      (⟨state, s.sequenced + 1, some ("Node " ++ lastId ++ " REJECTED causal_id="
          ++ toString causalId ++ ": " ++ exc.str)⟩,
        .httpException 400
          "Update rejected by one or more covariant nodes. Divergence prevented.")

/-- What is to be seen of the service. -/
def metrics (nodes : ℕ) (s : SequentialService S) : HubMetrics where
  engineCausalId := s.sequenced
  nodesRegistered := nodes
  isHalted := s.refusal.isSome
  haltReason := s.refusal
  consensusVerified := true
  divergentHashes := none
  globalStateHash := A.getStateHash s.adapterState

end SequentialService

/-! ### One node -/

variable {A : Adapter S P} {O : SetOrder}

/-- What a node does with an event that is due while nothing waits in its buffer. -/
lemma DistributedStateNode.receiveEvent_due {n : DistributedStateNode S P}
    {event : ExecutionEvent P} (hbuffer : n.eventBuffer = .empty)
    (hdue : n.nextExpectedCausalId = event.causalId) :
    n.receiveEvent A event = match A.applyEventPayload event.payload n.adapterState with
      | (s, none) => ({ n with
          adapterState := s
          localLog := n.localLog ++ [event]
          nextExpectedCausalId := event.causalId + 1 }, none)
      | (s, some exc) => ({ n with adapterState := s }, some exc) := by
  obtain ⟨nodeId, state, cursor, buffer, log⟩ := n
  obtain rfl : buffer = .empty := hbuffer
  obtain rfl : cursor = event.causalId := hdue
  have hset : ((Dict.empty : Dict ℤ (ExecutionEvent P)).set event.causalId event).entries
      = [(event.causalId, event)] := by
    rw [Dict.set, dif_neg (by simp)]
    rfl
  have hget : ((Dict.empty : Dict ℤ (ExecutionEvent P)).set event.causalId event).get?
      event.causalId = some event := by rw [Dict.get?_set, if_pos rfl]
  have hsize : ((Dict.empty : Dict ℤ (ExecutionEvent P)).set event.causalId event).size = 1 := by
    rw [Dict.size, hset]
    rfl
  have herase : ((Dict.empty : Dict ℤ (ExecutionEvent P)).set event.causalId event).erase
      event.causalId = .empty := by
    ext1
    simp only [Dict.erase, hset]
    simp [Dict.empty]
  rw [receiveEvent, if_neg (lt_irrefl _), processBuffer]
  dsimp only
  rw [hsize, processBufferLoop]
  dsimp only
  rw [hget, herase]
  dsimp only
  rcases A.applyEventPayload event.payload state with ⟨s, _ | exc⟩
  · rfl
  · rfl

/-- A node with nothing in its buffer, at which the event is due, attempts what the event asks. -/
lemma ProtocolNode.executeSequencedEvent_due {n : ProtocolNode S P} (event : SequencedEvent P)
    (hbuffer : n.eventBuffer = .empty) (hdue : n.nextExpectedCausalId = event.causalId) :
    let r := SequentialService.attempt A event.stepType event.payload n.adapterState
    let n' := (n.executeSequencedEvent A event).1
    let ack := (n.executeSequencedEvent A event).2
    n'.adapterState = r.1 ∧ n'.eventBuffer = .empty ∧
      (r.2 = none → n'.nextExpectedCausalId = event.causalId + 1 ∧ ack.ackType = .applied) ∧
      ∀ exc, r.2 = some exc → ack.ackType = .rejected ∧ ack.error = some exc.str := by
  by_cases hsync : event.stepType = "SYNC"
  · simp [executeSequencedEvent, executeCore, SequentialService.attempt, hsync, hbuffer,
      withStateNode]
  · have hreceive : n.receiveEvent A event.toExecutionEvent = _ :=
      DistributedStateNode.receiveEvent_due hbuffer hdue
    have hpayload : event.toExecutionEvent.payload = event.payload := rfl
    rw [hpayload] at hreceive
    simp only [executeSequencedEvent, executeCore, SequentialService.attempt, if_neg hsync]
    rcases hr : A.applyEventPayload event.payload n.adapterState with ⟨state, _ | exc⟩
    · rw [hr] at hreceive
      simp [hreceive, withStateNode, hbuffer, hdue]
    · rw [hr] at hreceive
      simp [hreceive, withStateNode, hbuffer]

/-! ### The nodes together -/

namespace ComputationProtocolHub

variable {hub : ComputationProtocolHub S P} {event : SequencedEvent P}

/-- A delivery that no node rejects halts no hub. -/
lemma deliver_of_accepted
    (h : ∀ n ∈ hub.nodes, (n.executeSequencedEvent A event).2.ackType ≠ .rejected) :
    (hub.deliver A event [] []).halted = hub.halted ∧
      (hub.deliver A event [] []).haltReason = hub.haltReason := by
  rw [deliver]
  refine Run.invariant_of_mem
    (I := fun d : Delivery S P => d.halted = hub.halted ∧ d.haltReason = hub.haltReason)
    (fun d n hn hd => ?_) ⟨rfl, rfl⟩
  rw [deliverTo, if_neg List.not_mem_nil, if_neg List.not_mem_nil]
  dsimp only
  rwa [if_neg fun hrejected => h n hn hrejected.1]

/-- Of the nodes that reject an event the last one has the last word. -/
lemma deliver_of_rejected {nodes : List (ProtocolNode S P)} {last : ProtocolNode S P}
    (hnodes : hub.nodes = nodes ++ [last]) (hflag : hub.haltOnRejection = true)
    (h : (last.executeSequencedEvent A event).2.ackType = .rejected) :
    (hub.deliver A event [] []).halted = true ∧
      (hub.deliver A event [] []).haltReason
        = some (.rejected last.nodeId event.causalId
            (last.executeSequencedEvent A event).2.error) := by
  rw [deliver, hnodes, List.foldl_append, List.foldl_cons, List.foldl_nil, deliverTo,
    if_neg List.not_mem_nil, if_neg List.not_mem_nil]
  dsimp only
  rw [if_pos ⟨h, hflag⟩]
  exact ⟨rfl, rfl⟩

/-- Nodes with one hash that wait for nothing are in consensus. -/
lemma checkFullConsensus_of_agree {hash : String}
    (hhash : ∀ n ∈ hub.nodes, n.getStateHash A = hash)
    (hbuffer : ∀ n ∈ hub.nodes, n.eventBuffer = .empty) :
    (hub.checkFullConsensus A O).consensus = true := by
  have hunique : (O.iter (Dict.ofList (hub.nodes.map fun n =>
      (n.nodeId, n.getStateHash A))).values).length ≤ 1 := by
    refine O.length_iter_le_one.mpr fun a ha b hb => ?_
    have hvalue : ∀ c ∈ (Dict.ofList (hub.nodes.map fun n =>
        (n.nodeId, n.getStateHash A))).values, c = hash := by
      intro c hc
      have hc := Dict.mem_values_ofList hc
      rw [List.map_map] at hc
      obtain ⟨n, hn, rfl⟩ := List.mem_map.mp hc
      exact hhash n hn
    rw [hvalue a ha, hvalue b hb]
  have hpartial : hub.nodes.filter (fun n => n.isPartial) = [] := by
    refine List.filter_eq_nil_iff.mpr fun n hn => ?_
    rw [PropagatingStateNode.isPartial, hbuffer n hn]
    simp [Dict.size, Dict.empty]
  rw [checkFullConsensus, hpartial]
  simp only [hunique, decide_true, List.map_nil, List.isEmpty_nil, Bool.and_self]

/-- A submission of which all nodes in lockstep hear. -/
lemma submit_of_lockstep (hlock : InLockstep hub) (hne : hub.nodes ≠ [])
    (hh : hub.halted = false) (proposal : ProposalMessage P) :
    ∃ receipt, hub.submit A O proposal [] [] = (submitToAll A O hub proposal, .ok receipt) ∧
      receipt.sequencedEvent = hub.sequence proposal ∧
      receipt.acks
        = hub.nodes.map (fun n => (n.executeSequencedEvent A (hub.sequence proposal)).2) ∧
      (submitToAll A O hub proposal).halted
        = (hub.deliver A (hub.sequence proposal) [] []).halted ∧
      (submitToAll A O hub proposal).haltReason
        = (hub.deliver A (hub.sequence proposal) [] []).haltReason ∧
      (submitToAll A O hub proposal).globalCausalId = hub.globalCausalId + 1 ∧
      (submitToAll A O hub proposal).haltOnRejection = hub.haltOnRejection := by
  have hacks : (hub.deliver A (hub.sequence proposal) [] []).acks
      = hub.nodes.map fun n => (n.executeSequencedEvent A (hub.sequence proposal)).2 := by
    rw [deliver_acks, List.filter_eq_self.mpr]
    exact fun n _ => decide_eq_true ⟨List.not_mem_nil, List.not_mem_nil⟩
  -- a consensus check finds consensus
  have hconsensus : proposal.stepType = "SYNC" → ∀ nodes : List (ProtocolNode S P),
      (buildSyncReport O nodes (hub.sequence proposal)
        (hub.deliver A (hub.sequence proposal) [] []).acks).consensus = true := by
    intro hs nodes
    rw [consensus_of_agree hlock.agree hs]
    simpa using hne
  have hreport : ((if proposal.stepType = "SYNC" then
        some (buildSyncReport O (hub.deliver A (hub.sequence proposal) [] []).nodes
          (hub.sequence proposal) (hub.deliver A (hub.sequence proposal) [] []).acks)
      else none).filter fun r => !r.consensus && hub.haltOnDivergence) = none := by
    split
    · next hs => rw [Option.filter_some, hconsensus hs]; rfl
    · rfl
  rw [submitToAll, submit, if_neg (by simp [hh])]
  dsimp only
  rw [hreport]
  exact ⟨_, rfl, rfl, hacks, Bool.or_false _, rfl, rfl, rfl⟩

end ComputationProtocolHub

/-! ### The service and its purpose -/

namespace ExecutionService

open ComputationProtocolHub

/-- The hub is where the sequential service is: all nodes have its state, and none waits for
anything. -/
structure Serves (nodeIds : List String) (hub : ComputationProtocolHub S P)
    (s : SequentialService S) : Prop extends InLockstep hub where
  flag : hub.haltOnRejection = true
  nodeIds : hub.nodes.map (·.nodeId) = nodeIds
  adapterState : ∀ n ∈ hub.nodes, n.adapterState = s.adapterState
  buffer : ∀ n ∈ hub.nodes, n.eventBuffer = .empty
  counter : hub.globalCausalId = s.sequenced + 1
  due : s.refusal = none → ∀ n ∈ hub.nodes, n.nextExpectedCausalId = hub.globalCausalId
  halted : hub.halted = s.refusal.isSome
  reason : hub.haltReason.map HaltReason.text = s.refusal

variable {ids : List String} {lastId : String} {hub : ComputationProtocolHub S P}
  {s : SequentialService S}

lemma serves_start (nodeIds : List String) (s₀ : S) :
    Serves nodeIds (start (P := P) nodeIds s₀) ⟨s₀, 0, none⟩ := by
  have hfields : (start (P := P) nodeIds s₀).haltOnRejection = true ∧
      (start (P := P) nodeIds s₀).globalCausalId = 1 ∧
      (start (P := P) nodeIds s₀).halted = false ∧
      (start (P := P) nodeIds s₀).haltReason = none :=
    withNodes_induction
      (J := fun hub => hub.haltOnRejection = true ∧ hub.globalCausalId = 1 ∧
        hub.halted = false ∧ hub.haltReason = none)
      ⟨rfl, rfl, rfl, rfl⟩ fun _ _ _ h => h
  obtain ⟨hflag, hcounter, hhalted, hreason⟩ := hfields
  have hnodes : (start (P := P) nodeIds s₀).nodes = nodeIds.map fun i => .new i s₀ := by
    rw [start, withNodes_nodes, List.map_map]
    rfl
  refine ⟨.withNodes true true nodeIds s₀, hflag, ?_, ?_, ?_, hcounter, ?_, hhalted, ?_⟩
  · rw [hnodes, List.map_map]
    exact List.map_id _
  · rw [hnodes]
    exact List.forall_mem_map.mpr fun _ _ => rfl
  · rw [hnodes]
    exact List.forall_mem_map.mpr fun _ _ => rfl
  · rw [hnodes, hcounter]
    exact fun _ => List.forall_mem_map.mpr fun _ _ => rfl
  · rw [hreason]
    rfl

lemma Serves.exists_last (h : Serves (ids ++ [lastId]) hub s) :
    ∃ nodes last, hub.nodes = nodes ++ [last] ∧ last.nodeId = lastId := by
  obtain ⟨nodes, rest, hnodes, -, hrest⟩ := List.map_eq_append_iff.mp h.nodeIds
  obtain ⟨last, rfl, hlast⟩ := List.map_eq_singleton_iff.mp hrest
  exact ⟨nodes, last, hnodes, hlast⟩

lemma Serves.nodes_ne_nil (h : Serves (ids ++ [lastId]) hub s) : hub.nodes ≠ [] := by
  obtain ⟨nodes, last, hnodes, -⟩ := h.exists_last
  rw [hnodes]
  exact List.append_ne_nil_of_right_ne_nil _ (List.cons_ne_nil _ _)

lemma Serves.firstHash (h : Serves (ids ++ [lastId]) hub s) :
    firstHash A hub = A.getStateHash s.adapterState := by
  obtain ⟨n, nodes, hnodes⟩ := List.exists_cons_of_ne_nil h.nodes_ne_nil
  have hstate := h.adapterState n (hnodes ▸ List.mem_cons_self)
  rw [ExecutionService.firstHash, hnodes, ← hstate]
  rfl

lemma Serves.consensus (h : Serves ids hub s) :
    (hub.checkFullConsensus A O).consensus = true :=
  checkFullConsensus_of_agree (fun n hn => congrArg A.getStateHash (h.adapterState n hn)) h.buffer

lemma Serves.metrics (h : Serves (ids ++ [lastId]) hub s) :
    getHubMetrics A O hub = s.metrics A (ids.length + 1) := by
  have hlength : hub.nodes.length = ids.length + 1 := by
    rw [← List.length_map (f := (·.nodeId)), h.nodeIds, List.length_append, List.length_singleton]
  rw [getHubMetrics, SequentialService.metrics]
  simp only [h.consensus, h.firstHash, h.halted, h.reason, h.counter, hlength, if_true]
  simp

/-- The nodes after a submission, and what they have answered. -/
lemma Serves.nodes_submitToAll (h : Serves (ids ++ [lastId]) hub s) (hrefusal : s.refusal = none)
    (req : ExecuteRequest P) :
    let r := SequentialService.attempt A req.eventType req.payload s.adapterState
    ∀ n ∈ hub.nodes,
      let n' := (n.executeSequencedEvent A (hub.sequence req.proposal)).1
      let ack := (n.executeSequencedEvent A (hub.sequence req.proposal)).2
      n'.adapterState = r.1 ∧ n'.eventBuffer = .empty ∧
        (r.2 = none → n'.nextExpectedCausalId = hub.globalCausalId + 1 ∧ ack.ackType = .applied) ∧
        ∀ exc, r.2 = some exc → ack.ackType = .rejected ∧ ack.error = some exc.str := by
  intro r n hn
  have hattempt : SequentialService.attempt A (hub.sequence req.proposal).stepType
      (hub.sequence req.proposal).payload n.adapterState = r := by
    rw [h.adapterState n hn]
    rfl
  rw [← hattempt]
  exact ProtocolNode.executeSequencedEvent_due _ (h.buffer n hn) (h.due hrefusal n hn)

/-- A submission makes the attempt that the sequential service makes. -/
lemma Serves.submitToAll (h : Serves (ids ++ [lastId]) hub s) (hrefusal : s.refusal = none)
    (req : ExecuteRequest P) {state : S} {exc : Option PyError} (refusal : Option String)
    (hr : SequentialService.attempt A req.eventType req.payload s.adapterState = (state, exc))
    (hexc : refusal = none → exc = none)
    (hhalted : (hub.submitToAll A O req.proposal).halted = refusal.isSome)
    (hreason : (hub.submitToAll A O req.proposal).haltReason.map HaltReason.text = refusal) :
    Serves (ids ++ [lastId]) (hub.submitToAll A O req.proposal)
      ⟨state, s.sequenced + 1, refusal⟩ := by
  have hh : hub.halted = false := by rw [h.halted, hrefusal]; rfl
  obtain ⟨-, -, -, -, -, -, hcounter, hflag⟩ :=
    submit_of_lockstep (A := A) (O := O) h.toInLockstep h.nodes_ne_nil hh req.proposal
  have hnode := h.nodes_submitToAll (A := A) hrefusal req
  rw [hr] at hnode
  have hnodes := submitToAll_nodes (A := A) (O := O) hh req.proposal
  refine ⟨h.toInLockstep.submitToAll req.proposal, hflag.trans h.flag, ?_, ?_, ?_, ?_, ?_, hhalted,
    hreason⟩
  · rw [hnodes, List.map_map, ← h.nodeIds]
    exact List.map_congr_left fun n _ => n.executeSequencedEvent_nodeId _
  · rw [hnodes]
    exact List.forall_mem_map.mpr fun n hn => (hnode n hn).1
  · rw [hnodes]
    exact List.forall_mem_map.mpr fun n hn => (hnode n hn).2.1
  · rw [hcounter, h.counter, Nat.cast_succ]
  · rw [hnodes, hcounter]
    exact fun hnone => List.forall_mem_map.mpr fun n hn => ((hnode n hn).2.2.1 (hexc hnone)).1

/-- **Step lemma.** -/
theorem Serves.execute (h : Serves (ids ++ [lastId]) hub s) (req : ExecuteRequest P) :
    Serves (ids ++ [lastId]) (executeEvent A O hub req).1 (s.execute A lastId req).1 ∧
      (executeEvent A O hub req).2 = (s.execute A lastId req).2 := by
  cases hrefusal : s.refusal with
  | some reason =>
    have hh : hub.halted = true := by rw [h.halted, hrefusal]; rfl
    rw [executeEvent, if_pos hh, SequentialService.execute, hrefusal, h.reason, hrefusal]
    exact ⟨h, rfl⟩
  | none =>
    have hh : hub.halted = false := by rw [h.halted, hrefusal]; rfl
    obtain ⟨receipt, hsubmit, hevent, hacks, hhalted, hreason, -, -⟩ :=
      submit_of_lockstep (A := A) (O := O) h.toInLockstep h.nodes_ne_nil hh req.proposal
    have hnode := h.nodes_submitToAll (A := A) hrefusal req
    rw [executeEvent, if_neg (by simp [hh]), hsubmit, SequentialService.execute, hrefusal]
    rcases hr : SequentialService.attempt A req.eventType req.payload s.adapterState with
      ⟨state, _ | exc⟩
    · rw [hr] at hnode
      have happlied : ∀ n ∈ hub.nodes,
          (n.executeSequencedEvent A (hub.sequence req.proposal)).2.ackType = .applied :=
        fun n hn => ((hnode n hn).2.2.1 rfl).2
      obtain ⟨hsame, hsameReason⟩ := deliver_of_accepted (A := A)
        (fun n hn => by rw [happlied n hn]; exact AckType.noConfusion)
      have hserves := h.submitToAll (O := O) hrefusal req none hr (fun _ => rfl)
        (by rw [hhalted, hsame, hh]; rfl) (by rw [hreason, hsameReason, h.reason, hrefusal])
      have hnone : receipt.anyRejected = false := by
        rw [ExecutionReceipt.anyRejected, hacks, List.any_map, List.any_eq_false]
        intro n hn
        rw [Function.comp_apply, happlied n hn]
        decide
      refine ⟨?_, ?_⟩
      · simpa [hnone] using hserves
      · simp [hnone, hserves.firstHash, hserves.consensus, hevent, ComputationProtocolHub.sequence,
          h.counter]
    · rw [hr] at hnode
      obtain ⟨nodes, last, hlast, hlastId⟩ := h.exists_last
      have hmem : last ∈ hub.nodes := by
        rw [hlast]
        exact List.mem_append_right _ List.mem_cons_self
      obtain ⟨hack, herror⟩ := (hnode last hmem).2.2.2 exc rfl
      obtain ⟨hstopped, hstopReason⟩ := deliver_of_rejected hlast h.flag hack
      have htext : (hub.submitToAll A O req.proposal).haltReason.map HaltReason.text
          = some ("Node " ++ lastId ++ " REJECTED causal_id=" ++ toString (s.sequenced + 1 : ℤ)
            ++ ": " ++ exc.str) := by
        have hid : (hub.sequence req.proposal).causalId = s.sequenced + 1 := h.counter
        rw [hreason, hstopReason, herror, hlastId, hid]
        rfl
      have hserves := h.submitToAll (O := O) hrefusal req (some _) hr
        (fun hnone => absurd hnone (Option.some_ne_none _)) (hhalted.trans hstopped) htext
      have hany : receipt.anyRejected = true := by
        rw [ExecutionReceipt.anyRejected, hacks, List.any_map, List.any_eq_true]
        exact ⟨last, hmem, by rw [Function.comp_apply, hack]; decide⟩
      refine ⟨?_, ?_⟩
      · simpa [hany] using hserves
      · simp [hany]

end ExecutionService

/-! ### Every run -/

namespace SequentialService

variable {lastId : String} {s : SequentialService S}

/-- A service that has stopped answers everything in the same way. -/
lemma answer_of_refusal {reason : String} (h : s.refusal = some reason)
    (requests : List (ExecuteRequest P)) : Run.answer (execute A lastId) s requests
      = (s, .replicate requests.length (.httpException 500 ("Hub is halted: " ++ reason))) := by
  induction requests with
  | nil => rfl
  | cons req requests ih =>
    have hstep : s.execute A lastId req
        = (s, .httpException 500 ("Hub is halted: " ++ reason)) := by rw [execute, h]
    rw [Run.answer_cons, hstep, ih, List.length_cons, List.replicate_succ]

/-- What a running service does with a request: it carries it out, or it stops. -/
lemma execute_cases (lastId : String) (h : s.refusal = none) (req : ExecuteRequest P) :
    (∃ state, attempt A req.eventType req.payload s.adapterState = (state, none) ∧
      s.execute A lastId req = (⟨state, s.sequenced + 1, none⟩,
        .applied (s.sequenced + 1) (A.getStateHash state) true)) ∨
    ∃ state exc reason, attempt A req.eventType req.payload s.adapterState = (state, some exc) ∧
      s.execute A lastId req = (⟨state, s.sequenced + 1, some reason⟩, .httpException 400
        "Update rejected by one or more covariant nodes. Divergence prevented.") := by
  rw [execute, h]
  rcases attempt A req.eventType req.payload s.adapterState with ⟨state, _ | exc⟩
  · exact Or.inl ⟨state, rfl, rfl⟩
  · exact Or.inr ⟨state, exc, _, rfl, rfl⟩

/-- **Run lemma.**  The requests up to some point are carried out and numbered on; if there are more
then the next one is refused, and all others are told that the service has stopped. -/
theorem answer_shape (lastId : String) (h : s.refusal = none) (requests : List (ExecuteRequest P)) :
    let r := Run.answer (execute A lastId) s requests
    (∀ (i : ℕ) causalId hash consensus, r.2[i]? = some (.applied causalId hash consensus) →
      causalId = s.sequenced + i + 1 ∧ consensus = true) ∧
    ∀ (i : ℕ) code detail, r.2[i]? = some (.httpException code detail) →
      ∃ reason, r.1.refusal = some reason ∧ ∀ j, i < j → j < requests.length →
        r.2[j]? = some (.httpException 500 ("Hub is halted: " ++ reason)) := by
  induction requests generalizing s with
  | nil => simp
  | cons req requests ih =>
    rw [Run.answer_cons]
    rcases execute_cases (A := A) lastId h req with
      ⟨state, -, hstep⟩ | ⟨state, exc, reason, -, hstep⟩
    · obtain ⟨happlied, hrefused⟩ := @ih ⟨state, s.sequenced + 1, none⟩ rfl
      rw [hstep]
      refine ⟨fun i causalId hash consensus hi => ?_, fun i code detail hi => ?_⟩
      · cases i with
        | zero =>
          obtain ⟨rfl, rfl, rfl⟩ := by simpa using hi
          simp
        | succ i =>
          obtain ⟨rfl, rfl⟩ := happlied i causalId hash consensus (by simpa using hi)
          refine ⟨?_, rfl⟩
          push_cast
          ring
      · cases i with
        | zero => simp at hi
        | succ i =>
          obtain ⟨reason, hreason, hrest⟩ := hrefused i code detail (by simpa using hi)
          refine ⟨reason, hreason, fun j hij hj => ?_⟩
          cases j with
          | zero => exact absurd hij (Nat.not_lt_zero _)
          | succ j =>
            rw [List.getElem?_cons_succ]
            exact hrest j (Nat.lt_of_succ_lt_succ hij) (Nat.lt_of_succ_lt_succ hj)
    · rw [hstep, answer_of_refusal rfl]
      refine ⟨fun i causalId hash consensus hi => ?_, fun i code detail _ => ⟨reason, rfl, ?_⟩⟩
      · -- no answer from here on is that of a success
        cases i with
        | zero => simp at hi
        | succ i =>
          rw [List.getElem?_cons_succ, List.getElem?_replicate] at hi
          split at hi
          · simp at hi
          · cases hi
      · intro j hij hj
        cases j with
        | zero => exact absurd hij (Nat.not_lt_zero _)
        | succ j =>
          rw [List.getElem?_cons_succ, List.getElem?_replicate, if_pos (Nat.lt_of_succ_lt_succ hj)]

end SequentialService

/-- **The service.**  Over any adapter and with any number of nodes, every sequence of requests is
answered as one adapter behind a counter answers it, and the metrics are those of this adapter: all
nodes are in its state, in consensus.  The requests that are carried out are numbered on; the first
one that is not is refused, and after it every request is told that the hub is halted. -/
theorem ExecutionService.service_of_run (A : Adapter S P) (O : SetOrder) (ids : List String)
    (lastId : String) (s₀ : S) (requests : List (ExecuteRequest P)) :
    let r := Run.answer (executeEvent A O) (start (ids ++ [lastId]) s₀) requests
    let q := Run.answer (SequentialService.execute A lastId) ⟨s₀, 0, none⟩ requests
    r.2 = q.2 ∧ getHubMetrics A O r.1 = q.1.metrics A (ids.length + 1) ∧
      (∀ n ∈ r.1.nodes, n.adapterState = q.1.adapterState) ∧
      (∀ (i : ℕ) causalId hash consensus, r.2[i]? = some (.applied causalId hash consensus) →
        causalId = i + 1 ∧ consensus = true) ∧
      ∀ (i : ℕ) code detail, r.2[i]? = some (.httpException code detail) →
        ∃ reason, r.1.haltReason.map HaltReason.text = some reason ∧
          ∀ j, i < j → j < requests.length →
            r.2[j]? = some (.httpException 500 ("Hub is halted: " ++ reason)) := by
  intro r q
  obtain ⟨hserves, hanswers⟩ := Run.answer_eq_of_simulation
    (R := Serves (P := P) (ids ++ [lastId])) (fun hub s req h => h.execute (A := A) (O := O) req)
    (serves_start (ids ++ [lastId]) s₀) requests
  obtain ⟨happlied, hrefused⟩ := SequentialService.answer_shape (A := A)
    (s := ⟨s₀, 0, none⟩) lastId rfl requests
  refine ⟨hanswers, hserves.metrics, hserves.adapterState, ?_, ?_⟩
  · intro i causalId hash consensus hi
    simpa using happlied i causalId hash consensus (hanswers ▸ hi)
  · intro i code detail hi
    obtain ⟨reason, hreason, hrest⟩ := hrefused i code detail (hanswers ▸ hi)
    exact ⟨reason, hserves.reason.trans hreason, fun j hij hj => hanswers ▸ hrest j hij hj⟩

end QuantumFoundation
