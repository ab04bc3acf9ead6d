import QuantumFoundation.Distributed.Propagation

/-!
# The computation protocol

The hub and the nodes of `computation_protocol.py`.  A proposal is stamped with the next
causal id, appended to the event log and delivered to every node that is neither excluded
nor delayed; delayed nodes find the event in their held list when it is released.  A `SYNC`
step moves the cursor of every node it reaches to its own successor, without touching the
adapter, and is reported from the acknowledgements that came back.
-/

namespace QuantumFoundation

/-! ## Messages -/

/-- A request to the hub. -/
structure ProposalMessage (P : Type*) where
  proposalId : String
  originNode : String
  stepType : String
  payload : P
deriving DecidableEq

/-- A proposal with the causal id the hub assigned to it. -/
structure SequencedEvent (P : Type*) where
  causalId : ℤ
  proposalId : String
  originNode : String
  stepType : String
  payload : P
deriving DecidableEq

namespace SequencedEvent

variable {P : Type*}

/-- The event handed to the state node. -/
def toExecutionEvent (event : SequencedEvent P) : ExecutionEvent P :=
  ⟨event.causalId, event.originNode, event.stepType, event.payload⟩

@[simp] lemma toExecutionEvent_causalId (event : SequencedEvent P) :
    event.toExecutionEvent.causalId = event.causalId := rfl

/-- Is the event a consensus check? -/
def isSync (event : SequencedEvent P) : Bool := event.stepType == "SYNC"

end SequencedEvent

/-- `"APPLIED"`, `"BUFFERED"` or `"REJECTED"`. -/
inductive AckType
  | applied
  | buffered
  | rejected
deriving DecidableEq, Repr

/-- A node's answer to a sequenced event. -/
structure AckMessage where
  causalId : ℤ
  proposalId : String
  nodeId : String
  stateHash : String
  ackType : AckType
  error : Option String
deriving DecidableEq

/-- The result of a `SYNC` step. -/
structure SyncReport where
  causalId : ℤ
  nodeHashes : Dict String String
  consensus : Bool
  divergedNodes : List String
  committedCausalIds : Dict String ℤ
deriving DecidableEq

/-- The record of one step. -/
structure ExecutionReceipt (P : Type*) where
  sequencedEvent : SequencedEvent P
  acks : List AckMessage
  syncReport : Option SyncReport
  executionComplete : Bool
deriving DecidableEq

/-! ## Nodes -/

/-- A propagating node with the log of its acknowledgements. -/
structure ProtocolNode (S P : Type*) extends PropagatingStateNode S P where
  ackLog : List AckMessage
deriving DecidableEq

namespace ProtocolNode

variable {S P : Type*} (A : Adapter S P)

/-- A fresh node. -/
def new (nodeId : String) (s : S) : ProtocolNode S P where
  toPropagatingStateNode := .new nodeId s
  ackLog := []

/-- The state node inside, replaced. -/
def withStateNode (n : ProtocolNode S P) (m : DistributedStateNode S P) : ProtocolNode S P :=
  { n with toDistributedStateNode := m }

/-- What `execute_sequenced_event` does to the state node, and the kind of acknowledgement
with the error it carries. -/
def executeCore (event : SequencedEvent P) (m : DistributedStateNode S P) :
    DistributedStateNode S P × AckType × Option String :=
  if event.stepType = "SYNC" then
    ({ m with nextExpectedCausalId := event.causalId + 1 }, .applied, none)
  else
    match m.receiveEvent A event.toExecutionEvent with
    | (m', none) =>
      (m', if m.nextExpectedCausalId < m'.nextExpectedCausalId then .applied else .buffered, none)
    | (m', some exc) => (m', .rejected, some exc.str)

/-- `execute_sequenced_event`: the node afterwards and its acknowledgement, which carries no
state hash if the event was rejected. -/
def executeSequencedEvent (event : SequencedEvent P) (n : ProtocolNode S P) :
    ProtocolNode S P × AckMessage :=
  match executeCore A event n.toDistributedStateNode with
  | (m, ackType, error) =>
    let ack : AckMessage :=
      { causalId := event.causalId
        proposalId := event.proposalId
        nodeId := n.nodeId
        stateHash := if ackType = .rejected then "" else m.getStateHash A
        ackType := ackType
        error := error }
    ({ n.withStateNode m with ackLog := n.ackLog ++ [ack] }, ack)

end ProtocolNode

/-! ## The hub -/

/-- Why a hub was halted. -/
inductive HaltReason
  | rejected (nodeId : String) (causalId : ℤ) (error : Option String)
  | rejectedHeld (nodeId : String) (causalId : ℤ)
  | divergence (causalId : ℤ) (diverged : List String)
deriving DecidableEq

/-- The text of a halt reason. -/
def HaltReason.text : HaltReason → String
  | rejected nodeId causalId error =>
      "Node " ++ nodeId ++ " REJECTED causal_id=" ++ toString causalId ++ ": " ++ error.getD "None"
  | rejectedHeld nodeId causalId =>
      "Node " ++ nodeId ++ " REJECTED held event causal_id=" ++ toString causalId
  | divergence causalId diverged =>
      "SYNC causal_id=" ++ toString causalId ++ " revealed divergence: " ++ reprStrs diverged

/-- The hub: registered nodes, sequencer state, logs and held events. -/
structure ComputationProtocolHub (S P : Type*) where
  nodes : List (ProtocolNode S P)
  globalCausalId : ℤ
  eventLog : List (SequencedEvent P)
  receipts : List (ExecutionReceipt P)
  syncReports : List SyncReport
  haltOnRejection : Bool
  haltOnDivergence : Bool
  halted : Bool
  haltReason : Option HaltReason
  /-- For each registered node id, the events held back from it. -/
  pendingHeld : Dict String (List (SequencedEvent P))
deriving DecidableEq

/-- The part of the hub that the delivery loop of `submit` changes, with the
acknowledgements collected so far. -/
structure Delivery (S P : Type*) where
  nodes : List (ProtocolNode S P)
  acks : List AckMessage
  pendingHeld : Dict String (List (SequencedEvent P))
  halted : Bool
  haltReason : Option HaltReason

namespace ComputationProtocolHub

variable {S P : Type*}

/-- A hub without nodes. -/
def new (haltOnRejection haltOnDivergence : Bool) : ComputationProtocolHub S P where
  nodes := []
  globalCausalId := 1
  eventLog := []
  receipts := []
  syncReports := []
  haltOnRejection := haltOnRejection
  haltOnDivergence := haltOnDivergence
  halted := false
  haltReason := none
  pendingHeld := .empty

/-- `register_node`. -/
def registerNode (hub : ComputationProtocolHub S P) (node : ProtocolNode S P) :
    ComputationProtocolHub S P :=
  { hub with
    nodes := hub.nodes ++ [node]
    pendingHeld := hub.pendingHeld.set node.nodeId [] }

/-- `_find_node`: the position of the first node with the given id. -/
def findNode (hub : ComputationProtocolHub S P) (nodeId : String) : Option (Fin hub.nodes.length) :=
  hub.nodes.findFinIdx? fun n => n.nodeId == nodeId

/-- `get_event_slice`.  An upper end that is missing or zero stands for the last id. -/
def getEventSlice (hub : ComputationProtocolHub S P) (fromId : ℤ) (toId : Option ℤ) :
    List (SequencedEvent P) :=
  let toId := if toId.getD 0 = 0 then hub.globalCausalId - 1 else toId.getD 0
  hub.eventLog.filter fun e => fromId ≤ e.causalId ∧ e.causalId ≤ toId

variable (A : Adapter S P) (O : SetOrder)

/-- One round of the delivery loop of `submit`.  The held list exists for every registered
node, so the update of `_pending_held` finds it. -/
def deliverTo (haltOnRejection : Bool) (event : SequencedEvent P)
    (excludeNodes delayNodes : List String) (d : Delivery S P) (node : ProtocolNode S P) :
    Delivery S P :=
  if node.nodeId ∈ excludeNodes then
    { d with nodes := d.nodes ++ [node] }
  else if node.nodeId ∈ delayNodes then
    { d with
      nodes := d.nodes ++ [node]
      pendingHeld := d.pendingHeld.modify node.nodeId fun held => held ++ [event] }
  else
    match node.executeSequencedEvent A event with
    | (node', ack) =>
      let d' := { d with nodes := d.nodes ++ [node'], acks := d.acks ++ [ack] }
      -- halting does not end the loop
      if ack.ackType = .rejected ∧ haltOnRejection then
        { d' with
          halted := true
          haltReason := some (.rejected node.nodeId event.causalId ack.error) }
      else d'

/-- The delivery loop of `submit`. -/
def deliver (hub : ComputationProtocolHub S P) (event : SequencedEvent P)
    (excludeNodes delayNodes : List String) : Delivery S P :=
  hub.nodes.foldl (deliverTo A hub.haltOnRejection event excludeNodes delayNodes)
    ⟨[], [], hub.pendingHeld, hub.halted, hub.haltReason⟩

/-- `_build_sync_report`. -/
def buildSyncReport (nodes : List (ProtocolNode S P)) (event : SequencedEvent P)
    (acks : List AckMessage) : SyncReport :=
  let nodeHashes := Dict.ofList (acks.map fun a => (a.nodeId, a.stateHash))
  let uniqueHashes := O.iter nodeHashes.values
  let majorityHash := (maxKey (fun h => (nodeHashes.values.count h : ℤ)) uniqueHashes).getD ""
  { causalId := event.causalId
    nodeHashes := nodeHashes
    consensus := decide (uniqueHashes.length = 1)
    divergedNodes := (nodeHashes.entries.filter fun p => p.2 ≠ majorityHash).map Prod.fst
    committedCausalIds := Dict.ofList ((nodes.filter fun n => nodeHashes.contains n.nodeId).map
      fun n => (n.nodeId, n.committedCausalId)) }

/-- The event that `submit` sequences. -/
def sequence (hub : ComputationProtocolHub S P) (proposal : ProposalMessage P) :
    SequencedEvent P where
  causalId := hub.globalCausalId
  proposalId := proposal.proposalId
  originNode := proposal.originNode
  stepType := proposal.stepType
  payload := proposal.payload

/-- `submit`. -/
def submit (hub : ComputationProtocolHub S P) (proposal : ProposalMessage P)
    (excludeNodes delayNodes : List String) :
    Outcome (ComputationProtocolHub S P) (ExecutionReceipt P) :=
  if hub.halted then
    (hub, .error (.runtimeError ("Hub is HALTED: "
      ++ (hub.haltReason.map HaltReason.text).getD "None" ++ ". No further operations permitted.")))
  else
    let event := hub.sequence proposal
    let d := hub.deliver A event excludeNodes delayNodes
    let syncReport :=
      if proposal.stepType = "SYNC" then some (buildSyncReport O d.nodes event d.acks) else none
    -- the report of a `SYNC` without consensus halts the hub
    let diverged := (syncReport.filter fun r => !r.consensus && hub.haltOnDivergence).map
      fun r => HaltReason.divergence event.causalId r.divergedNodes
    let receipt : ExecutionReceipt P :=
      { sequencedEvent := event
        acks := d.acks
        syncReport := syncReport
        executionComplete := !(d.halted || diverged.isSome) }
    ({ hub with
        nodes := d.nodes
        globalCausalId := hub.globalCausalId + 1
        eventLog := hub.eventLog ++ [event]
        receipts := hub.receipts ++ [receipt]
        syncReports := hub.syncReports ++ syncReport.toList
        halted := d.halted || diverged.isSome
        haltReason := diverged.or d.haltReason
        pendingHeld := d.pendingHeld }, .ok receipt)

/-- The loop of `release_held_events`: the node afterwards, the acknowledgements, and the
event at whose rejection the loop was left, if it was. -/
def releaseLoop (haltOnRejection : Bool) : List (SequencedEvent P) → ProtocolNode S P →
    ProtocolNode S P × List AckMessage × Option (SequencedEvent P)
  | [], node => (node, [], none)
  | event :: held, node =>
    match node.executeSequencedEvent A event with
    | (node', ack) =>
      if ack.ackType = .rejected ∧ haltOnRejection then (node', [ack], some event)
      else
        match releaseLoop haltOnRejection held node' with
        | (node'', acks, stopped) => (node'', ack :: acks, stopped)

/-- `release_held_events`. -/
def releaseHeldEvents (hub : ComputationProtocolHub S P) (nodeId : String) :
    Outcome (ComputationProtocolHub S P) (List AckMessage) :=
  if hub.halted then
    (hub, .error (.runtimeError ("Hub is HALTED: "
      ++ (hub.haltReason.map HaltReason.text).getD "None")))
  else
    match hub.findNode nodeId with
    | none => (hub, .error (.valueError ("Node " ++ nodeId ++ " not registered")))
    | some i =>
      match releaseLoop A hub.haltOnRejection ((hub.pendingHeld.get? nodeId).getD [])
          hub.nodes[i] with
      | (node, acks, stopped) =>
        ({ hub with
            nodes := hub.nodes.set i node
            halted := stopped.isSome
            haltReason := (stopped.map fun e => .rejectedHeld nodeId e.causalId).or hub.haltReason
            pendingHeld := hub.pendingHeld.set nodeId [] }, .ok acks)

end ComputationProtocolHub

end QuantumFoundation
