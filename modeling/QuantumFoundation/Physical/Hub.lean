import Mathlib.Data.Finset.Insert
import QuantumFoundation.Physical.Executor

/-!
# The physical execution hub

The hub and the nodes of `execution_interface_v2.py`.  A proposal is parsed, stamped with the
next causal id, logged, and handed to every node that is not delayed; a delayed node finds the
event in its held list when this is released.  A node moves its cursor behind whatever event
it is given, and acknowledges an event below the cursor as applied without a look at it.
-/

namespace QuantumFoundation

variable {F : Type*} [LT F] [LE F] [OfScientific F]

/-! ## Messages -/

/-- An input as the hub files it.  The constructor of an input does not look at the roughness
rate, so this may be no number; then the input comes with what the use of the rate raises. -/
inductive ZoneInput (F : Type*) [LT F] [LE F] [OfScientific F]
  | readable (inp : TransitionInput F)
  | unreadable (zoneId : String) (corrosionRate coatingDegradationRate barnacleGrowthRate dt : F)
    (exc : PyError)
deriving DecidableEq

/-- What a proposal says about a zone: a ready input, a dictionary of rates, each of which may
be missing, or something else. -/
inductive ZoneData (F : Type*) [LT F] [LE F] [OfScientific F]
  | input (inp : ZoneInput F)
  /-- The roughness rate is a number, or not one; then with what its use raises. -/
  | rates (corrosionRate coatingDegradationRate barnacleGrowthRate : Option F)
    (roughnessRate : Option (Except PyError F)) (dt : Option F)
  /-- A dictionary in which one of the rates that the constructor compares, or `dt`, is not a
  number, with what the constructor raises. -/
  | illTyped (exc : PyError)
  | other

/-- A client's request to update the physical state. -/
structure PhysicalProposal (F : Type*) [LT F] [LE F] [OfScientific F] where
  proposalId : String
  clientId : String
  zoneTransitions : Dict String (ZoneData F)
  transitionName : String

/-- A parsed proposal with the causal id the hub assigned to it. -/
structure SequencedPhysicalEvent (F : Type*) [LT F] [LE F] [OfScientific F] where
  causalId : ℤ
  proposalId : String
  clientId : String
  zoneTransitions : Dict String (ZoneInput F)
  transitionName : String
deriving DecidableEq

/-- `"APPLIED"` or `"REJECTED"`. -/
inductive PhysicalAckType
  | applied
  | rejected
deriving DecidableEq, Repr

/-- A node's answer to a sequenced event. -/
structure PhysicalAck where
  causalId : ℤ
  proposalId : String
  nodeId : String
  globalStateHash : String
  batchChainHash : String
  ackType : PhysicalAckType
  error : Option String
deriving DecidableEq

/-- `ok`. -/
def PhysicalAck.ok (ack : PhysicalAck) : Bool := ack.ackType == .applied

/-- The record of one event. -/
structure PhysicalExecutionReceipt (F : Type*) [LT F] [LE F] [OfScientific F] where
  event : SequencedPhysicalEvent F
  acks : List PhysicalAck
  consensus : Bool
  globalHash : String
deriving DecidableEq

/-! ## Inputs that cannot be read -/

namespace ZoneInput

/-- `zone_id`. -/
def zoneId : ZoneInput F → String
  | readable inp => inp.zoneId
  | unreadable zoneId _ _ _ _ _ => zoneId

/-- The input, if it can be read. -/
def input? : ZoneInput F → Option (TransitionInput F)
  | readable inp => some inp
  | unreadable _ _ _ _ _ _ => none

/-- What the use of the input raises, if it cannot be read. -/
def fault? : ZoneInput F → Option PyError
  | readable _ => none
  | unreadable _ _ _ _ _ exc => some exc

end ZoneInput

namespace MultiZoneExecutor

/-- The inputs that can be read. -/
def readableInputs (l : List (String × ZoneInput F)) : List (String × TransitionInput F) :=
  l.filterMap fun p => p.2.input?.map (Prod.mk p.1)

/-- The validation loop of `execute_batch`, which looks at the ids only. -/
def validateInputs (x : MultiZoneExecutor F) (transitions : Dict String (ZoneInput F)) :
    Option PyError :=
  transitions.entries.findSome? fun p =>
    if !x.state.contains p.1 then
      some (.valueError ("Zone '" ++ p.1 ++ "' not in state vector"))
    else if p.2.zoneId ≠ p.1 then
      some (.valueError ("Input zone_id '" ++ p.2.zoneId ++ "' ≠ key '" ++ p.1 ++ "'"))
    else none

/-- What `apply` raises of an input that cannot be read: the transition functions use its
roughness rate before the engine notes anything. -/
def unreadableError (engine : DeterministicTransitionEngine F) (transitionName : String)
    (exc : PyError) : PyError :=
  if engine.transitionFns.contains transitionName then exc
  else .valueError ("Unknown transition '" ++ transitionName ++ "'. Registered: "
    ++ reprStrs engine.getRegisteredTransitions)

/-- `execute_batch`, of inputs as the hub files them.  The zones in front of the first input that
cannot be read go through the engine, and then this input raises. -/
def executeInputs (E : FloatEnv F) (transitions : Dict String (ZoneInput F))
    (transitionName : String) (x : MultiZoneExecutor F) :
    Outcome (MultiZoneExecutor F) (ZoneBatch F) :=
  match x.validateInputs transitions with
  | some exc => (x, .error exc)
  | none =>
    match transitions.sorted.entries.findSome? (·.2.fault?) with
    | none =>
      x.executeBatch E (.ofList (readableInputs transitions.entries)) transitionName
    | some fault =>
      let before := transitions.sorted.entries.takeWhile (·.2.fault?.isNone)
      match zoneLoop E x.state transitionName (readableInputs before) x.engine ⟨.empty, [], []⟩ with
      | (engine, .error exc) => ({ x with engine := engine }, .error exc)
      | (engine, .ok _) =>
        ({ x with engine := engine }, .error (unreadableError engine transitionName fault))

end MultiZoneExecutor

/-! ## Nodes -/

/-- A node with its executor and the log of its acknowledgements. -/
structure PhysicalStateNode (F : Type*) [LT F] [LE F] [OfScientific F] where
  nodeId : String
  executor : MultiZoneExecutor F
  nextExpectedCausalId : ℤ
  ackLog : List PhysicalAck

namespace PhysicalStateNode

/-- A fresh node with the built-in transitions. -/
def new [Add F] [Sub F] [Mul F] [Div F] [DecidableLT F] (E : FloatEnv F) (nodeId : String)
    (initialState : ShipStateVector F) : PhysicalStateNode F where
  nodeId := nodeId
  executor := .new initialState (.new E)
  nextExpectedCausalId := 1
  ackLog := []

/-- `committed_causal_id`. -/
def committedCausalId (n : PhysicalStateNode F) : ℤ := n.nextExpectedCausalId - 1

variable (E : FloatEnv F)

/-- An acknowledgement with the hashes of the node as it is. -/
def acknowledge (event : SequencedPhysicalEvent F) (n : PhysicalStateNode F)
    (ackType : PhysicalAckType) (error : Option String) : PhysicalAck where
  causalId := event.causalId
  proposalId := event.proposalId
  nodeId := n.nodeId
  globalStateHash := n.executor.globalHash E
  batchChainHash := n.executor.batchChainHash
  ackType := ackType
  error := error

/-- `execute_event`.  An event below the cursor is acknowledged, but neither executed nor
logged. -/
def executeEvent (event : SequencedPhysicalEvent F) (n : PhysicalStateNode F) :
    PhysicalStateNode F × PhysicalAck :=
  if event.causalId < n.nextExpectedCausalId then (n, n.acknowledge E event .applied none)
  else
    match n.executor.executeInputs E event.zoneTransitions event.transitionName with
    | (executor, result) =>
      let n' := { n with executor := executor, nextExpectedCausalId := event.causalId + 1 }
      let ack :=
        match result with
        | .ok _ => n'.acknowledge E event .applied none
        | .error exc => n'.acknowledge E event .rejected (some exc.str)
      ({ n' with ackLog := n.ackLog ++ [ack] }, ack)

end PhysicalStateNode

/-! ## The hub -/

/-- Why a hub was halted. -/
inductive PhysicalHaltReason
  | rejected (nodeId : String) (causalId : ℤ) (error : Option String)
  | rejectedHeld (nodeId : String) (causalId : ℤ)
  | divergence (causalId : ℤ) (uniqueHashes : ℕ)
deriving DecidableEq

/-- The text of a halt reason. -/
def PhysicalHaltReason.text : PhysicalHaltReason → String
  | rejected nodeId causalId error =>
      "Node " ++ nodeId ++ " REJECTED causal_id=" ++ toString causalId ++ ": " ++ error.getD "None"
  | rejectedHeld nodeId causalId =>
      "Node " ++ nodeId ++ " REJECTED held event causal_id=" ++ toString causalId
  | divergence causalId uniqueHashes =>
      "Divergence at causal_id=" ++ toString causalId ++ ": " ++ toString uniqueHashes
        ++ " unique hashes"

/-- The hub: registered nodes, sequencer state, logs and held events. -/
structure PhysicalExecutionHub (F : Type*) [LT F] [LE F] [OfScientific F] where
  nodes : List (PhysicalStateNode F)
  globalCausalId : ℤ
  eventLog : List (SequencedPhysicalEvent F)
  receipts : List (PhysicalExecutionReceipt F)
  seenProposals : Finset String
  haltOnRejection : Bool
  haltOnDivergence : Bool
  halted : Bool
  haltReason : Option PhysicalHaltReason
  /-- For each registered node id, the events held back from it. -/
  heldEvents : Dict String (List (SequencedPhysicalEvent F))

/-- The part of the hub that the delivery loop of `submit` changes, with the
acknowledgements collected so far. -/
structure PhysicalDelivery (F : Type*) [LT F] [LE F] [OfScientific F] where
  nodes : List (PhysicalStateNode F)
  acks : List PhysicalAck
  heldEvents : Dict String (List (SequencedPhysicalEvent F))
  halted : Bool
  haltReason : Option PhysicalHaltReason

namespace PhysicalExecutionHub

/-- A hub without nodes. -/
def new (haltOnRejection haltOnDivergence : Bool) : PhysicalExecutionHub F where
  nodes := []
  globalCausalId := 1
  eventLog := []
  receipts := []
  seenProposals := ∅
  haltOnRejection := haltOnRejection
  haltOnDivergence := haltOnDivergence
  halted := false
  haltReason := none
  heldEvents := .empty

/-- `register_node`. -/
def registerNode (hub : PhysicalExecutionHub F) (node : PhysicalStateNode F) :
    PhysicalExecutionHub F :=
  { hub with
    nodes := hub.nodes ++ [node]
    heldEvents := hub.heldEvents.set node.nodeId [] }

/-- `_find_node`: the position of the first node with the given id. -/
def findNode (hub : PhysicalExecutionHub F) (nodeId : String) : Option (Fin hub.nodes.length) :=
  hub.nodes.findFinIdx? fun n => n.nodeId == nodeId

section Parsing

variable [DecidableLT F] [DecidableLE F] (E : FloatEnv F)

/-- The input for a zone, with the defaults for missing rates. -/
def parseZone (zoneId : String) : ZoneData F → Except PyError (ZoneInput F)
  | .input inp => .ok inp
  | .rates corrosionRate coatingDegradationRate barnacleGrowthRate roughnessRate dt =>
    let checked := fun roughnessRate =>
      TransitionInput.new E zoneId (corrosionRate.getD 0.0) (coatingDegradationRate.getD 0.0)
        (barnacleGrowthRate.getD 0.0) roughnessRate (dt.getD 1.0)
    match roughnessRate.getD (.ok 0.0) with
    | .ok roughnessRate => (checked roughnessRate).map .readable
    -- the checks are the same for every roughness rate
    | .error exc => (checked 0.0).map fun _ =>
      .unreadable zoneId (corrosionRate.getD 0.0) (coatingDegradationRate.getD 0.0)
        (barnacleGrowthRate.getD 0.0) (dt.getD 1.0) exc
  | .illTyped exc => .error exc
  | .other => .error (.valueError ("Invalid transition data for zone '" ++ zoneId ++ "'"))

/-- The parsing loop of `submit`. -/
def parseLoop : List (String × ZoneData F) → Dict String (ZoneInput F) →
    Except PyError (Dict String (ZoneInput F))
  | [], zoneTransitions => .ok zoneTransitions
  | (zoneId, inpData) :: rest, zoneTransitions =>
    match parseZone E zoneId inpData with
    | .error exc => .error exc
    | .ok inp => parseLoop rest (zoneTransitions.set zoneId inp)

end Parsing

/-- The event that `submit` sequences. -/
def sequence (hub : PhysicalExecutionHub F) (proposal : PhysicalProposal F)
    (zoneTransitions : Dict String (ZoneInput F)) : SequencedPhysicalEvent F where
  causalId := hub.globalCausalId
  proposalId := proposal.proposalId
  clientId := proposal.clientId
  zoneTransitions := zoneTransitions
  transitionName := proposal.transitionName

variable (E : FloatEnv F)

/-- One round of the delivery loop of `submit`.  The held list exists for every registered
node, so the update of `_held_events` finds it. -/
def deliverTo (haltOnRejection : Bool) (event : SequencedPhysicalEvent F)
    (delayNodes : List String) (d : PhysicalDelivery F) (node : PhysicalStateNode F) :
    PhysicalDelivery F :=
  if node.nodeId ∈ delayNodes then
    { d with
      nodes := d.nodes ++ [node]
      heldEvents := d.heldEvents.modify node.nodeId fun held => held ++ [event] }
  else
    match node.executeEvent E event with
    | (node', ack) =>
      let d' := { d with nodes := d.nodes ++ [node'], acks := d.acks ++ [ack] }
      -- halting does not end the loop
      if ack.ackType = .rejected ∧ haltOnRejection then
        { d' with
          halted := true
          haltReason := some (.rejected node.nodeId event.causalId ack.error) }
      else d'

/-- The delivery loop of `submit`. -/
def deliver (hub : PhysicalExecutionHub F) (event : SequencedPhysicalEvent F)
    (delayNodes : List String) : PhysicalDelivery F :=
  hub.nodes.foldl (deliverTo E hub.haltOnRejection event delayNodes)
    ⟨[], [], hub.heldEvents, hub.halted, hub.haltReason⟩

/-- The different hashes among the acknowledgements of nodes that applied the event. -/
def uniqueHashes (acks : List PhysicalAck) : List String :=
  ((acks.filter (·.ok)).map (·.globalStateHash)).dedup

/-- The part of `submit` after the event was sequenced. -/
def submitEvent (hub : PhysicalExecutionHub F) (event : SequencedPhysicalEvent F)
    (delayNodes : List String) : PhysicalExecutionHub F × PhysicalExecutionReceipt F :=
  let d := hub.deliver E event delayNodes
  let consensus := decide ((uniqueHashes d.acks).length ≤ 1)
  let diverged :=
    if !consensus && hub.haltOnDivergence then
      some (PhysicalHaltReason.divergence event.causalId (uniqueHashes d.acks).length)
    else none
  let receipt : PhysicalExecutionReceipt F :=
    { event := event
      acks := d.acks
      consensus := consensus
      globalHash := (d.acks.head?.map (·.globalStateHash)).getD "" }
  ({ hub with
      nodes := d.nodes
      globalCausalId := hub.globalCausalId + 1
      eventLog := hub.eventLog ++ [event]
      receipts := hub.receipts ++ [receipt]
      halted := d.halted || diverged.isSome
      haltReason := diverged.or d.haltReason
      heldEvents := d.heldEvents }, receipt)

/-- `submit`.  The id of the proposal is taken even if the proposal does not parse. -/
def submit [DecidableLT F] [DecidableLE F] (hub : PhysicalExecutionHub F)
    (proposal : PhysicalProposal F) (delayNodes : List String) :
    Outcome (PhysicalExecutionHub F) (PhysicalExecutionReceipt F) :=
  if hub.halted then
    (hub, .error (.runtimeError ("Hub HALTED: "
      ++ (hub.haltReason.map PhysicalHaltReason.text).getD "None")))
  else if proposal.proposalId ∈ hub.seenProposals then
    (hub, .error (.valueError ("Duplicate proposal_id: " ++ proposal.proposalId
      ++ ". Each proposal must have a unique ID.")))
  else
    let seen := { hub with seenProposals := insert proposal.proposalId hub.seenProposals }
    match parseLoop E proposal.zoneTransitions.entries .empty with
    | .error exc => (seen, .error exc)
    | .ok zoneTransitions =>
      match seen.submitEvent E (hub.sequence proposal zoneTransitions) delayNodes with
      | (hub', receipt) => (hub', .ok receipt)

/-- The loop of `release_held_events`: the node afterwards, the acknowledgements, and the
event at whose rejection the loop was left, if it was. -/
def releaseLoop (haltOnRejection : Bool) : List (SequencedPhysicalEvent F) → PhysicalStateNode F →
    PhysicalStateNode F × List PhysicalAck × Option (SequencedPhysicalEvent F)
  | [], node => (node, [], none)
  | event :: held, node =>
    match node.executeEvent E event with
    | (node', ack) =>
      if ack.ackType = .rejected ∧ haltOnRejection then (node', [ack], some event)
      else
        match releaseLoop haltOnRejection held node' with
        | (node'', acks, stopped) => (node'', ack :: acks, stopped)

/-- `release_held_events`.  The held list is emptied also when the loop was left early. -/
def releaseHeldEvents (hub : PhysicalExecutionHub F) (nodeId : String) :
    Outcome (PhysicalExecutionHub F) (List PhysicalAck) :=
  if hub.halted then
    (hub, .error (.runtimeError ("Hub HALTED: "
      ++ (hub.haltReason.map PhysicalHaltReason.text).getD "None")))
  else
    match hub.findNode nodeId with
    | none => (hub, .error (.valueError ("Node " ++ nodeId ++ " not registered")))
    | some i =>
      match releaseLoop E hub.haltOnRejection ((hub.heldEvents.get? nodeId).getD [])
          hub.nodes[i] with
      | (node, acks, stopped) =>
        ({ hub with
            nodes := hub.nodes.set i node
            halted := stopped.isSome
            haltReason := (stopped.map fun e => .rejectedHeld nodeId e.causalId).or hub.haltReason
            heldEvents := hub.heldEvents.set nodeId [] }, .ok acks)

end PhysicalExecutionHub

end QuantumFoundation
