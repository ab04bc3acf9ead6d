import QuantumFoundation.Distributed.Protocol

/-!
# The reconciliation engine

The engine of `reconciliation_engine.py`: it takes the most advanced node as reference,
fetches from the hub's log the events a lagging node has not committed up to the
reference's position, drops the `SYNC` events among them, and replays the rest through the
node's ordinary reception.  The engine's own list of past reports is left out.
-/

namespace QuantumFoundation

/-- The result of reconciling one node. -/
structure NodeReconciliationResult where
  nodeId : String
  wasLagging : Bool
  eventsReplayed : List ℤ
  eventsAlreadyCommitted : List ℤ
  eventsBuffered : List ℤ
  preHash : String
  postHash : String
  expectedHash : String
  converged : Bool
  error : Option String
deriving DecidableEq

/-- The report of one pass over all nodes. -/
structure ReconciliationReport where
  reconciledNodes : List NodeReconciliationResult
  referenceNode : String
  referenceHash : String
  referenceCausalId : ℤ
  fullConsensusReached : Bool
  hashMatches : Dict String Bool
deriving DecidableEq

/-- What the replay loop has recorded so far. -/
structure ReplayRecord where
  applied : List ℤ
  skipped : List ℤ
  buffered : List ℤ
  errorMsg : Option String

namespace ReconciliationEngine

variable {S P : Type*} (A : Adapter S P)

/-- The replay loop of `_reconcile_node`. -/
def replayLoop : List (ExecutionEvent P) → DistributedStateNode S P → ReplayRecord →
    DistributedStateNode S P × ReplayRecord
  | [], n, rec => (n, rec)
  | event :: rest, n, rec =>
    if event.causalId < n.nextExpectedCausalId then
      replayLoop rest n { rec with skipped := rec.skipped ++ [event.causalId] }
    else
      match n.receiveEvent A event with
      | (m, some exc) =>
        (m, { rec with
          errorMsg := some ("Event causal_id=" ++ toString event.causalId
            ++ " rejected during reconciliation: " ++ exc.str) })
      | (m, none) =>
        replayLoop rest m
          (if n.nextExpectedCausalId < m.nextExpectedCausalId then
            { rec with
              applied := rec.applied ++ Int.range n.nextExpectedCausalId m.nextExpectedCausalId }
          else { rec with buffered := rec.buffered ++ [event.causalId] })

/-- The events that are replayed to a node: the log from its first uncommitted id to the
reference's id, without the `SYNC` events. -/
def missingEvents (hub : ComputationProtocolHub S P) (node : ProtocolNode S P) (refCid : ℤ) :
    List (ExecutionEvent P) :=
  ((hub.getEventSlice (node.committedCausalId + 1) (some refCid)).filter
    fun se => se.stepType ≠ "SYNC").map SequencedEvent.toExecutionEvent

/-- `_reconcile_node`. -/
def reconcileOne (hub : ComputationProtocolHub S P) (node : ProtocolNode S P) (refCid : ℤ)
    (refHash : String) : ProtocolNode S P × NodeReconciliationResult :=
  let preHash := node.getStateHash A
  let wasLagging := decide (node.committedCausalId < refCid) || node.isPartial
  if !wasLagging && preHash = refHash then
    (node,
      { nodeId := node.nodeId
        wasLagging := false
        eventsReplayed := []
        eventsAlreadyCommitted := []
        eventsBuffered := []
        preHash := preHash
        postHash := preHash
        expectedHash := refHash
        converged := true
        error := none })
  else
    match replayLoop A (sortEvents (missingEvents hub node refCid)) node.toDistributedStateNode
      ⟨[], [], [], none⟩ with
    | (m, rec) =>
      let node' := node.withStateNode m
      let postHash := node'.getStateHash A
      (node',
        { nodeId := node.nodeId
          wasLagging := wasLagging
          eventsReplayed := rec.applied
          eventsAlreadyCommitted := rec.skipped
          eventsBuffered := rec.buffered
          preHash := preHash
          postHash := postHash
          expectedHash := refHash
          converged := decide (postHash = refHash) && decide (node'.committedCausalId = refCid)
          error := rec.errorMsg })

/-- `max(nodes, key=lambda n: n.committed_causal_id)`: the first of the most advanced nodes. -/
def mostAdvanced (nodes : List (ProtocolNode S P)) : Option (ProtocolNode S P) :=
  maxKey (fun n => n.committedCausalId) nodes

/-- One round of the loop of `reconcile_all`: the node afterwards, and its result unless it
carries the id of the reference. -/
def reconcileUnlessRef (hub : ComputationProtocolHub S P) (ref node : ProtocolNode S P) :
    ProtocolNode S P × Option NodeReconciliationResult :=
  if node.nodeId = ref.nodeId then (node, none)
  else
    match reconcileOne A hub node ref.committedCausalId (ref.getStateHash A) with
    | (node', result) => (node', some result)

/-- `reconcile_all`. -/
def reconcileAll (hub : ComputationProtocolHub S P) :
    Outcome (ComputationProtocolHub S P) ReconciliationReport :=
  match mostAdvanced hub.nodes with
  | none => (hub, .error (.valueError "max() iterable argument is empty"))
  | some ref =>
    let refHash := ref.getStateHash A
    let refCid := ref.committedCausalId
    let rounds := hub.nodes.map (reconcileUnlessRef A hub ref)
    let nodes := rounds.map Prod.fst
    let results := rounds.filterMap Prod.snd
    let allHashes := Dict.ofList (nodes.map fun n => (n.nodeId, n.getStateHash A))
    ({ hub with nodes := nodes }, .ok
      { reconciledNodes := results
        referenceNode := ref.nodeId
        referenceHash := refHash
        referenceCausalId := refCid
        fullConsensusReached := decide (allHashes.values.dedup.length = 1) &&
          nodes.all fun n => n.committedCausalId = refCid
        hashMatches := Dict.ofList (results.map fun r => (r.nodeId, r.converged)) })

/-- `reconcile_node`. -/
def reconcileNode (hub : ComputationProtocolHub S P) (nodeId : String) :
    Outcome (ComputationProtocolHub S P) NodeReconciliationResult :=
  match hub.findNode nodeId with
  | none => (hub, .error (.valueError ("Node " ++ nodeId ++ " not registered in hub")))
  | some i =>
    match mostAdvanced (hub.nodes.filter fun n => n.nodeId ≠ nodeId) with
    | none => (hub, .error (.valueError "max() iterable argument is empty"))
    | some ref =>
      match reconcileOne A hub (hub.nodes.get i) ref.committedCausalId (ref.getStateHash A) with
      | (node, result) => ({ hub with nodes := hub.nodes.set i node }, .ok result)

end ReconciliationEngine

end QuantumFoundation
