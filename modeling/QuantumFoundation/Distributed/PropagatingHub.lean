import QuantumFoundation.Distributed.Propagation

/-!
# The propagating hub

The hub of `distributed_state_propagation.py`: it numbers the events it is given and hands
each of them to every node that is neither excluded nor delayed.  An exception of a node
leaves the hub in the middle of its loop.

All the hub uses of a node is its id and its receive path, so it is modelled over an
arbitrary `Receiver`.  This allows to put a record of the events handed to it beside every
node; `erase_broadcast` and `erase_releaseHeldEvents` say that the record changes nothing.
-/

namespace QuantumFoundation

/-- What a hub uses of its nodes. -/
structure Receiver (N P : Type*) where
  nodeId : N → String
  receiveEvent : ExecutionEvent P → N → N × Option PyError

namespace Receiver

variable {N P : Type*} (R : Receiver N P)

/-- The receiver that keeps a record of the events handed to it. -/
def recorded : Receiver (N × List (ExecutionEvent P)) P where
  nodeId n := R.nodeId n.1
  receiveEvent event n :=
    (((R.receiveEvent event n.1).1, n.2 ++ [event]), (R.receiveEvent event n.1).2)

end Receiver

/-- Propagating nodes as receivers. -/
def propagatingReceiver {S P : Type*} (A : Adapter S P) :
    Receiver (PropagatingStateNode S P) P where
  nodeId n := n.nodeId
  receiveEvent event n :=
    ({ n with toDistributedStateNode := (n.toDistributedStateNode.receiveEvent A event).1 },
      (n.toDistributedStateNode.receiveEvent A event).2)

/-- The hub: registered nodes, sequencer state, log and held events. -/
structure PropagatingHub (N P : Type*) where
  nodes : List N
  globalCausalId : ℤ
  eventLog : List (ExecutionEvent P)
  /-- For each registered node id, the events held back from it. -/
  heldEvents : Dict String (List (ExecutionEvent P))

namespace PropagatingHub

variable {N P : Type*}

/-- A hub without nodes. -/
def new : PropagatingHub N P where
  nodes := []
  globalCausalId := 1
  eventLog := []
  heldEvents := .empty

variable (R : Receiver N P)

/-- `register_node`. -/
def registerNode (hub : PropagatingHub N P) (node : N) : PropagatingHub N P :=
  { hub with
    nodes := hub.nodes ++ [node]
    heldEvents := hub.heldEvents.set (R.nodeId node) [] }

/-- `_find_node`: the position of the first node with the given id. -/
def findNode (hub : PropagatingHub N P) (nodeId : String) : Option (Fin hub.nodes.length) :=
  hub.nodes.findFinIdx? fun n => R.nodeId n == nodeId

/-- The delivery loop of `broadcast`: the nodes and the held events afterwards, and the
exception that left the loop. -/
def broadcastLoop (event : ExecutionEvent P) (excludeNodes delayNodes : List String) :
    List N → Dict String (List (ExecutionEvent P)) →
      List N × Dict String (List (ExecutionEvent P)) × Option PyError
  | [], held => ([], held, none)
  | node :: nodes, held =>
    if R.nodeId node ∈ excludeNodes then
      match broadcastLoop event excludeNodes delayNodes nodes held with
      | (nodes', out) => (node :: nodes', out)
    else if R.nodeId node ∈ delayNodes then
      match broadcastLoop event excludeNodes delayNodes nodes
          (held.modify (R.nodeId node) fun l => l ++ [event]) with
      | (nodes', out) => (node :: nodes', out)
    else
      match R.receiveEvent event node with
      -- the exception is not caught, so the nodes behind this one are not reached
      | (node', some exc) => (node' :: nodes, held, some exc)
      | (node', none) =>
        match broadcastLoop event excludeNodes delayNodes nodes held with
        | (nodes', out) => (node' :: nodes', out)

/-- The event that `broadcast` sequences. -/
def sequence (hub : PropagatingHub N P) (rawEvent : ExecutionEvent P) : ExecutionEvent P where
  causalId := hub.globalCausalId
  originNodeId := rawEvent.originNodeId
  eventType := rawEvent.eventType
  payload := rawEvent.payload

/-- `broadcast`. -/
def broadcast (hub : PropagatingHub N P) (rawEvent : ExecutionEvent P)
    (excludeNodes delayNodes : List String) :
    Outcome (PropagatingHub N P) (ExecutionEvent P) :=
  let sequenced := hub.sequence rawEvent
  match broadcastLoop R sequenced excludeNodes delayNodes hub.nodes hub.heldEvents with
  | (nodes, held, exc) =>
    ({ nodes := nodes
       globalCausalId := hub.globalCausalId + 1
       eventLog := hub.eventLog ++ [sequenced]
       heldEvents := held },
      match exc with
      | some exc => .error exc
      | none => .ok sequenced)

/-- The loop of `release_held_events`: the node afterwards, and the exception that left the
loop. -/
def releaseLoop : List (ExecutionEvent P) → N → N × Option PyError
  | [], node => (node, none)
  | event :: held, node =>
    match R.receiveEvent event node with
    | (node', some exc) => (node', some exc)
    | (node', none) => releaseLoop held node'

/-- `release_held_events`.  The held list is emptied also for an unknown node, but not when a
node raises. -/
def releaseHeldEvents (hub : PropagatingHub N P) (nodeId : String) :
    Outcome (PropagatingHub N P) (List (ExecutionEvent P)) :=
  let held := (hub.heldEvents.get? nodeId).getD []
  match hub.findNode R nodeId with
  | none => ({ hub with heldEvents := hub.heldEvents.set nodeId [] }, .ok held)
  | some i =>
    match releaseLoop R held hub.nodes[i] with
    | (node, some exc) => ({ hub with nodes := hub.nodes.set i node }, .error exc)
    | (node, none) =>
      ({ hub with
          nodes := hub.nodes.set i node
          heldEvents := hub.heldEvents.set nodeId [] }, .ok held)

/-- `get_event_slice`.  Only a missing upper end stands for the last id. -/
def getEventSlice (hub : PropagatingHub N P) (fromCausalId : ℤ) (toCausalId : Option ℤ) :
    List (ExecutionEvent P) :=
  let toCausalId := toCausalId.getD ((hub.eventLog.getLast?.map (·.causalId)).getD 0)
  hub.eventLog.filter fun e => fromCausalId ≤ e.causalId ∧ e.causalId ≤ toCausalId

/-! ### The record changes nothing -/

section Erase

variable {R}

/-- The hub without the records beside its nodes. -/
def erase (hub : PropagatingHub (N × List (ExecutionEvent P)) P) : PropagatingHub N P :=
  { hub with nodes := hub.nodes.map Prod.fst }

lemma erase_broadcastLoop (event : ExecutionEvent P) (ex de : List String)
    (nodes : List (N × List (ExecutionEvent P))) (held : Dict String (List (ExecutionEvent P))) :
    broadcastLoop R event ex de (nodes.map Prod.fst) held =
      ((broadcastLoop R.recorded event ex de nodes held).1.map Prod.fst,
        (broadcastLoop R.recorded event ex de nodes held).2) := by
  induction nodes generalizing held with
  | nil => rfl
  | cons node nodes ih =>
    have hid : R.recorded.nodeId node = R.nodeId node.1 := rfl
    have hrec : R.recorded.receiveEvent event node = (((R.receiveEvent event node.1).1,
      node.2 ++ [event]), (R.receiveEvent event node.1).2) := rfl
    rw [List.map_cons, broadcastLoop, broadcastLoop, hid, hrec]
    split
    · rw [ih]
      rfl
    · split
      · rw [ih]
        rfl
      · rcases R.receiveEvent event node.1 with ⟨node', _ | exc⟩
        · simp only [ih]
          rfl
        · rfl

lemma erase_broadcast (hub : PropagatingHub (N × List (ExecutionEvent P)) P)
    (rawEvent : ExecutionEvent P) (ex de : List String) :
    hub.erase.broadcast R rawEvent ex de =
      ((hub.broadcast R.recorded rawEvent ex de).1.erase,
        (hub.broadcast R.recorded rawEvent ex de).2) := by
  have hloop := erase_broadcastLoop (R := R) (hub.sequence rawEvent) ex de hub.nodes hub.heldEvents
  have hseq : hub.erase.sequence rawEvent = hub.sequence rawEvent := rfl
  rw [broadcast, broadcast, hseq]
  dsimp only [erase]
  rw [hloop]

lemma erase_releaseLoop (held : List (ExecutionEvent P)) (node : N × List (ExecutionEvent P)) :
    releaseLoop R held node.1 =
      ((releaseLoop R.recorded held node).1.1, (releaseLoop R.recorded held node).2) := by
  induction held generalizing node with
  | nil => rfl
  | cons event held ih =>
    have hrec : R.recorded.receiveEvent event node = (((R.receiveEvent event node.1).1,
      node.2 ++ [event]), (R.receiveEvent event node.1).2) := rfl
    rw [releaseLoop, releaseLoop, hrec]
    rcases R.receiveEvent event node.1 with ⟨node', _ | exc⟩
    · exact ih (node', node.2 ++ [event])
    · rfl

lemma erase_findNode (hub : PropagatingHub (N × List (ExecutionEvent P)) P) (nodeId : String) :
    (hub.erase.findNode R nodeId).map Fin.val = (hub.findNode R.recorded nodeId).map Fin.val := by
  rw [findNode, findNode, ← List.findIdx?_eq_map_findFinIdx?_val,
    ← List.findIdx?_eq_map_findFinIdx?_val]
  exact List.findIdx?_map ..

lemma erase_releaseHeldEvents (hub : PropagatingHub (N × List (ExecutionEvent P)) P)
    (nodeId : String) :
    hub.erase.releaseHeldEvents R nodeId =
      ((hub.releaseHeldEvents R.recorded nodeId).1.erase,
        (hub.releaseHeldEvents R.recorded nodeId).2) := by
  have hfind := erase_findNode (R := R) hub nodeId
  have hheld : hub.erase.heldEvents = hub.heldEvents := rfl
  rw [releaseHeldEvents, releaseHeldEvents, hheld]
  cases hi : hub.findNode R.recorded nodeId with
  | none =>
    rw [hi, Option.map_none, Option.map_eq_none_iff] at hfind
    rw [hfind]
    rfl
  | some i =>
    rw [hi, Option.map_some, Option.map_eq_some_iff] at hfind
    obtain ⟨j, hj, hji⟩ := hfind
    have hnode : hub.erase.nodes[j] = hub.nodes[i].1 := by
      rw [Fin.getElem_fin, Fin.getElem_fin]
      simp [erase, hji]
    rw [hj]
    dsimp only
    rw [hnode, erase_releaseLoop]
    rcases releaseLoop R.recorded ((hub.heldEvents.get? nodeId).getD []) hub.nodes[i] with
      ⟨node, _ | exc⟩
    · simp [erase, List.map_set, hji]
    · simp [erase, List.map_set, hji]

end Erase

end PropagatingHub

end QuantumFoundation
