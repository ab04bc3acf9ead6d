import Mathlib.Data.List.Sort
import QuantumFoundation.Distributed.StateNode

/-!
# The propagating node

The extension of the state node in `distributed_state_propagation.py`: a node can be given
a batch of events, which it sorts by causal id and receives one by one, and it records the
events its adapter rejected in a batch.
-/

namespace QuantumFoundation

/-- The outcome of merging a batch of events. -/
structure MergeResult where
  eventsApplied : List ℤ
  eventsSkipped : List ℤ
  eventsBuffered : List ℤ
  finalStateHash : String
  success : Bool
  errorMessage : Option String
deriving DecidableEq

/-- A state node that can be given batches of events. -/
structure PropagatingStateNode (S P : Type*) extends DistributedStateNode S P where
  /-- The events rejected in a batch, with the reason. -/
  rejectedEvents : List (ExecutionEvent P × String)
  /-- The flag `_is_partial`, set by batches only. -/
  partialFlag : Bool
deriving DecidableEq

/-- `sorted(events, key=lambda e: e.causal_id)`: a stable sort. -/
def sortEvents {P : Type*} (events : List (ExecutionEvent P)) : List (ExecutionEvent P) :=
  events.insertionSort fun e f => e.causalId ≤ f.causalId

lemma mem_sortEvents {P : Type*} {events : List (ExecutionEvent P)} {e : ExecutionEvent P} :
    e ∈ sortEvents events ↔ e ∈ events := List.mem_insertionSort _

namespace PropagatingStateNode

variable {S P : Type*} (A : Adapter S P)

/-- A fresh node. -/
def new (nodeId : String) (s : S) : PropagatingStateNode S P where
  toDistributedStateNode := .new nodeId s
  rejectedEvents := []
  partialFlag := false

/-- `committed_causal_id`. -/
def committedCausalId (n : PropagatingStateNode S P) : ℤ := n.nextExpectedCausalId - 1

/-- `is_partial`. -/
def isPartial (n : PropagatingStateNode S P) : Bool := decide (0 < n.eventBuffer.size)

/-- `pending_causal_ids`. -/
def pendingCausalIds (n : PropagatingStateNode S P) : List ℤ :=
  n.eventBuffer.keys.insertionSort (· ≤ ·)

/-- The loop of `merge_event_batch` over the sorted batch, with the result collected so
far. -/
def mergeLoop : List (ExecutionEvent P) → PropagatingStateNode S P → MergeResult →
    PropagatingStateNode S P × MergeResult
  | [], n, res => (n, res)
  | event :: rest, n, res =>
    if event.causalId < n.nextExpectedCausalId then
      mergeLoop rest n { res with eventsSkipped := res.eventsSkipped ++ [event.causalId] }
    else
      match n.toDistributedStateNode.receiveEvent A event with
      | (m, some exc) =>
        ({ n with
            toDistributedStateNode := m
            rejectedEvents := n.rejectedEvents ++ [(event, exc.str)] },
          { res with
            success := false
            errorMessage :=
              some ("Event causal_id=" ++ toString event.causalId ++ " rejected: " ++ exc.str) })
      | (m, none) =>
        mergeLoop rest { n with toDistributedStateNode := m }
          (if n.nextExpectedCausalId < m.nextExpectedCausalId then
            { res with
              eventsApplied :=
                res.eventsApplied ++ Int.range n.nextExpectedCausalId m.nextExpectedCausalId }
          else { res with eventsBuffered := res.eventsBuffered ++ [event.causalId] })

/-- `merge_event_batch`. -/
def mergeEventBatch (events : List (ExecutionEvent P)) (n : PropagatingStateNode S P) :
    PropagatingStateNode S P × MergeResult :=
  match mergeLoop A (sortEvents events) n ⟨[], [], [], "", true, none⟩ with
  | (m, res) =>
    ({ m with partialFlag := decide (0 < res.eventsBuffered.length) },
      { res with finalStateHash := m.getStateHash A })

end PropagatingStateNode

end QuantumFoundation
