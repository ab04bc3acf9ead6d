import QuantumFoundation.Distributed.Interruption
import QuantumFoundation.Distributed.System

/-!
# What an acknowledgement says

A node acknowledges a sequenced event as applied when its cursor has moved, as buffered when
it has not, and as rejected when an exception was raised.  This is the fate of the event
itself except where the two part: an event behind the cursor is committed and yet reported
as buffered, and an exception on a later event of the same cascade makes a node report as
rejected what it has committed (`truthful_iff`).
-/

namespace QuantumFoundation

namespace ProtocolNode

variable {S P : Type*} {A : Adapter S P}

/-- The acknowledgement `ackType` of the event with the given id describes what has become
of that event on the node. -/
structure Truthful (causalId : ℤ) (n : ProtocolNode S P) (ackType : AckType) : Prop where
  applied_iff : ackType = .applied ↔ causalId ≤ n.committedCausalId
  buffered_iff : ackType = .buffered ↔ causalId ∈ n.eventBuffer.keys
  rejected_iff : ackType = .rejected ↔
    ¬causalId ≤ n.committedCausalId ∧ causalId ∉ n.eventBuffer.keys

lemma truthful_iff_and {causalId : ℤ} {n : ProtocolNode S P} {ackType : AckType} :
    Truthful causalId n ackType ↔
      (ackType = .applied ↔ causalId ≤ n.committedCausalId) ∧
      (ackType = .buffered ↔ causalId ∈ n.eventBuffer.keys) ∧
      (ackType = .rejected ↔ ¬causalId ≤ n.committedCausalId ∧ causalId ∉ n.eventBuffer.keys) :=
  ⟨fun h => ⟨h.1, h.2, h.3⟩, fun h => ⟨h.1, h.2.1, h.2.2⟩⟩

instance (causalId : ℤ) (n : ProtocolNode S P) (ackType : AckType) :
    Decidable (Truthful causalId n ackType) :=
  decidable_of_iff' _ truthful_iff_and

/-- Which of the three acknowledgements a node gives. -/
lemma executeCore_ackType_eq {event : SequencedEvent P} (hs : event.stepType ≠ "SYNC")
    (m : DistributedStateNode S P) :
    (executeCore A event m).2.1 =
      if ¬A.Applies m.adapterState (m.dueWith event.toExecutionEvent) then .rejected
      else if m.dueWith event.toExecutionEvent = [] then .buffered
      else .applied := by
  have hcur := m.receiveEvent_cursor (A := A) event.toExecutionEvent
  have hnone := m.receiveEvent_none_iff (A := A) event.toExecutionEvent
  rw [executeCore, if_neg hs]
  rcases hm : m.receiveEvent A event.toExecutionEvent with ⟨m', _ | exc⟩
  · rw [hm] at hcur hnone
    have happ : A.Applies m.adapterState (m.dueWith event.toExecutionEvent) := hnone.mp rfl
    rw [if_neg (not_not.mpr happ)]
    -- without an exception the cursor has moved by the number of events that were due
    have hmoved : m.nextExpectedCausalId < m'.nextExpectedCausalId
        ↔ m.dueWith event.toExecutionEvent ≠ [] := by
      rw [hcur, happ, ← List.length_pos_iff]
      omega
    by_cases hdue : m.dueWith event.toExecutionEvent = []
    · simp [hmoved, hdue]
    · simp [hmoved, hdue]
  · rw [hm] at hnone
    rw [if_pos fun happ => by simpa using hnone.mpr happ]

/-- A rejection is an exception of the reception. -/
lemma ackType_rejected_iff {event : SequencedEvent P} (hs : event.stepType ≠ "SYNC")
    (n : ProtocolNode S P) : (n.executeSequencedEvent A event).2.ackType = .rejected ↔
      (n.receiveEvent A event.toExecutionEvent).2 ≠ none := by
  have hack : (n.executeSequencedEvent A event).2.ackType
      = (executeCore A event n.toDistributedStateNode).2.1 := rfl
  rw [hack, executeCore_ackType_eq hs, ne_eq, n.receiveEvent_none_iff]
  by_cases happ : A.Applies n.adapterState (n.dueWith event.toExecutionEvent)
  · rw [if_neg (not_not.mpr happ)]
    split <;> simp [happ]
  · simp [happ]

/-- The event is not behind the cursor, and either it stays in the buffer because nothing is
due, or it is among the events that are due and the adapter takes all of these, or it is the
first of them that the adapter refuses. -/
def AckFits (A : Adapter S P) (event : SequencedEvent P) (m : DistributedStateNode S P) : Prop :=
  m.nextExpectedCausalId ≤ event.causalId ∧
    (m.dueWith event.toExecutionEvent = [] ∨
      A.Applies m.adapterState (m.dueWith event.toExecutionEvent) ∧ event.causalId
        < m.nextExpectedCausalId + (m.dueWith event.toExecutionEvent).length ∨
      ¬A.Applies m.adapterState (m.dueWith event.toExecutionEvent) ∧ event.causalId
        = m.nextExpectedCausalId + A.appliedCount m.adapterState (m.dueWith event.toExecutionEvent))

instance (event : SequencedEvent P) (m : DistributedStateNode S P) :
    Decidable (AckFits A event m) :=
  inferInstanceAs (Decidable (_ ∧ (_ ∨ _ ∧ _ ∨ ¬_ ∧ _)))

/-- **When the acknowledgement is right.**  For every state of a node and every event that is
not a `SYNC`, the acknowledgement describes the fate of the event exactly under `AckFits`. -/
theorem truthful_iff (A : Adapter S P) (n : ProtocolNode S P) (event : SequencedEvent P)
    (hs : event.stepType ≠ "SYNC") :
    Truthful event.causalId (n.executeSequencedEvent A event).1
        (n.executeSequencedEvent A event).2.ackType
      ↔ AckFits A event n.toDistributedStateNode := by
  have hack : (n.executeSequencedEvent A event).2.ackType
      = (executeCore A event n.toDistributedStateNode).2.1 := rfl
  have hnode : (n.executeSequencedEvent A event).1.toDistributedStateNode
      = (n.receiveEvent A event.toExecutionEvent).1 := by
    rw [executeSequencedEvent_core, SequencedEvent.toInput, if_neg hs]
    rfl
  have hcom : event.causalId ≤ (n.executeSequencedEvent A event).1.committedCausalId ↔
      event.causalId < n.nextExpectedCausalId
        + A.appliedCount n.adapterState (n.dueWith event.toExecutionEvent) := by
    rw [PropagatingStateNode.committedCausalId, hnode, n.receiveEvent_cursor, Int.le_sub_one_iff]
  rw [truthful_iff_and, hcom, hnode, hack, executeCore_ackType_eq hs, AckFits]
  by_cases hlt : event.causalId < n.nextExpectedCausalId
  · -- an old event is committed, and reported as buffered
    have hdue : n.dueWith event.toExecutionEvent = [] := DistributedStateNode.dueWith_late hlt
    have happ : A.Applies n.adapterState [] := rfl
    refine iff_of_false (fun h => ?_) fun h => absurd hlt (not_lt.mpr h.1)
    have := h.1.mpr (by omega)
    simp [hdue, happ] at this
  · have hahead : n.nextExpectedCausalId ≤ event.toExecutionEvent.causalId := not_lt.mp hlt
    have hpend := DistributedStateNode.mem_keys_receiveEvent (A := A) hahead
    rw [SequencedEvent.toExecutionEvent_causalId] at hpend
    have hle := Adapter.appliedCount_le (A := A) n.adapterState
      (n.dueWith event.toExecutionEvent)
    rw [hpend, and_iff_right (not_lt.mp hlt)]
    generalize n.dueWith event.toExecutionEvent = due at hle ⊢
    by_cases hdue : due = []
    · -- nothing is due, so the event waits
      subst hdue
      have happ : A.Applies n.adapterState [] := rfl
      have hcount : A.appliedCount n.adapterState [] = 0 := rfl
      simpa [happ, hcount] using hlt
    · have hlen := List.length_pos_iff.mpr hdue
      by_cases happ : A.Applies n.adapterState due
      · -- the cascade ran to its end, so the node reports the event as applied
        have hcount : A.appliedCount n.adapterState due = due.length := happ
        simp only [happ, not_true_eq_false, if_false, hcount, hdue, true_and, false_and,
          false_or, or_false, true_iff, reduceCtorEq, false_iff]
        omega
      · -- the cascade was broken off, so the node reports the event as rejected
        have hcount : A.appliedCount n.adapterState due < due.length := lt_of_le_of_ne hle happ
        simp only [happ, not_false_eq_true, if_true, hdue, false_and, true_and, false_or, true_iff,
          reduceCtorEq, false_iff]
        omega

/-- A step that adds `v` to the counter, or that carries no entry `add`. -/
def addStep (causalId : ℤ) (v : Option ℤ) : SequencedEvent (Option ℤ) :=
  ⟨causalId, "p", "Node_A", "ADD", v⟩

/-- A node that is given the steps one after the other. -/
def stepped (steps : List (SequencedEvent (Option ℤ))) : ProtocolNode ℤ (Option ℤ) :=
  Run.exec (fun n event => (n.executeSequencedEvent strictAdapter event).1) (.new "Node_B" 0) steps

/-- A node that holds step `2` and is given step `1` acknowledges it as applied, rightly. -/
theorem truthful_addStep :
    Truthful 1 ((stepped [addStep 2 (some 20)]).executeSequencedEvent strictAdapter
        (addStep 1 (some 10))).1
      ((stepped [addStep 2 (some 20)]).executeSequencedEvent strictAdapter
        (addStep 1 (some 10))).2.ackType :=
  (truthful_iff strictAdapter (stepped [addStep 2 (some 20)]) (addStep 1 (some 10))
    (by decide)).mpr (by decide)

/-- A step that is delivered twice is reported as buffered the second time, although it is
committed; and step `1` is reported as rejected, although it is committed, if step `2` that
waited for it is refused. -/
theorem not_truthful :
    ¬Truthful 1 ((stepped [addStep 1 (some 10)]).executeSequencedEvent strictAdapter
          (addStep 1 (some 10))).1
        ((stepped [addStep 1 (some 10)]).executeSequencedEvent strictAdapter
          (addStep 1 (some 10))).2.ackType ∧
      ¬Truthful 1 ((stepped [addStep 2 none]).executeSequencedEvent strictAdapter
          (addStep 1 (some 10))).1
        ((stepped [addStep 2 none]).executeSequencedEvent strictAdapter
          (addStep 1 (some 10))).2.ackType := by
  decide

end ProtocolNode

end QuantumFoundation
