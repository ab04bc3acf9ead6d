import QuantumFoundation.Distributed.Reconciliation

/-!
# Runs of the distributed system

The operations that can be performed on a hub with its nodes, in any order, and what each
of them means for a single node.  However an event travels — directly, from a held list, by
replay of the log, in a batch, or repeatedly — all that reaches the state node is a
sequence of *inputs*, each of which is the reception of a log event or a `SYNC`.  The step
lemma `perform_core` reduces every operation to the inputs of each node, so that an invariant
of the system is an invariant of one node under single inputs (`Holds.perform`).
-/

namespace QuantumFoundation

variable {S P : Type*}

/-! ## Inputs of a state node -/

/-- What reaches a state node. -/
inductive NodeInput (P : Type*)
  | receive (event : ExecutionEvent P)
  | sync (causalId : ℤ)

/-- The input that the execution of a sequenced event amounts to. -/
def SequencedEvent.toInput (event : SequencedEvent P) : NodeInput P :=
  if event.stepType = "SYNC" then .sync event.causalId else .receive event.toExecutionEvent

/-- The node is within the event log. -/
abbrev WithinLog (log : List (SequencedEvent P)) (m : DistributedStateNode S P) : Prop :=
  m.Within SequencedEvent.causalId SequencedEvent.toExecutionEvent log

/-- The input stems from an event of the log. -/
def NodeInput.From (log : List (SequencedEvent P)) : NodeInput P → Prop
  | receive event => ∃ e ∈ log, event = e.toExecutionEvent
  | sync causalId => ∃ e ∈ log, e.stepType = "SYNC" ∧ e.causalId = causalId

lemma NodeInput.From.mono {log log' : List (SequencedEvent P)} {x : NodeInput P}
    (h : x.From log) (hlog : log ⊆ log') : x.From log' := by
  cases x with
  | receive event =>
    obtain ⟨e, he, hee⟩ := h
    exact ⟨e, hlog he, hee⟩
  | sync causalId =>
    obtain ⟨e, he, hee⟩ := h
    exact ⟨e, hlog he, hee⟩

lemma SequencedEvent.toInput_from {log : List (SequencedEvent P)} {event : SequencedEvent P}
    (h : event ∈ log) : event.toInput.From log := by
  rw [toInput]
  split
  · next hs => exact ⟨event, h, hs, rfl⟩
  · exact ⟨event, h, rfl⟩

namespace DistributedStateNode

variable (A : Adapter S P)

/-- The state node after an input. -/
def input (m : DistributedStateNode S P) : NodeInput P → DistributedStateNode S P
  | .receive event => (m.receiveEvent A event).1
  | .sync causalId => { m with nextExpectedCausalId := causalId + 1 }

variable {A}

lemma receiveEvent_of_lt {m : DistributedStateNode S P} {event : ExecutionEvent P}
    (h : event.causalId < m.nextExpectedCausalId) : m.receiveEvent A event = (m, none) :=
  if_pos h

end DistributedStateNode

namespace ProtocolNode

variable {A : Adapter S P}

lemma executeCore_fst (event : SequencedEvent P) (m : DistributedStateNode S P) :
    (executeCore A event m).1 = m.input A event.toInput := by
  rw [executeCore, SequencedEvent.toInput]
  split
  · rfl
  · rw [DistributedStateNode.input]
    rcases m.receiveEvent A event.toExecutionEvent with ⟨m', _ | exc⟩ <;> rfl

/-- With an adapter that never raises no event is rejected. -/
lemma executeCore_ackType (hA : A.NonRaising) (event : SequencedEvent P)
    (m : DistributedStateNode S P) : (executeCore A event m).2.1 ≠ .rejected := by
  rw [executeCore]
  split
  · simp
  · obtain ⟨hok, -⟩ := m.receiveEvent_offers hA event.toExecutionEvent
    rcases hm : m.receiveEvent A event.toExecutionEvent with ⟨m', exc⟩
    rw [hm] at hok
    cases hok
    simp only
    split <;> simp

@[simp] lemma executeSequencedEvent_core (event : SequencedEvent P) (n : ProtocolNode S P) :
    (n.executeSequencedEvent A event).1.toDistributedStateNode
      = n.toDistributedStateNode.input A event.toInput := executeCore_fst event _

lemma executeSequencedEvent_ackType (hA : A.NonRaising) (event : SequencedEvent P)
    (n : ProtocolNode S P) : (n.executeSequencedEvent A event).2.ackType ≠ .rejected :=
  executeCore_ackType hA event _

end ProtocolNode

/-! ## Loops over one node -/

section Loops

variable {A : Adapter S P}

open DistributedStateNode (input)

lemma ComputationProtocolHub.releaseLoop_core (hA : A.NonRaising) (haltOnRejection : Bool)
    (held : List (SequencedEvent P)) (n : ProtocolNode S P) :
    (releaseLoop A haltOnRejection held n).1.toDistributedStateNode
      = Run.exec (input A) n.toDistributedStateNode (held.map SequencedEvent.toInput) := by
  induction held generalizing n with
  | nil => rfl
  | cons event held ih =>
    have hack := n.executeSequencedEvent_ackType hA event
    rw [releaseLoop, List.map_cons, Run.exec_cons, ← n.executeSequencedEvent_core event]
    rcases hex : n.executeSequencedEvent A event with ⟨n', ack⟩
    rw [hex] at hack
    simp only [if_neg fun h : ack.ackType = .rejected ∧ haltOnRejection = true => hack h.1]
    exact ih n'

lemma ReconciliationEngine.replayLoop_core (hA : A.NonRaising) (es : List (ExecutionEvent P))
    (m : DistributedStateNode S P) (rec : ReplayRecord) :
    (replayLoop A es m rec).1 = Run.exec (input A) m (es.map .receive) := by
  induction es generalizing m rec with
  | nil => rfl
  | cons event es ih =>
    rw [replayLoop, List.map_cons, Run.exec_cons, input]
    split
    · next h => rw [DistributedStateNode.receiveEvent_of_lt h, ih]
    · obtain ⟨hok, -⟩ := m.receiveEvent_offers hA event
      rcases hm : m.receiveEvent A event with ⟨m', exc⟩
      rw [hm] at hok
      cases hok
      exact ih _ _

lemma PropagatingStateNode.mergeLoop_core (hA : A.NonRaising) (es : List (ExecutionEvent P))
    (n : PropagatingStateNode S P) (res : MergeResult) :
    (mergeLoop A es n res).1.toDistributedStateNode
      = Run.exec (input A) n.toDistributedStateNode (es.map .receive) := by
  induction es generalizing n res with
  | nil => rfl
  | cons event es ih =>
    rw [mergeLoop, List.map_cons, Run.exec_cons, input]
    split
    · next h => rw [DistributedStateNode.receiveEvent_of_lt h, ih]
    · obtain ⟨hok, -⟩ := n.toDistributedStateNode.receiveEvent_offers hA event
      rcases hm : n.toDistributedStateNode.receiveEvent A event with ⟨m', exc⟩
      rw [hm] at hok
      cases hok
      exact ih _ _

end Loops

/-! ## The delivery loop of the hub -/

namespace ComputationProtocolHub

variable {A : Adapter S P}

/-- A node is reached by a submission that neither excludes nor delays it. -/
def Reaches (excludeNodes delayNodes : List String) (n : ProtocolNode S P) : Prop :=
  n.nodeId ∉ excludeNodes ∧ n.nodeId ∉ delayNodes

instance (excludeNodes delayNodes : List String) (n : ProtocolNode S P) :
    Decidable (Reaches excludeNodes delayNodes n) :=
  inferInstanceAs (Decidable (_ ∧ _))

/-- A node after the delivery loop. -/
def delivered (A : Adapter S P) (event : SequencedEvent P) (excludeNodes delayNodes : List String)
    (n : ProtocolNode S P) : ProtocolNode S P :=
  if Reaches excludeNodes delayNodes n then (n.executeSequencedEvent A event).1 else n

variable (hr : Bool) (event : SequencedEvent P) (ex de : List String)

lemma deliverTo_nodes (d : Delivery S P) (n : ProtocolNode S P) :
    (deliverTo A hr event ex de d n).nodes = d.nodes ++ [delivered A event ex de n] := by
  rw [deliverTo, delivered]
  split
  · next h => rw [if_neg fun hn => hn.1 h]
  · split
    · next h => rw [if_neg fun hn => hn.2 h]
    · next h h' =>
      rw [if_pos ⟨h, h'⟩]
      rcases n.executeSequencedEvent A event with ⟨n', ack⟩
      dsimp only
      split <;> rfl

lemma deliverTo_acks (d : Delivery S P) (n : ProtocolNode S P) :
    (deliverTo A hr event ex de d n).acks = d.acks ++
      if Reaches ex de n then [(n.executeSequencedEvent A event).2] else [] := by
  rw [deliverTo]
  split
  · next h => rw [if_neg fun hn => hn.1 h, List.append_nil]
  · split
    · next h => rw [if_neg fun hn => hn.2 h, List.append_nil]
    · next h h' =>
      rw [if_pos ⟨h, h'⟩]
      rcases n.executeSequencedEvent A event with ⟨n', ack⟩
      dsimp only
      split <;> rfl

/-- The delivery loop takes every node on by itself. -/
lemma deliver_nodes (hub : ComputationProtocolHub S P) :
    (hub.deliver A event ex de).nodes = hub.nodes.map (delivered A event ex de) := by
  rw [deliver, Run.foldl_collects (fun d : Delivery S P => d.nodes)
    (fun n => [delivered A event ex de n]) (deliverTo_nodes _ event ex de), List.map_eq_flatMap]
  rfl

/-- The acknowledgements are those of the nodes that were reached, in order. -/
lemma deliver_acks (hub : ComputationProtocolHub S P) :
    (hub.deliver A event ex de).acks = (hub.nodes.filter fun n => Reaches ex de n).map
      fun n => (n.executeSequencedEvent A event).2 := by
  rw [deliver, Run.foldl_collects (fun d : Delivery S P => d.acks) _ (deliverTo_acks _ event ex de),
    List.nil_append]
  generalize hub.nodes = ns
  induction ns with
  | nil => rfl
  | cons n ns ih =>
    rw [List.flatMap_cons, ih, List.filter_cons]
    by_cases hn : Reaches ex de n <;> simp [hn]

lemma deliver_listsIn {L : List (SequencedEvent P)} (he : event ∈ L)
    {hub : ComputationProtocolHub S P} (h : hub.pendingHeld.ListsIn L) :
    (hub.deliver A event ex de).pendingHeld.ListsIn L := by
  refine List.foldlRecOn (motive := fun d : Delivery S P => d.pendingHeld.ListsIn L) hub.nodes _ h
    fun d hd n _ => ?_
  rw [deliverTo]
  split
  · exact hd
  · split
    · exact hd.modify_append n.nodeId he
    · dsimp only
      split <;> exact hd

end ComputationProtocolHub

/-! ## The operations -/

/-- An operation on a hub and its nodes.  Where the caller holds a node or an entry of the
event log, the operation gives its position. -/
inductive HubOp (P : Type*)
  | submit (proposal : ProposalMessage P) (excludeNodes delayNodes : List String)
  | releaseHeldEvents (nodeId : String)
  /-- `execute_sequenced_event`, called once more with an event of the log. -/
  | redeliver (node entry : ℕ)
  | reconcileAll
  | reconcileNode (nodeId : String)
  /-- `merge_event_batch`, called with events of the log. -/
  | mergeEventBatch (node : ℕ) (entries : List ℕ)
deriving DecidableEq

/-- The operations that hand sequenced events to the nodes one by one. -/
def HubOp.IsDelivery : HubOp P → Prop
  | submit _ _ _ | releaseHeldEvents _ | redeliver _ _ => True
  | reconcileAll | reconcileNode _ | mergeEventBatch _ _ => False

instance : DecidablePred (HubOp.IsDelivery (P := P))
  | .submit _ _ _ | .releaseHeldEvents _ | .redeliver _ _ => .isTrue trivial
  | .reconcileAll | .reconcileNode _ | .mergeEventBatch _ _ => .isFalse id

namespace ComputationProtocolHub

open ReconciliationEngine

variable (A : Adapter S P) (O : SetOrder)

/-- The events at some positions of the log, as they are handed to a state node. -/
def entriesAt (hub : ComputationProtocolHub S P) (entries : List ℕ) : List (ExecutionEvent P) :=
  entries.filterMap fun k => hub.eventLog[k]?.map SequencedEvent.toExecutionEvent

/-- The hub and its nodes after an operation. -/
def perform (hub : ComputationProtocolHub S P) : HubOp P → ComputationProtocolHub S P
  | .submit proposal excludeNodes delayNodes => (hub.submit A O proposal excludeNodes delayNodes).1
  | .releaseHeldEvents nodeId => (hub.releaseHeldEvents A nodeId).1
  | .redeliver node entry =>
    match hub.eventLog[entry]? with
    | none => hub
    | some event =>
      { hub with nodes := hub.nodes.modify node fun n => (n.executeSequencedEvent A event).1 }
  | .reconcileAll => (ReconciliationEngine.reconcileAll A hub).1
  | .reconcileNode nodeId => (ReconciliationEngine.reconcileNode A hub nodeId).1
  | .mergeEventBatch node entries =>
    { hub with nodes := hub.nodes.modify node fun n =>
        { n with toPropagatingStateNode :=
            (n.toPropagatingStateNode.mergeEventBatch A (hub.entriesAt entries)).1 } }

/-- The event that an operation appends to the log. -/
def sequenced (hub : ComputationProtocolHub S P) : HubOp P → List (SequencedEvent P)
  | .submit proposal _ _ => if hub.halted then [] else [hub.sequence proposal]
  | _ => []

/-- What reconciliation against a reference feeds a node. -/
def replayed (hub : ComputationProtocolHub S P) (ref n : ProtocolNode S P) : List (NodeInput P) :=
  if !(decide (n.committedCausalId < ref.committedCausalId) || n.isPartial) &&
      n.getStateHash A = ref.getStateHash A then []
  else (sortEvents (missingEvents hub n ref.committedCausalId)).map .receive

/-- What an operation feeds the node `n` at position `i`. -/
def inputs (hub : ComputationProtocolHub S P) (i : ℕ) (n : ProtocolNode S P) :
    HubOp P → List (NodeInput P)
  | .submit proposal ex de =>
    if ¬hub.halted ∧ Reaches ex de n then [(hub.sequence proposal).toInput] else []
  | .releaseHeldEvents nodeId =>
    if ¬hub.halted ∧ (hub.findNode nodeId).map Fin.val = some i then
      ((hub.pendingHeld.get? nodeId).getD []).map SequencedEvent.toInput
    else []
  | .redeliver node entry =>
    if node = i then hub.eventLog[entry]?.toList.map SequencedEvent.toInput else []
  | .reconcileAll =>
    match mostAdvanced hub.nodes with
    | none => []
    | some ref => if n.nodeId = ref.nodeId then [] else replayed A hub ref n
  | .reconcileNode nodeId =>
    if (hub.findNode nodeId).map Fin.val = some i then
      match mostAdvanced (hub.nodes.filter fun n => n.nodeId ≠ nodeId) with
      | none => []
      | some ref => replayed A hub ref n
    else []
  | .mergeEventBatch node entries =>
    if node = i then (sortEvents (hub.entriesAt entries)).map .receive else []

variable {A O}

lemma perform_eventLog (hub : ComputationProtocolHub S P) (op : HubOp P) :
    (perform A O hub op).eventLog = hub.eventLog ++ hub.sequenced op := by
  cases op with
  | submit proposal ex de =>
    rw [perform, submit, sequenced]
    split
    · rw [List.append_nil]
    · rfl
  | releaseHeldEvents nodeId =>
    show _ = hub.eventLog ++ []
    rw [perform, releaseHeldEvents, List.append_nil]
    split
    · rfl
    · cases hub.findNode nodeId <;> rfl
  | redeliver node entry =>
    show _ = hub.eventLog ++ []
    rw [perform, List.append_nil]
    cases hub.eventLog[entry]? <;> rfl
  | reconcileAll =>
    show _ = hub.eventLog ++ []
    rw [perform, ReconciliationEngine.reconcileAll, List.append_nil]
    cases mostAdvanced hub.nodes <;> rfl
  | reconcileNode nodeId =>
    show _ = hub.eventLog ++ []
    rw [perform, ReconciliationEngine.reconcileNode, List.append_nil]
    cases hub.findNode nodeId with
    | none => rfl
    | some i => cases hm : mostAdvanced (hub.nodes.filter fun n => n.nodeId ≠ nodeId) <;> rfl
  | mergeEventBatch node entries => exact (List.append_nil _).symm

lemma reconcileOne_core (hA : A.NonRaising) (hub : ComputationProtocolHub S P)
    (ref n : ProtocolNode S P) :
    (reconcileOne A hub n ref.committedCausalId (ref.getStateHash A)).1.toDistributedStateNode
      = Run.exec (DistributedStateNode.input A) n.toDistributedStateNode
          (replayed A hub ref n) := by
  rw [reconcileOne, replayed]
  dsimp only
  split
  · rfl
  · exact replayLoop_core hA _ _ _

/-- **Step lemma.**  An operation takes every node through the inputs it feeds that node. -/
theorem perform_core (hA : A.NonRaising) (hub : ComputationProtocolHub S P) (op : HubOp P) (i : ℕ) :
    (perform A O hub op).nodes[i]?.map (fun n => n.toDistributedStateNode)
      = hub.nodes[i]?.map fun n => Run.exec (DistributedStateNode.input A) n.toDistributedStateNode
          (inputs A hub i n op) := by
  cases op with
  | submit proposal ex de =>
    simp only [perform, submit, inputs]
    by_cases hh : hub.halted
    · simp [hh]
    · simp only [if_neg hh, deliver_nodes, List.getElem?_map, Option.map_map]
      refine Option.map_congr fun n _ => ?_
      by_cases hn : Reaches ex de n <;> simp [delivered, hn, hh]
  | releaseHeldEvents nodeId =>
    simp only [perform, releaseHeldEvents, inputs]
    by_cases hh : hub.halted
    · simp [hh]
    · simp only [if_neg hh]
      cases hf : hub.findNode nodeId with
      | none => simp
      | some j =>
        simp only [Run.map_getElem?_set]
        refine Option.map_congr fun n hn => ?_
        by_cases hi : j.val = i
        · subst hi
          obtain rfl := Run.getElem_of_mem hn
          simpa [hh] using releaseLoop_core hA _ _ _
        · simp [hi]
  | redeliver node entry =>
    simp only [perform, inputs]
    cases hub.eventLog[entry]? with
    | none => simp
    | some event =>
      simp only [Run.map_getElem?_modify]
      refine Option.map_congr fun n _ => ?_
      by_cases hi : node = i <;> simp [hi]
  | reconcileAll =>
    simp only [perform, ReconciliationEngine.reconcileAll, inputs]
    cases mostAdvanced hub.nodes with
    | none => simp
    | some ref =>
      simp only [List.getElem?_map, Option.map_map]
      refine Option.map_congr fun n _ => ?_
      by_cases hn : n.nodeId = ref.nodeId
      · simp [reconcileUnlessRef, hn]
      · simpa [reconcileUnlessRef, hn] using reconcileOne_core hA hub ref n
  | reconcileNode nodeId =>
    simp only [perform, ReconciliationEngine.reconcileNode, inputs]
    cases hf : hub.findNode nodeId with
    | none => simp
    | some j =>
      simp only
      cases mostAdvanced (hub.nodes.filter fun n => n.nodeId ≠ nodeId) with
      | none => simp
      | some ref =>
        simp only [Run.map_getElem?_set]
        refine Option.map_congr fun n hn => ?_
        by_cases hi : j.val = i
        · subst hi
          obtain rfl := Run.getElem_of_mem hn
          simpa using reconcileOne_core hA hub ref _
        · simp [hi]
  | mergeEventBatch node entries =>
    simp only [perform, inputs, Run.map_getElem?_modify]
    refine Option.map_congr fun n _ => ?_
    by_cases hi : node = i
    · rw [if_pos hi, if_pos hi]
      exact PropagatingStateNode.mergeLoop_core hA _ _ _
    · simp [hi]

/-! ## The log along a run -/

/-- What every operation keeps of the log: it carries the ids `1, 2, …` in order, the
sequencer stands behind it, and the held events are among its entries. -/
structure LogInv (hub : ComputationProtocolHub S P) : Prop where
  numbered : NumberedFrom SequencedEvent.causalId 1 hub.eventLog
  next : hub.globalCausalId = hub.eventLog.length + 1
  held : hub.pendingHeld.ListsIn hub.eventLog

lemma LogInv.new (hr hd : Bool) :
    LogInv (ComputationProtocolHub.new hr hd (S := S) (P := P)) where
  numbered := trivial
  next := rfl
  held := .empty

lemma LogInv.registerNode {hub : ComputationProtocolHub S P} (h : LogInv hub)
    (n : ProtocolNode S P) : LogInv (hub.registerNode n) :=
  ⟨h.numbered, h.next, h.held.set_nil n.nodeId⟩

/-- An operation that leaves the log and the sequencer as they are. -/
lemma LogInv.of_eq {hub hub' : ComputationProtocolHub S P} (h : LogInv hub)
    (hlog : hub'.eventLog = hub.eventLog) (hnext : hub'.globalCausalId = hub.globalCausalId)
    (hheld : hub'.pendingHeld.ListsIn hub.eventLog) : LogInv hub' := by
  refine ⟨?_, ?_, ?_⟩
  · rw [hlog]
    exact h.numbered
  · rw [hlog, hnext]
    exact h.next
  · rw [hlog]
    exact hheld

lemma LogInv.submit {hub : ComputationProtocolHub S P} (h : LogInv hub)
    (proposal : ProposalMessage P) (ex de : List String) :
    LogInv (hub.submit A O proposal ex de).1 := by
  rw [ComputationProtocolHub.submit]
  split
  · exact h
  · refine ⟨NumberedFrom.append_singleton.mpr ⟨h.numbered, ?_⟩, ?_, ?_⟩
    · rw [sequence, h.next, add_comm]
    · simp [h.next]
    · exact deliver_listsIn _ ex de (by simp) (h.held.mono (by simp))

lemma LogInv.perform {hub : ComputationProtocolHub S P} (h : LogInv hub) (op : HubOp P) :
    LogInv (perform A O hub op) := by
  cases op with
  | submit proposal ex de => exact h.submit proposal ex de
  | releaseHeldEvents nodeId =>
    rw [ComputationProtocolHub.perform, releaseHeldEvents]
    split
    · exact h
    · cases hub.findNode nodeId with
      | none => exact h
      | some i => exact h.of_eq rfl rfl (h.held.set_nil nodeId)
  | redeliver node entry =>
    rw [ComputationProtocolHub.perform]
    cases hub.eventLog[entry]? with
    | none => exact h
    | some event => exact h.of_eq rfl rfl h.held
  | reconcileAll =>
    rw [ComputationProtocolHub.perform, ReconciliationEngine.reconcileAll]
    cases mostAdvanced hub.nodes with
    | none => exact h
    | some ref => exact h.of_eq rfl rfl h.held
  | reconcileNode nodeId =>
    rw [ComputationProtocolHub.perform, ReconciliationEngine.reconcileNode]
    cases hub.findNode nodeId with
    | none => exact h
    | some i =>
      dsimp only
      cases mostAdvanced (hub.nodes.filter fun n => n.nodeId ≠ nodeId) with
      | none => exact h
      | some ref => exact h.of_eq rfl rfl h.held
  | mergeEventBatch node entries => exact h.of_eq rfl rfl h.held

/-! ### Where the inputs come from -/

lemma mem_entriesAt {hub : ComputationProtocolHub S P} {ks : List ℕ} {event : ExecutionEvent P}
    (h : event ∈ hub.entriesAt ks) : ∃ e ∈ hub.eventLog, event = e.toExecutionEvent := by
  obtain ⟨k, -, hk⟩ := List.mem_filterMap.mp h
  obtain ⟨e, he, rfl⟩ := Option.map_eq_some_iff.mp hk
  exact ⟨e, List.mem_of_getElem? he, rfl⟩

lemma mem_missingEvents {hub : ComputationProtocolHub S P} {n : ProtocolNode S P} {refCid : ℤ}
    {event : ExecutionEvent P} (h : event ∈ missingEvents hub n refCid) :
    ∃ e ∈ hub.eventLog, e.stepType ≠ "SYNC" ∧ event = e.toExecutionEvent := by
  obtain ⟨e, he, rfl⟩ := List.mem_map.mp h
  obtain ⟨he, hs⟩ := List.mem_filter.mp he
  exact ⟨e, (List.mem_filter.mp he).1, by simpa using hs, rfl⟩

lemma replayed_from {hub : ComputationProtocolHub S P} {ref n : ProtocolNode S P}
    {x : NodeInput P} (h : x ∈ replayed A hub ref n) : x.From hub.eventLog := by
  rw [replayed] at h
  split at h
  · exact absurd h (by simp)
  · obtain ⟨event, hevent, rfl⟩ := List.mem_map.mp h
    obtain ⟨e, he, -, hee⟩ := mem_missingEvents (mem_sortEvents.mp hevent)
    exact ⟨e, he, hee⟩

lemma inputs_isDelivery {hub : ComputationProtocolHub S P} (h : LogInv hub) {op : HubOp P}
    (hop : op.IsDelivery) {i : ℕ} {n : ProtocolNode S P} {x : NodeInput P}
    (hx : x ∈ inputs A hub i n op) :
    ∃ e ∈ (perform A O hub op).eventLog, x = e.toInput := by
  rw [perform_eventLog]
  cases op with
  | submit proposal ex de =>
    rw [inputs] at hx
    split at hx
    · next hh =>
      exact ⟨hub.sequence proposal, by simp [sequenced, hh.1], List.mem_singleton.mp hx⟩
    · exact absurd hx (by simp)
  | releaseHeldEvents nodeId =>
    rw [inputs] at hx
    split at hx
    · obtain ⟨e, he, rfl⟩ := List.mem_map.mp hx
      exact ⟨e, List.mem_append_left _ (h.held.mem_getD he), rfl⟩
    · exact absurd hx (by simp)
  | redeliver node entry =>
    rw [inputs] at hx
    split at hx
    · obtain ⟨e, he, rfl⟩ := List.mem_map.mp hx
      exact ⟨e, List.mem_append_left _ (List.mem_of_getElem? (Option.mem_toList.mp he)), rfl⟩
    · exact absurd hx (by simp)
  | reconcileAll => exact absurd hop id
  | reconcileNode nodeId => exact absurd hop id
  | mergeEventBatch node entries => exact absurd hop id

/-- Every input of every operation stems from an event of the log. -/
lemma inputs_from {hub : ComputationProtocolHub S P} (h : LogInv hub) {op : HubOp P} {i : ℕ}
    {n : ProtocolNode S P} {x : NodeInput P} (hx : x ∈ inputs A hub i n op) :
    x.From (perform A O hub op).eventLog := by
  by_cases hop : op.IsDelivery
  · obtain ⟨e, he, rfl⟩ := inputs_isDelivery (O := O) h hop hx
    exact SequencedEvent.toInput_from he
  · have hmono : ∀ y : NodeInput P, y.From hub.eventLog → y.From (perform A O hub op).eventLog := by
      rw [perform_eventLog]
      exact fun y hy => hy.mono (List.subset_append_left _ _)
    refine hmono x ?_
    cases op with
    | submit proposal ex de => exact absurd trivial hop
    | releaseHeldEvents nodeId => exact absurd trivial hop
    | redeliver node entry => exact absurd trivial hop
    | reconcileAll =>
      rw [inputs] at hx
      cases hm : mostAdvanced hub.nodes with
      | none => simp [hm] at hx
      | some ref =>
        simp only [hm] at hx
        split at hx
        · exact absurd hx (by simp)
        · exact replayed_from hx
    | reconcileNode nodeId =>
      rw [inputs] at hx
      split at hx
      · split at hx
        · exact absurd hx (by simp)
        · exact replayed_from hx
      · exact absurd hx (by simp)
    | mergeEventBatch node entries =>
      rw [inputs] at hx
      split at hx
      · obtain ⟨event, he, rfl⟩ := List.mem_map.mp hx
        exact mem_entriesAt (mem_sortEvents.mp he)
      · exact absurd hx (by simp)

/-! ### Invariants of the nodes -/

/-- Every input that an operation feeds a node meets `C`, a condition on the log after the
operation, the node at that moment, and the input. -/
def EachInput (A : Adapter S P) (O : SetOrder)
    (C : List (SequencedEvent P) → DistributedStateNode S P → NodeInput P → Prop)
    (hub : ComputationProtocolHub S P) (op : HubOp P) : Prop :=
  ∀ i n, hub.nodes[i]? = some n → Run.Along (DistributedStateNode.input A)
    (C (perform A O hub op).eventLog) n.toDistributedStateNode (inputs A hub i n op)

instance {A : Adapter S P} {O : SetOrder}
    {C : List (SequencedEvent P) → DistributedStateNode S P → NodeInput P → Prop}
    [∀ L m x, Decidable (C L m x)] (hub : ComputationProtocolHub S P) (op : HubOp P) :
    Decidable (EachInput A O C hub op) :=
  decidable_of_iff (∀ i : Fin hub.nodes.length, Run.Along (DistributedStateNode.input A)
    (C (perform A O hub op).eventLog) (hub.nodes.get i).toDistributedStateNode
    (inputs A hub i (hub.nodes.get i) op))
    ⟨fun h i n hn => by
      obtain ⟨hi, rfl⟩ := List.getElem?_eq_some_iff.mp hn
      exact h ⟨i, hi⟩,
    fun h i => h i _ (List.getElem?_eq_getElem i.isLt)⟩

/-- A relation `I` between the log and a node that survives the growth of the log and, along
`C`, every input. -/
structure NodeInvariant (A : Adapter S P)
    (C : List (SequencedEvent P) → DistributedStateNode S P → NodeInput P → Prop)
    (I : List (SequencedEvent P) → DistributedStateNode S P → Prop) : Prop where
  grow : ∀ L es m, NumberedFrom SequencedEvent.causalId 1 (L ++ es) → I L m → I (L ++ es) m
  input : ∀ L m x, NumberedFrom SequencedEvent.causalId 1 L → x.From L → I L m → C L m x →
    I L (m.input A x)

/-- The log is in order, and `I` holds between it and every node. -/
structure Holds (I : List (SequencedEvent P) → DistributedStateNode S P → Prop)
    (hub : ComputationProtocolHub S P) : Prop extends LogInv hub where
  node : ∀ n ∈ hub.nodes, I hub.eventLog n.toDistributedStateNode

variable {C : List (SequencedEvent P) → DistributedStateNode S P → NodeInput P → Prop}
  {I : List (SequencedEvent P) → DistributedStateNode S P → Prop}

/-- A node after an operation, and the node it was before. -/
lemma exists_node_of_perform (hA : A.NonRaising) {hub : ComputationProtocolHub S P}
    {op : HubOp P} {i : ℕ} {n' : ProtocolNode S P} (h : (perform A O hub op).nodes[i]? = some n') :
    ∃ n, hub.nodes[i]? = some n ∧ n'.toDistributedStateNode
      = Run.exec (DistributedStateNode.input A) n.toDistributedStateNode (inputs A hub i n op) := by
  have hcore := perform_core (O := O) hA hub op i
  rw [h, Option.map_some] at hcore
  obtain ⟨n, hn, hnn⟩ := Option.map_eq_some_iff.mp hcore.symm
  exact ⟨n, hn, hnn.symm⟩

/-- **Step rule.**  A node invariant is kept by every operation whose inputs meet its
condition. -/
theorem Holds.perform (hA : A.NonRaising) (hI : NodeInvariant A C I)
    {hub : ComputationProtocolHub S P} (h : Holds I hub) {op : HubOp P}
    (hC : EachInput A O C hub op) : Holds I (perform A O hub op) where
  toLogInv := h.toLogInv.perform op
  node := by
    intro n' hn'
    have hlog := h.toLogInv.perform (A := A) (O := O) op
    obtain ⟨i, hi⟩ := List.mem_iff_getElem?.mp hn'
    obtain ⟨n, hn, hnn⟩ := exists_node_of_perform hA hi
    rw [hnn]
    have hgrown : I (ComputationProtocolHub.perform A O hub op).eventLog
        n.toDistributedStateNode := by
      have hnum := hlog.numbered
      rw [perform_eventLog] at hnum ⊢
      exact hI.grow _ _ _ hnum (h.node n (List.mem_of_getElem? hn))
    -- the inputs all come from the log, so the invariant survives them one by one
    have hall := (hC i n hn).and_mem fun x hx => inputs_from (O := O) h.toLogInv hx
    exact Run.invariant (fun m x hm hx => hI.input _ m x hlog.numbered hx.1 hm hx.2) hgrown hall

/-! ### Runs -/

/-- A hub with fresh nodes, given by their ids and the states of their adapters. -/
def withNodes (haltOnRejection haltOnDivergence : Bool) (members : List (String × S)) :
    ComputationProtocolHub S P :=
  members.foldl (fun hub m => hub.registerNode (.new m.1 m.2))
    (.new haltOnRejection haltOnDivergence)

/-- Registration keeps what it keeps for one node. -/
lemma withNodes_induction {J : ComputationProtocolHub S P → Prop} {hr hd : Bool}
    {members : List (String × S)} (h₀ : J (.new hr hd))
    (hreg : ∀ hub, ∀ m ∈ members, J hub → J (hub.registerNode (.new m.1 m.2))) :
    J (withNodes hr hd members) := by
  rw [withNodes]
  induction members using List.reverseRecOn with
  | nil => exact h₀
  | append_singleton ms m ih =>
    rw [List.foldl_append]
    exact hreg _ m (by simp) (ih fun hub m hm => hreg hub m (List.mem_append_left _ hm))

@[simp] lemma withNodes_eventLog (hr hd : Bool) (members : List (String × S)) :
    (withNodes (P := P) hr hd members).eventLog = [] :=
  withNodes_induction (J := fun hub => hub.eventLog = []) rfl fun _ _ _ h => h

@[simp] lemma withNodes_nodes (hr hd : Bool) (members : List (String × S)) :
    (withNodes (P := P) hr hd members).nodes = members.map fun m => .new m.1 m.2 := by
  rw [withNodes, Run.foldl_collects (fun hub : ComputationProtocolHub S P => hub.nodes)
    (fun m => [ProtocolNode.new m.1 m.2]) (fun _ _ => rfl), List.map_eq_flatMap]
  rfl

lemma LogInv.withNodes (hr hd : Bool) (members : List (String × S)) :
    LogInv (withNodes (P := P) hr hd members) :=
  withNodes_induction (LogInv.new hr hd) fun _ _ _ h => h.registerNode _

/-- A fresh hub satisfies every relation that fresh nodes have to the empty log. -/
lemma Holds.withNodes {hr hd : Bool} {members : List (String × S)}
    (h : ∀ m ∈ members, I [] (.new m.1 m.2)) : Holds I (withNodes hr hd members) where
  toLogInv := .withNodes hr hd members
  node := by
    rw [withNodes_eventLog, withNodes_nodes]
    intro n hn
    obtain ⟨m, hm, rfl⟩ := List.mem_map.mp hn
    exact h m hm

/-- **Run rule.**  A node invariant that needs no condition holds in every state of every run. -/
theorem Holds.exec_of_forall (hA : A.NonRaising) (hI : NodeInvariant A (fun _ _ _ => True) I)
    {hub : ComputationProtocolHub S P} (h : Holds I hub) (ops : List (HubOp P)) :
    Holds I (Run.exec (ComputationProtocolHub.perform A O) hub ops) :=
  Run.invariant_of_forall
    (fun _ _ h => h.perform hA hI fun _ _ _ => Run.along_of_forall _ fun _ _ _ => trivial) h ops

end ComputationProtocolHub

/-! ### The mock system -/

/-- A proposal that adds `v` to the counter. -/
def addProposal (v : ℤ) : ProposalMessage (Option ℤ) := ⟨"p", "Node_A", "ADD", some v⟩

/-- A proposal for a `SYNC` step. -/
def syncProposal : ProposalMessage (Option ℤ) := ⟨"s", "Node_A", "SYNC", none⟩

/-- The state that a hub with two nodes `A` and `B`, with the mock adapter at zero, reaches. -/
def mockRun (ops : List (HubOp (Option ℤ))) : ComputationProtocolHub ℤ (Option ℤ) :=
  Run.exec (ComputationProtocolHub.perform (mockAdapter id) .lastInsertion)
    (ComputationProtocolHub.withNodes true true [("A", 0), ("B", 0)]) ops

end QuantumFoundation
