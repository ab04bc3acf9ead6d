import QuantumFoundation.Lib.NumberedLog
import QuantumFoundation.Lib.Run
import QuantumFoundation.Physical.Hub

/-!
# The physical system

What the hub's operations do to the nodes: each operation hands every node a list of events,
which the node executes one after the other (`perform_getElem?`), and hands it nothing that is
not in the event log (`mem_log_of_mem_deliveries`).
-/

namespace QuantumFoundation

variable {F : Type*} [LT F] [LE F] [OfScientific F]

/-! ## What an event does to a node -/

namespace PhysicalStateNode

/-- A node after an event, as a step of a run. -/
def receive (E : FloatEnv F) (n : PhysicalStateNode F) (event : SequencedPhysicalEvent F) :
    PhysicalStateNode F := (n.executeEvent E event).1

variable {E : FloatEnv F} {event : SequencedPhysicalEvent F} {n : PhysicalStateNode F}

lemma executeEvent_of_lt (h : event.causalId < n.nextExpectedCausalId) :
    n.executeEvent E event = (n, n.acknowledge E event .applied none) := by
  rw [executeEvent, if_pos h]

/-- An event that is not below the cursor is executed: the node takes the executor as the batch
leaves it, moves its cursor behind the event, and logs the acknowledgement, which tells whether
the batch went through. -/
lemma executeEvent_of_le (h : n.nextExpectedCausalId ≤ event.causalId) :
    ∃ ack, n.executeEvent E event
        = ({ n with
              executor := (n.executor.executeInputs E event.zoneTransitions event.transitionName).1
              nextExpectedCausalId := event.causalId + 1
              ackLog := n.ackLog ++ [ack] }, ack) ∧
      ack.causalId = event.causalId ∧ ((∃ batch, ack.ackType = .applied ∧
        (n.executor.executeInputs E event.zoneTransitions event.transitionName).2 = .ok batch) ∨
      ∃ exc, ack.ackType = .rejected ∧
        (n.executor.executeInputs E event.zoneTransitions event.transitionName).2
          = .error exc) := by
  rw [executeEvent, if_neg (not_lt.mpr h)]
  rcases n.executor.executeInputs E event.zoneTransitions event.transitionName with
    ⟨x, exc | batch⟩
  · exact ⟨_, rfl, rfl, Or.inr ⟨exc, rfl, rfl⟩⟩
  · exact ⟨_, rfl, rfl, Or.inl ⟨batch, rfl, rfl⟩⟩

/-- The acknowledgement carries the hash of the node as the event leaves it. -/
lemma executeEvent_globalStateHash : (n.executeEvent E event).2.globalStateHash
    = (n.executeEvent E event).1.executor.globalHash E := by
  rw [executeEvent]
  split
  · rfl
  · rcases n.executor.executeInputs E event.zoneTransitions event.transitionName with
      ⟨x, exc | batch⟩
    · rfl
    · rfl

end PhysicalStateNode

namespace PhysicalExecutionHub

open PhysicalStateNode

variable {E : FloatEnv F}

/-! ## The delivery loop -/

/-- A node after the delivery loop. -/
def delivered (E : FloatEnv F) (event : SequencedPhysicalEvent F) (delayNodes : List String)
    (n : PhysicalStateNode F) : PhysicalStateNode F :=
  if n.nodeId ∈ delayNodes then n else n.receive E event

section Deliver

variable (hub : PhysicalExecutionHub F) (event : SequencedPhysicalEvent F) (de : List String)

/-- The delivery loop takes every node on by itself. -/
lemma deliver_nodes :
    (hub.deliver E event de).nodes = hub.nodes.map (delivered E event de) := by
  have hstep : ∀ (d : PhysicalDelivery F) (n : PhysicalStateNode F),
      (deliverTo E hub.haltOnRejection event de d n).nodes
        = d.nodes ++ [delivered E event de n] := by
    intro d n
    rw [deliverTo, delivered]
    split
    · rfl
    · dsimp only
      split <;> rfl
  rw [deliver, Run.foldl_collects (fun d : PhysicalDelivery F => d.nodes) _ hstep,
    List.map_eq_flatMap]
  rfl

/-- The acknowledgements are those of the nodes that were not delayed. -/
lemma mem_deliver_acks {ack : PhysicalAck} : ack ∈ (hub.deliver E event de).acks ↔
    ∃ n ∈ hub.nodes, n.nodeId ∉ de ∧ (n.executeEvent E event).2 = ack := by
  have hstep : ∀ (d : PhysicalDelivery F) (n : PhysicalStateNode F),
      (deliverTo E hub.haltOnRejection event de d n).acks
        = d.acks ++ if n.nodeId ∈ de then [] else [(n.executeEvent E event).2] := by
    intro d n
    rw [deliverTo]
    split
    · rw [List.append_nil]
    · dsimp only
      split <;> rfl
  rw [deliver, Run.foldl_collects (fun d : PhysicalDelivery F => d.acks) _ hstep, List.nil_append,
    List.mem_flatMap]
  refine exists_congr fun n => and_congr_right fun _ => ?_
  by_cases hn : n.nodeId ∈ de
  · simp [hn]
  · simp [hn, eq_comm]

lemma deliver_listsIn {L : List (SequencedPhysicalEvent F)} (he : event ∈ L)
    (h : hub.heldEvents.ListsIn L) : (hub.deliver E event de).heldEvents.ListsIn L := by
  refine List.foldlRecOn (motive := fun d : PhysicalDelivery F => d.heldEvents.ListsIn L) hub.nodes
    _ h fun d hd n _ => ?_
  rw [deliverTo]
  split
  · exact hd.modify_append n.nodeId he
  · dsimp only
    split <;> exact hd

end Deliver

/-! ## Submissions -/

section Submit

variable [DecidableLT F] [DecidableLE F]

/-- The event that a submission sequences: none if the hub is halted, the proposal's id was
seen before, or the proposal does not parse. -/
def accepted (E : FloatEnv F) (hub : PhysicalExecutionHub F) (proposal : PhysicalProposal F) :
    Option (SequencedPhysicalEvent F) :=
  if hub.halted ∨ proposal.proposalId ∈ hub.seenProposals then none
  else (parseLoop E proposal.zoneTransitions.entries .empty).toOption.map (hub.sequence proposal)

/-- **What a submission can do.**  It raises, and at most the id of the proposal is noted; or
it sequences an event and delivers it. -/
theorem submit_cases (hub : PhysicalExecutionHub F) (proposal : PhysicalProposal F)
    (de : List String) :
    (hub.accepted E proposal = none ∧ ∃ seen exc,
      hub.submit E proposal de = ({ hub with seenProposals := seen }, .error exc)) ∨
    ∃ event seen receipt, hub.accepted E proposal = some event ∧
      event.causalId = hub.globalCausalId ∧ hub.halted = false ∧
      receipt = (({ hub with seenProposals := seen }).submitEvent E event de).2 ∧
      hub.submit E proposal de
        = ((({ hub with seenProposals := seen }).submitEvent E event de).1, .ok receipt) := by
  rw [submit, accepted]
  by_cases hh : hub.halted = true
  · rw [if_pos hh, if_pos (Or.inl hh)]
    exact Or.inl ⟨rfl, hub.seenProposals, _, rfl⟩
  · rw [if_neg hh]
    by_cases hs : proposal.proposalId ∈ hub.seenProposals
    · rw [if_pos hs, if_pos (Or.inr hs)]
      exact Or.inl ⟨rfl, hub.seenProposals, _, rfl⟩
    · rw [if_neg hs, if_neg (not_or.mpr ⟨hh, hs⟩)]
      cases parseLoop E proposal.zoneTransitions.entries .empty with
      | error exc => exact Or.inl ⟨rfl, _, exc, rfl⟩
      | ok zoneTransitions =>
        exact Or.inr ⟨_, insert proposal.proposalId hub.seenProposals, _, rfl, rfl,
          by simpa using hh, rfl, rfl⟩

end Submit

/-! ## Releases -/

/-- The held events that the loop of `release_held_events` gets to. -/
def handled (E : FloatEnv F) (haltOnRejection : Bool) :
    List (SequencedPhysicalEvent F) → PhysicalStateNode F → List (SequencedPhysicalEvent F)
  | [], _ => []
  | event :: held, n =>
    if (n.executeEvent E event).2.ackType = .rejected ∧ haltOnRejection then [event]
    else event :: handled E haltOnRejection held (n.receive E event)

/-- The loop executes the events it gets to. -/
lemma releaseLoop_fst (hr : Bool) (held : List (SequencedPhysicalEvent F))
    (n : PhysicalStateNode F) :
    (releaseLoop E hr held n).1 = Run.exec (receive E) n (handled E hr held n) := by
  induction held generalizing n with
  | nil => rfl
  | cons event held ih =>
    rcases hex : n.executeEvent E event with ⟨n', ack⟩
    have hn : n.receive E event = n' := congrArg Prod.fst hex
    rw [releaseLoop, handled, hex, hn]
    dsimp only
    split
    · rw [Run.exec_cons, hn]
      rfl
    · rw [Run.exec_cons, hn]
      exact ih n'

lemma handled_sublist (hr : Bool) (held : List (SequencedPhysicalEvent F))
    (n : PhysicalStateNode F) : (handled E hr held n).Sublist held := by
  induction held generalizing n with
  | nil => exact List.Sublist.refl []
  | cons event held ih =>
    rw [handled]
    split
    · exact (List.nil_sublist held).cons_cons event
    · exact (ih (n.receive E event)).cons_cons event

/-! ## Hubs with nodes -/

/-- What every operation keeps of the log: it carries the ids `1, 2, …` in order, the
sequencer stands behind it, and the held events are among its entries. -/
structure LogInv (hub : PhysicalExecutionHub F) : Prop where
  numbered : NumberedFrom SequencedPhysicalEvent.causalId 1 hub.eventLog
  next : hub.globalCausalId = hub.eventLog.length + 1
  held : hub.heldEvents.ListsIn hub.eventLog

/-- Registration, of whatever node. -/
lemma LogInv.registerNode {hub : PhysicalExecutionHub F} (h : LogInv hub)
    (n : PhysicalStateNode F) : LogInv (hub.registerNode n) :=
  ⟨h.numbered, h.next, h.held.set_nil n.nodeId⟩

section WithNodes

variable [Add F] [Sub F] [Mul F] [Div F] [DecidableLT F]

/-- A hub with fresh nodes, given by their ids and initial states. -/
def withNodes (E : FloatEnv F) (haltOnRejection haltOnDivergence : Bool)
    (members : List (String × ShipStateVector F)) : PhysicalExecutionHub F :=
  members.foldl (fun hub m => hub.registerNode (.new E m.1 m.2))
    (.new haltOnRejection haltOnDivergence)

/-- Registration keeps what it keeps for one node. -/
lemma withNodes_induction {J : PhysicalExecutionHub F → Prop} {hr hd : Bool}
    (members : List (String × ShipStateVector F)) (h₀ : J (.new hr hd))
    (hreg : ∀ hub n, J hub → J (hub.registerNode n)) : J (withNodes E hr hd members) :=
  List.foldlRecOn members _ h₀ fun _ h _ _ => hreg _ _ h

lemma withNodes_nodes (hr hd : Bool) (members : List (String × ShipStateVector F)) :
    (withNodes E hr hd members).nodes = members.map fun m => .new E m.1 m.2 := by
  rw [withNodes, Run.foldl_collects (fun hub : PhysicalExecutionHub F => hub.nodes)
    (fun m => [PhysicalStateNode.new E m.1 m.2]) (fun _ _ => rfl), List.map_eq_flatMap]
  rfl

lemma LogInv.withNodes (hr hd : Bool) (members : List (String × ShipStateVector F)) :
    LogInv (withNodes E hr hd members) :=
  withNodes_induction members ⟨trivial, rfl, .empty⟩
    fun _ n h => h.registerNode n

end WithNodes

end PhysicalExecutionHub

/-! ## The operations -/

/-- An operation on a hub. -/
inductive PhysicalHubOp (F : Type*) [LT F] [LE F] [OfScientific F]
  | submit (proposal : PhysicalProposal F) (delayNodes : List String)
  | releaseHeldEvents (nodeId : String)

namespace PhysicalExecutionHub

open PhysicalStateNode

variable [DecidableLT F] [DecidableLE F]

/-- The hub after an operation. -/
def perform (E : FloatEnv F) (hub : PhysicalExecutionHub F) : PhysicalHubOp F →
    PhysicalExecutionHub F
  | .submit proposal delayNodes => (hub.submit E proposal delayNodes).1
  | .releaseHeldEvents nodeId => (hub.releaseHeldEvents E nodeId).1

/-- The events that an operation hands the node `n` at position `i`. -/
def deliveries (E : FloatEnv F) (hub : PhysicalExecutionHub F) (i : ℕ) (n : PhysicalStateNode F) :
    PhysicalHubOp F → List (SequencedPhysicalEvent F)
  | .submit proposal delayNodes =>
    if n.nodeId ∈ delayNodes then [] else (hub.accepted E proposal).toList
  | .releaseHeldEvents nodeId =>
    if ¬hub.halted ∧ (hub.findNode nodeId).map Fin.val = some i then
      handled E hub.haltOnRejection ((hub.heldEvents.get? nodeId).getD []) n
    else []

variable {E : FloatEnv F}

/-- **Step lemma.**  An operation takes every node through the events it hands that node. -/
theorem perform_getElem? (hub : PhysicalExecutionHub F) (op : PhysicalHubOp F) (i : ℕ) :
    (perform E hub op).nodes[i]?
      = hub.nodes[i]?.map fun n => Run.exec (receive E) n (deliveries E hub i n op) := by
  cases op with
  | submit proposal de =>
    simp only [perform, deliveries]
    rcases submit_cases (E := E) hub proposal de with
      ⟨hnone, seen, exc, hr⟩ | ⟨event, seen, receipt, hsome, -, -, -, hr⟩
    · simp [hr, hnone]
    · rw [hr, hsome]
      show (({ hub with seenProposals := seen }).deliver E event de).nodes[i]? = _
      rw [deliver_nodes, List.getElem?_map]
      refine Option.map_congr fun n _ => ?_
      rw [delivered]
      split
      · rfl
      · rfl
  | releaseHeldEvents nodeId =>
    simp only [perform, releaseHeldEvents, deliveries]
    by_cases hh : hub.halted = true
    · simp [hh]
    · simp only [if_neg hh]
      cases hf : hub.findNode nodeId with
      | none => simp
      | some j =>
        have hset := Run.map_getElem?_set (fun n : PhysicalStateNode F => n) hub.nodes j
          (releaseLoop E hub.haltOnRejection ((hub.heldEvents.get? nodeId).getD [])
            hub.nodes[j]).1 i
        rw [Option.map_id'] at hset
        refine hset.trans (Option.map_congr fun n hn => ?_)
        by_cases hi : j.val = i
        · subst hi
          obtain rfl := Run.getElem_of_mem hn
          simpa [hh] using releaseLoop_fst _ _ _
        · simp [hi]

/-! ## The log along a run -/

/-- The event that an operation appends to the log. -/
def sequenced (E : FloatEnv F) (hub : PhysicalExecutionHub F) : PhysicalHubOp F →
    List (SequencedPhysicalEvent F)
  | .submit proposal _ => (hub.accepted E proposal).toList
  | .releaseHeldEvents _ => []

lemma perform_eventLog (hub : PhysicalExecutionHub F) (op : PhysicalHubOp F) :
    (perform E hub op).eventLog = hub.eventLog ++ hub.sequenced E op := by
  cases op with
  | submit proposal de =>
    rw [perform, sequenced]
    rcases submit_cases (E := E) hub proposal de with
      ⟨hnone, seen, exc, hr⟩ | ⟨event, seen, receipt, hsome, -, -, -, hr⟩
    · rw [hr, hnone]
      exact (List.append_nil _).symm
    · rw [hr, hsome]
      rfl
  | releaseHeldEvents nodeId =>
    rw [perform, sequenced, List.append_nil, releaseHeldEvents]
    split
    · rfl
    · cases hub.findNode nodeId <;> rfl

lemma LogInv.perform {hub : PhysicalExecutionHub F} (h : LogInv hub) (op : PhysicalHubOp F) :
    LogInv (perform E hub op) := by
  cases op with
  | submit proposal de =>
    rw [PhysicalExecutionHub.perform]
    rcases submit_cases (E := E) hub proposal de with
      ⟨-, seen, exc, hr⟩ | ⟨event, seen, receipt, -, hid, -, -, hr⟩
    · rw [hr]
      exact ⟨h.numbered, h.next, h.held⟩
    · rw [hr]
      refine ⟨NumberedFrom.append_singleton.mpr ⟨h.numbered, ?_⟩, ?_, ?_⟩
      · rw [hid, h.next, add_comm]
      · show hub.globalCausalId + 1 = ((hub.eventLog ++ [event]).length : ℤ) + 1
        rw [h.next, List.length_append, List.length_singleton, Nat.cast_add, Nat.cast_one]
      · exact deliver_listsIn _ event de (List.mem_append_right _ (List.mem_singleton_self event))
          (h.held.mono (List.subset_append_left _ _))
  | releaseHeldEvents nodeId =>
    rw [PhysicalExecutionHub.perform, releaseHeldEvents]
    split
    · exact h
    · cases hub.findNode nodeId with
      | none => exact h
      | some i => exact ⟨h.numbered, h.next, h.held.set_nil nodeId⟩

/-- Whatever an operation hands a node is in the log afterwards. -/
lemma mem_log_of_mem_deliveries {hub : PhysicalExecutionHub F} (h : LogInv hub)
    {op : PhysicalHubOp F} {i : ℕ} {n : PhysicalStateNode F} {event : SequencedPhysicalEvent F}
    (he : event ∈ deliveries E hub i n op) : event ∈ (perform E hub op).eventLog := by
  rw [perform_eventLog]
  cases op with
  | submit proposal de =>
    rw [deliveries] at he
    split at he
    · exact absurd he List.not_mem_nil
    · exact List.mem_append_right _ he
  | releaseHeldEvents nodeId =>
    rw [deliveries] at he
    split at he
    · exact List.mem_append_left _ (h.held.mem_getD ((handled_sublist _ _ n).subset he))
    · exact absurd he List.not_mem_nil

end PhysicalExecutionHub

end QuantumFoundation
