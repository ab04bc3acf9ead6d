import QuantumFoundation.Physical.Atomicity
import QuantumFoundation.Physical.Deliveries

/-!
# Causal order of the physical nodes

A node moves its cursor behind every event that it executes, over whatever gap there is, and
takes an event below the cursor for applied.  As long as every event comes in turn — it is the
next one, or one that the node has executed before — a node answers the events `1, 2, …` one by
one, and an acknowledgement that says applied is right.  An event that comes out of turn breaks
this (`appliedInOrder_iff`), so the runs in causal order are exactly those in which every event
comes in turn.
-/

namespace QuantumFoundation

variable {F : Type*} [LT F] [LE F] [OfScientific F]

namespace MultiZoneExecutor

/-- Inputs that can all be read are a batch; any others raise, and leave the state and the
batches. -/
lemma executeInputs_cases (E : FloatEnv F) (transitions : Dict String (ZoneInput F))
    (transitionName : String) (x : MultiZoneExecutor F) :
    (∃ inputs, x.executeInputs E transitions transitionName
      = x.executeBatch E inputs transitionName) ∨
    ∃ engine exc, x.executeInputs E transitions transitionName
      = ({ x with engine := engine }, .error exc) := by
  rw [executeInputs]
  cases x.validateInputs transitions with
  | some exc => exact Or.inr ⟨x.engine, exc, rfl⟩
  | none =>
    cases transitions.sorted.entries.findSome? (·.2.fault?) with
    | none => exact Or.inl ⟨_, rfl⟩
    | some fault =>
      dsimp only
      split
      · exact Or.inr ⟨_, _, rfl⟩
      · exact Or.inr ⟨_, _, rfl⟩

/-- Inputs that can be read are executed as a batch. -/
theorem executeInputs_readable (E : FloatEnv F) (inputs : Dict String (TransitionInput F))
    (transitionName : String) (x : MultiZoneExecutor F) :
    x.executeInputs E (inputs.mapValues fun _ => .readable) transitionName
      = x.executeBatch E inputs transitionName := by
  have hvalidate : x.validateInputs (inputs.mapValues fun _ => .readable) = x.validate inputs := by
    rw [validateInputs, Dict.mapValues, List.findSome?_map]
    rfl
  have hnone : (inputs.mapValues fun _ => ZoneInput.readable).sorted.entries.findSome?
      (·.2.fault?) = none := by
    refine List.findSome?_eq_none_iff.mpr fun p hp => ?_
    obtain ⟨q, -, rfl⟩ := List.mem_map.mp (Dict.mem_entries_sorted.mp hp)
    rfl
  have hinputs : readableInputs (inputs.mapValues fun _ => ZoneInput.readable).entries
      = inputs.entries := by
    rw [readableInputs, Dict.mapValues, List.filterMap_map]
    exact List.filterMap_some
  rw [executeInputs, hvalidate, hnone, hinputs, Dict.ofList_entries]
  cases hx : x.validate inputs with
  | some exc => rw [executeBatch, hx]
  | none => rfl

/-- A batch that goes through is appended to the batches; one that raises leaves them. -/
lemma batches_executeBatch (E : FloatEnv F) (transitions : Dict String (TransitionInput F))
    (transitionName : String) (x : MultiZoneExecutor F) :
    (x.executeBatch E transitions transitionName).1.batches
      = x.batches ++ (x.executeBatch E transitions transitionName).2.toOption.toList := by
  rcases executeBatch_cases E transitions transitionName x with ⟨exc, -, hr⟩ |
    ⟨-, done, recs, -, -, ⟨p, post, exc, -, -, hr⟩ |
      ⟨-, ⟨-, exc, hr⟩ | ⟨-, x', batch, hr, -, hbatches, -⟩⟩⟩
  · rw [hr]
    exact (List.append_nil _).symm
  · rw [hr]
    exact (List.append_nil _).symm
  · rw [hr]
    exact (List.append_nil _).symm
  · rw [hr]
    exact hbatches

lemma batches_executeInputs (E : FloatEnv F) (transitions : Dict String (ZoneInput F))
    (transitionName : String) (x : MultiZoneExecutor F) :
    (x.executeInputs E transitions transitionName).1.batches
      = x.batches ++ (x.executeInputs E transitions transitionName).2.toOption.toList := by
  rcases executeInputs_cases E transitions transitionName x with ⟨inputs, hr⟩ | ⟨engine, exc, hr⟩
  · rw [hr]
    exact batches_executeBatch E inputs transitionName x
  · rw [hr]
    exact (List.append_nil _).symm

end MultiZoneExecutor

namespace PhysicalStateNode

/-! ### What a node has executed -/

/-- The ids of the events that the node has executed, in the order of execution. -/
def executedIds (n : PhysicalStateNode F) : List ℤ := (n.ackLog.filter (·.ok)).map (·.causalId)

/-- The ids of the events that the node has rejected. -/
def rejectedIds (n : PhysicalStateNode F) : List ℤ := (n.ackLog.filter (!·.ok)).map (·.causalId)

/-- Behind the executed ids stand the batches of the executor: each was returned by
`execute_batch`, called with the zones and the transition of the event with that id. -/
def ExecutedFrom (E : FloatEnv F) (log : List (SequencedPhysicalEvent F))
    (n : PhysicalStateNode F) : Prop :=
  List.Forall₂ (fun (k : ℤ) (batch : ZoneBatch F) => ∃ event ∈ log, event.causalId = k ∧
    ∃ x : MultiZoneExecutor F,
      (x.executeInputs E event.zoneTransitions event.transitionName).2 = .ok batch)
    n.executedIds n.executor.batches

variable {E : FloatEnv F} {event : SequencedPhysicalEvent F} {n : PhysicalStateNode F}

lemma ExecutedFrom.grow {log : List (SequencedPhysicalEvent F)} (h : n.ExecutedFrom E log)
    (es : List (SequencedPhysicalEvent F)) : n.ExecutedFrom E (log ++ es) :=
  h.imp fun _ _ ⟨event, hmem, hevent⟩ => ⟨event, List.mem_append_left es hmem, hevent⟩

/-- An executed event adds its id and its batch; a rejected one adds neither. -/
lemma ExecutedFrom.receive {log : List (SequencedPhysicalEvent F)} (h : n.ExecutedFrom E log)
    (hmem : event ∈ log) : (n.receive E event).ExecutedFrom E log := by
  by_cases hk : event.causalId < n.nextExpectedCausalId
  · rwa [PhysicalStateNode.receive, executeEvent_of_lt hk]
  · obtain ⟨ack, hn, hid, hres⟩ := executeEvent_of_le (E := E) (not_lt.mp hk)
    rw [PhysicalStateNode.receive, hn]
    show List.Forall₂ _ (((n.ackLog ++ [ack]).filter (·.ok)).map (·.causalId)) _
    rw [MultiZoneExecutor.batches_executeInputs, List.filter_append, List.map_append]
    rcases hres with ⟨batch, hack, hbatch⟩ | ⟨exc, hack, hexc⟩
    · have hok : ack.ok = true := by simp [PhysicalAck.ok, hack]
      rw [hbatch, List.filter_cons_of_pos hok]
      exact List.rel_append h (.cons ⟨event, hmem, hid.symm, n.executor, hbatch⟩ .nil)
    · have hok : ¬ack.ok = true := by simp [PhysicalAck.ok, hack]
      rw [hexc, List.filter_cons_of_neg hok]
      exact List.rel_append h .nil

/-! ### Causal order -/

/-- The node has answered the events `1, …, committed_causal_id` one by one, in this order:
each of them was executed or rejected. -/
structure InCausalOrder (n : PhysicalStateNode F) : Prop where
  numbered : NumberedFrom PhysicalAck.causalId 1 n.ackLog
  committed : n.committedCausalId = n.ackLog.length

instance : DecidablePred (InCausalOrder (F := F)) := fun n =>
  decidable_of_iff (NumberedFrom PhysicalAck.causalId 1 n.ackLog ∧
    n.committedCausalId = n.ackLog.length) ⟨fun h => ⟨h.1, h.2⟩, fun h => ⟨h.1, h.2⟩⟩

/-- If the event is acknowledged as applied, then its batch has been executed exactly once, and
after those of all earlier events that were not rejected; and the events up to the committed id
have been answered in causal order. -/
def AppliedInOrder (E : FloatEnv F) (n : PhysicalStateNode F) (event : SequencedPhysicalEvent F) :
    Prop :=
  let r := n.executeEvent E event
  (r.2.ackType = .applied → r.1.executedIds.count event.causalId = 1 ∧
    ∀ j, 1 ≤ j → j < event.causalId → j ∉ r.1.rejectedIds →
      [j, event.causalId].Sublist r.1.executedIds) ∧
  r.1.InCausalOrder

/-- The event is the next one, or one that the node has executed before. -/
def InTurn (n : PhysicalStateNode F) (event : SequencedPhysicalEvent F) : Prop :=
  event.causalId = n.nextExpectedCausalId ∨
    (event.causalId < n.nextExpectedCausalId ∧ event.causalId ∈ n.executedIds)

instance (n : PhysicalStateNode F) : DecidablePred n.InTurn :=
  fun _ => inferInstanceAs (Decidable (_ ∨ _))

lemma InCausalOrder.init [Add F] [Sub F] [Mul F] [Div F] [DecidableLT F] (nodeId : String)
    (initialState : ShipStateVector F) : InCausalOrder (new E nodeId initialState) :=
  ⟨trivial, rfl⟩

lemma InCausalOrder.pairwise_executedIds (h : InCausalOrder n) :
    n.executedIds.Pairwise (· < ·) :=
  List.pairwise_map.mpr (h.numbered.pairwise_lt.sublist List.filter_sublist)

/-- In a node in causal order, an executed event was executed once, and after all earlier
events that were not rejected. -/
lemma InCausalOrder.of_mem_executedIds (h : InCausalOrder n) {k : ℤ} (hk : k ∈ n.executedIds) :
    n.executedIds.count k = 1 ∧
      ∀ j, 1 ≤ j → j < k → j ∉ n.rejectedIds → [j, k].Sublist n.executedIds := by
  have hlt := h.pairwise_executedIds
  refine ⟨List.count_eq_one_of_mem hlt.nodup hk, fun j hj hjk hrej => ?_⟩
  have hjmem : j ∈ n.executedIds := by
    obtain ⟨ack, hack, rfl⟩ := List.mem_map.mp hk
    have hbounds := h.numbered.bounds (List.mem_filter.mp hack).1
    obtain ⟨ackj, hackj, rfl⟩ := h.numbered.exists_mem hj (hjk.trans hbounds.2)
    cases hok : ackj.ok with
    | true => exact List.mem_map_of_mem (List.mem_filter.mpr ⟨hackj, hok⟩)
    | false => exact absurd (List.mem_map_of_mem (List.mem_filter.mpr ⟨hackj, by simp [hok]⟩)) hrej
  have hnodup : [j, k].Nodup := by simpa using hjk.ne
  have hsub : [j, k] ⊆ n.executedIds := by simp [hjmem, hk]
  exact List.sublist_of_subperm_of_pairwise (r := (· ≤ ·)) (List.subperm_of_subset hnodup hsub)
    (by simpa using hjk.le) (hlt.imp le_of_lt)

/-- An event that is not below the cursor keeps the causal order exactly if it is the next. -/
lemma InCausalOrder.receive_iff (h : InCausalOrder n)
    (hk : n.nextExpectedCausalId ≤ event.causalId) :
    InCausalOrder (n.receive E event) ↔ event.causalId = n.nextExpectedCausalId := by
  obtain ⟨ack, hn, hid, -⟩ := executeEvent_of_le (E := E) hk
  have hcommitted : n.nextExpectedCausalId - 1 = n.ackLog.length := h.committed
  rw [receive, hn]
  constructor
  · intro h'
    have hlength : event.causalId + 1 - 1 = ((n.ackLog ++ [ack]).length : ℤ) := h'.committed
    rw [List.length_append, List.length_singleton, Nat.cast_add, Nat.cast_one] at hlength
    omega
  · intro hnext
    refine ⟨NumberedFrom.append_singleton.mpr ⟨h.numbered, ?_⟩, ?_⟩
    · omega
    · show event.causalId + 1 - 1 = ((n.ackLog ++ [ack]).length : ℤ)
      rw [List.length_append, List.length_singleton, Nat.cast_add, Nat.cast_one]
      omega

/-- **Causal order of one delivery.** -/
theorem InCausalOrder.appliedInOrder_iff (h : InCausalOrder n) :
    AppliedInOrder E n event ↔ InTurn n event := by
  by_cases hk : event.causalId < n.nextExpectedCausalId
  · -- below the cursor the node says applied, and does nothing
    rw [AppliedInOrder, executeEvent_of_lt hk]
    constructor
    · rintro ⟨happlied, -⟩
      have hcount := (happlied rfl).1
      exact Or.inr ⟨hk, List.one_le_count_iff.mp hcount.ge⟩
    · rintro (heq | ⟨-, hmem⟩)
      · exact absurd heq hk.ne
      · exact ⟨fun _ => h.of_mem_executedIds hmem, h⟩
  · have hle := not_lt.mp hk
    have hiff := h.receive_iff (E := E) hle
    have hturn : InTurn n event ↔ event.causalId = n.nextExpectedCausalId :=
      ⟨fun hturn => hturn.resolve_right fun hlt => hk hlt.1, Or.inl⟩
    rw [hturn, ← hiff]
    refine ⟨fun happlied => happlied.2, fun h' => ⟨fun happlied => ?_, h'⟩⟩
    refine InCausalOrder.of_mem_executedIds h' ?_
    obtain ⟨ack, hn, hid, -⟩ := executeEvent_of_le (E := E) hle
    rw [hn] at happlied
    rw [receive, hn]
    have hok : ack.ok = true := by simpa [PhysicalAck.ok] using happlied
    exact List.mem_map.mpr ⟨ack, List.mem_filter.mpr ⟨by simp, hok⟩, hid⟩

end PhysicalStateNode

/-! ### Runs -/

namespace PhysicalExecutionHub

open PhysicalStateNode

variable {E : FloatEnv F}

/-! ### The batches come from the log -/

/-- The log is in order, and the nodes have executed batches of the log. -/
structure Executed (E : FloatEnv F) (hub : PhysicalExecutionHub F) : Prop extends LogInv hub where
  executed : ∀ n ∈ hub.nodes, n.ExecutedFrom E hub.eventLog

lemma Executed.withNodes [Add F] [Sub F] [Mul F] [Div F] [DecidableLT F] (hr hd : Bool)
    (members : List (String × ShipStateVector F)) : Executed E (withNodes E hr hd members) where
  toLogInv := .withNodes hr hd members
  executed := by
    rw [withNodes_nodes]
    intro n hn
    obtain ⟨m, -, rfl⟩ := List.mem_map.mp hn
    exact .nil

variable [DecidableLT F] [DecidableLE F]

/-- Every event that an operation hands a node meets `C`, a condition on the node at that
moment and the event. -/
def EachDelivery (E : FloatEnv F) (C : PhysicalStateNode F → SequencedPhysicalEvent F → Prop)
    (hub : PhysicalExecutionHub F) (op : PhysicalHubOp F) : Prop :=
  ∀ i n, hub.nodes[i]? = some n → Run.Along (receive E) C n (deliveries E hub i n op)

instance {C : PhysicalStateNode F → SequencedPhysicalEvent F → Prop}
    [∀ n event, Decidable (C n event)] (hub : PhysicalExecutionHub F) (op : PhysicalHubOp F) :
    Decidable (EachDelivery E C hub op) :=
  decidable_of_iff (∀ i : Fin hub.nodes.length,
    Run.Along (receive E) C (hub.nodes.get i) (deliveries E hub i (hub.nodes.get i) op))
    ⟨fun h i n hn => by
      obtain ⟨hi, rfl⟩ := List.getElem?_eq_some_iff.mp hn
      exact h ⟨i, hi⟩,
    fun h i => h i _ (List.getElem?_eq_getElem i.isLt)⟩

/-- A node after an operation, and the node it was before. -/
lemma exists_node_of_perform {hub : PhysicalExecutionHub F} {op : PhysicalHubOp F}
    {n' : PhysicalStateNode F} (h : n' ∈ (perform E hub op).nodes) :
    ∃ (i : ℕ) (n : PhysicalStateNode F), hub.nodes[i]? = some n ∧
      n' = Run.exec (receive E) n (deliveries E hub i n op) := by
  obtain ⟨i, hi⟩ := List.mem_iff_getElem?.mp h
  rw [perform_getElem?] at hi
  obtain ⟨n, hn, hnn⟩ := Option.map_eq_some_iff.mp hi
  exact ⟨i, n, hn, hnn.symm⟩

/-- **Step lemma.** -/
theorem Executed.perform {hub : PhysicalExecutionHub F} (h : Executed E hub)
    (op : PhysicalHubOp F) : Executed E (perform E hub op) where
  toLogInv := h.toLogInv.perform op
  executed := by
    intro n' hn'
    obtain ⟨i, n, hn, rfl⟩ := exists_node_of_perform hn'
    have hgrown : n.ExecutedFrom E (PhysicalExecutionHub.perform E hub op).eventLog := by
      rw [perform_eventLog]
      exact (h.executed n (List.mem_of_getElem? hn)).grow _
    exact Run.invariant_of_mem
      (fun m event he hm => hm.receive (mem_log_of_mem_deliveries h.toLogInv he)) hgrown

/-! ### Runs in causal order -/

/-- All nodes are in causal order. -/
def InCausalOrder (hub : PhysicalExecutionHub F) : Prop := ∀ n ∈ hub.nodes, n.InCausalOrder

/-- Over one operation: every delivery is applied in order exactly if every event comes in
turn. -/
lemma InCausalOrder.eachDelivery_iff {hub : PhysicalExecutionHub F} (h : hub.InCausalOrder)
    (op : PhysicalHubOp F) :
    EachDelivery E (AppliedInOrder E) hub op ↔ EachDelivery E InTurn hub op := by
  refine forall_congr' fun i => forall_congr' fun n => forall_congr' fun hn => ?_
  exact Run.along_congr (I := PhysicalStateNode.InCausalOrder) (P := fun _ => True)
    (fun m event _ hm => hm.appliedInOrder_iff) (fun m event _ _ happlied => happlied.2)
    (fun _ _ => trivial) (h n (List.mem_of_getElem? hn))

/-- **Step lemma.**  An operation whose deliveries are applied in order keeps the causal
order. -/
theorem InCausalOrder.perform {hub : PhysicalExecutionHub F} (h : hub.InCausalOrder)
    {op : PhysicalHubOp F} (hop : EachDelivery E (AppliedInOrder E) hub op) :
    (perform E hub op).InCausalOrder := by
  intro n' hn'
  obtain ⟨i, n, hn, rfl⟩ := exists_node_of_perform hn'
  exact Run.invariant (fun m event _ happlied => happlied.2) (h n (List.mem_of_getElem? hn))
    (hop i n hn)

variable [Add F] [Sub F] [Mul F] [Div F]

/-- **Causal order.**  In every run of submissions with any delayed nodes and of releases, the
log carries the ids `1, 2, …`, and behind the ids that a node has executed stand the batches of
its executor, one by one.  In every delivery, and after every operation, the events are applied
in causal order exactly if every event that reaches a node comes in turn there. -/
theorem appliedInOrder_run_iff (E : FloatEnv F) (hr hd : Bool)
    (members : List (String × ShipStateVector F)) (ops : List (PhysicalHubOp F)) :
    Executed E (Run.exec (perform E) (withNodes E hr hd members) ops) ∧
    (Run.Along (perform E) (fun hub op => EachDelivery E (AppliedInOrder E) hub op ∧
          (perform E hub op).InCausalOrder) (withNodes E hr hd members) ops ↔
      Run.Along (perform E) (EachDelivery E InTurn) (withNodes E hr hd members) ops) := by
  refine ⟨Run.invariant_of_forall (fun _ op h => h.perform op) (.withNodes hr hd members) ops, ?_⟩
  refine Run.along_congr (I := InCausalOrder) (P := fun _ => True) (fun hub op _ h => ?_)
    (fun hub op _ _ happlied => happlied.2) (fun _ _ => trivial) ?_
  · rw [← h.eachDelivery_iff op]
    exact ⟨fun happlied => happlied.1, fun hop => ⟨hop, h.perform hop⟩⟩
  · rw [InCausalOrder, withNodes_nodes]
    intro n hn
    obtain ⟨m, -, rfl⟩ := List.mem_map.mp hn
    exact .init m.1 m.2

/-- A proposal that leaves the bow at rest. -/
def restingProposal (proposalId : String) : PhysicalProposal ℚ :=
  ⟨proposalId, "client",
    .ofList [("bow", .input (.readable (restingInput "bow" bow_ne_empty)))], "standard"⟩

/-- A hub with nodes `A` and `B`. -/
def twoNodes : PhysicalExecutionHub ℚ :=
  withNodes exactEnv true true
    [("A", MultiZoneExecutor.bowAndStern.state), ("B", MultiZoneExecutor.bowAndStern.state)]

-- an event that is released before the next one is submitted comes in turn
example : Run.Along (perform exactEnv) (EachDelivery exactEnv InTurn) twoNodes
    [.submit (restingProposal "p1") ["B"], .releaseHeldEvents "B",
      .submit (restingProposal "p2") []] := by
  decide +kernel

/-- Node `B` executes event 2 while event 1 is held back from it.  When event 1 is released, the
node acknowledges it as applied and does not execute it. -/
theorem held_event_skipped :
    let hub := Run.exec (perform exactEnv) twoNodes
      [.submit (restingProposal "p1") ["B"], .submit (restingProposal "p2") []]
    let r := hub.releaseHeldEvents exactEnv "B"
    r.2.toOption.map (fun acks => acks.map fun ack => (ack.causalId, ack.ackType))
        = some [(1, .applied)] ∧
      r.1.nodes.map (fun n => (n.executedIds, n.executor.batches.length, n.committedCausalId))
        = [([1, 2], 2, 2), ([2], 1, 2)] ∧
      ∃ n ∈ r.1.nodes, ¬n.InCausalOrder := by
  decide +kernel

end PhysicalExecutionHub

end QuantumFoundation
