import Mathlib.Data.Finset.Basic
import QuantumFoundation.Lib.Run
import QuantumFoundation.Network.Node

/-!
# The message bus

The bus of `node_network_simulation.py`.  An operation of a node is performed at the node, logged,
and handed to its peers in the order of their registration, all within the call.  The first peer
that raises ends the call: its exception comes out of the operation of the origin, and the peers
behind it get nothing.
-/

namespace QuantumFoundation.Network

variable {R ω κ : Type*} [PyFloat R]

/-- The bus: the nodes in the order of their registration, and all events so far. -/
structure NodeNetwork (R ω κ : Type*) [PyFloat R] where
  nodes : List (DistributedStateNode R ω κ)
  globalEventLog : List (NetworkEvent R ω κ)

/-- The operations of a node. -/
inductive NodeCall
  | evolve (ruleName : String)
  | measure (tokenId : String) (seed : ℤ)
  | sealNode (reason : String)

/-- The operation is `seal`. -/
def NodeCall.isSeal : NodeCall → Bool
  | sealNode _ => true
  | _ => false

/-- The operation at the node, up to its broadcast. -/
def NodeCall.run (node : DistributedStateNode R ω κ) :
    NodeCall → Attempt (DistributedStateNode R ω κ) (NetworkEvent R ω κ)
  | evolve ruleName => node.evolve ruleName
  | measure tokenId seed => node.measure tokenId seed
  | sealNode reason => node.sealNode reason

namespace NodeNetwork

/-- A bus without nodes. -/
def new : NodeNetwork R ω κ := ⟨[], []⟩

/-- `register_node`. -/
def registerNode (node : DistributedStateNode R ω κ) (net : NodeNetwork R ω κ) :
    Attempt (NodeNetwork R ω κ) Unit :=
  if node.nodeId ∈ net.nodes.map (·.nodeId) then
    (net, .error ⟨.valueError, "Node '" ++ node.nodeId ++ "' already registered."⟩)
  else ({ net with nodes := net.nodes ++ [node] }, .ok ())

/-- The loop that registers nodes with a bus. -/
def registerAll : List (DistributedStateNode R ω κ) → NodeNetwork R ω κ →
    Except Raised (NodeNetwork R ω κ)
  | [], net => .ok net
  | node :: rest, net =>
    match net.registerNode node with
    | (_, .error exc) => .error exc
    | (net, .ok ()) => registerAll rest net

variable (P : PayloadEnv R ω κ) (netEvent : NetworkEvent R ω κ)

/-- The loop of `_route`. -/
def deliver : List (DistributedStateNode R ω κ) →
    Attempt (List (DistributedStateNode R ω κ)) Unit
  | [] => ([], .ok ())
  | node :: rest =>
    if node.nodeId ≠ netEvent.originNode then
      match node.receiveEvent P netEvent with
      | (node, .error exc) => (node :: rest, .error exc)
      | (node, .ok _) =>
        let r := deliver rest
        (node :: r.1, r.2)
    else
      let r := deliver rest
      (node :: r.1, r.2)

/-- `_route`. -/
def route (net : NodeNetwork R ω κ) : Attempt (NodeNetwork R ω κ) Unit :=
  let r := deliver P netEvent net.nodes
  (⟨r.1, net.globalEventLog ++ [netEvent]⟩, r.2)

/-- An operation of the node at a position.  If there is none, nothing happens. -/
def call (net : NodeNetwork R ω κ) (c : ℕ × NodeCall) : Attempt (NodeNetwork R ω κ) Unit :=
  match net.nodes[c.1]? with
  | none => (net, .ok ())
  | some node =>
    match c.2.run node with
    | (node, .error exc) => ({ net with nodes := net.nodes.set c.1 node }, .error exc)
    | (node, .ok netEvent) => route P netEvent { net with nodes := net.nodes.set c.1 node }

/-- What an operation leaves behind, whether it returns or raises. -/
def perform (net : NodeNetwork R ω κ) (c : ℕ × NodeCall) : NodeNetwork R ω κ := (net.call P c).1

end NodeNetwork

/-! ### What a node does -/

namespace DistributedStateNode

variable {P : PayloadEnv R ω κ} {netEvent : NetworkEvent R ω κ}
  {node : DistributedStateNode R ω κ}

/-- What every operation keeps of a node that emits or receives the events with the ids. -/
structure Advances (eventIds : Finset String) (node node' : DistributedStateNode R ω κ) :
    Prop where
  nodeId_eq : node'.nodeId = node.nodeId
  clock_le : node.logicalClock ≤ node'.logicalClock
  seen : node'.seenEventIds ⊆ eventIds ∪ node.seenEventIds

lemma Advances.refl (eventIds : Finset String) (node : DistributedStateNode R ω κ) :
    Advances eventIds node node := ⟨rfl, le_rfl, Finset.subset_union_right⟩

lemma Advances.trans {eventIds : Finset String} {a b c : DistributedStateNode R ω κ}
    (hab : Advances eventIds a b) (hbc : Advances eventIds b c) : Advances eventIds a c where
  nodeId_eq := hbc.nodeId_eq.trans hab.nodeId_eq
  clock_le := hab.clock_le.trans hbc.clock_le
  seen := hbc.seen.trans (Finset.union_subset Finset.subset_union_left hab.seen)

/-- A node that is not active raises and stays as it is. -/
lemma receiveEvent_of_not_active (P : PayloadEnv R ω κ) (netEvent : NetworkEvent R ω κ)
    (h : node.lifecycle ≠ .active) :
    ∃ exc, node.receiveEvent P netEvent = (node, .error exc) := by
  rw [receiveEvent, assertActive, if_pos h]
  exact ⟨_, rfl⟩

/-- An active node lets an event that it has seen pass by. -/
lemma receiveEvent_of_seen (h : node.lifecycle = .active)
    (hseen : netEvent.eventId ∈ node.seenEventIds) :
    node.receiveEvent P netEvent = (node, .ok false) := by
  rw [receiveEvent, assertActive, if_neg (not_not.mpr h)]
  simp only [if_pos hseen]

/-- An active node takes note of a new event, and applies it to its harness. -/
lemma receiveEvent_of_new (h : node.lifecycle = .active)
    (hnew : netEvent.eventId ∉ node.seenEventIds) :
    node.receiveEvent P netEvent =
      ({ node with
          logicalClock := max node.logicalClock netEvent.logicalClock + 1
          seenEventIds := insert netEvent.eventId node.seenEventIds
          receivedLog := node.receivedLog ++ [netEvent]
          harness := (reapply P netEvent node.harness).1 },
        (reapply P netEvent node.harness).2.map fun _ => true) := by
  rw [receiveEvent, assertActive, if_neg (not_not.mpr h)]
  simp only [if_neg hnew]

lemma advances_receiveEvent (P : PayloadEnv R ω κ) (netEvent : NetworkEvent R ω κ)
    (node : DistributedStateNode R ω κ) :
    Advances {netEvent.eventId} node (node.receiveEvent P netEvent).1 := by
  by_cases h : node.lifecycle = .active
  · by_cases hseen : netEvent.eventId ∈ node.seenEventIds
    · rw [receiveEvent_of_seen h hseen]
      exact .refl _ _
    · rw [receiveEvent_of_new h hseen]
      refine ⟨rfl, ?_, Finset.Subset.refl _⟩
      show node.logicalClock ≤ max node.logicalClock netEvent.logicalClock + 1
      omega
  · obtain ⟨exc, hr⟩ := receiveEvent_of_not_active P netEvent h
    rw [hr]
    exact .refl _ _

lemma lifecycle_receiveEvent (P : PayloadEnv R ω κ) (netEvent : NetworkEvent R ω κ)
    (node : DistributedStateNode R ω κ) :
    (node.receiveEvent P netEvent).1.lifecycle = node.lifecycle := by
  by_cases h : node.lifecycle = .active
  · by_cases hseen : netEvent.eventId ∈ node.seenEventIds
    · rw [receiveEvent_of_seen h hseen]
    · rw [receiveEvent_of_new h hseen]
  · obtain ⟨exc, hr⟩ := receiveEvent_of_not_active P netEvent h
    rw [hr]

/-- The event is the one that the node emits at the next value of its clock. -/
structure Emits (node : DistributedStateNode R ω κ) (netEvent : NetworkEvent R ω κ) : Prop where
  eventId_eq : netEvent.eventId = eventIdOf node.nodeId (node.logicalClock + 1)
  originNode_eq : netEvent.originNode = node.nodeId
  logicalClock_eq : netEvent.logicalClock = node.logicalClock + 1

/-- The node after a tick of its clock, with another harness. -/
def ticked (node : DistributedStateNode R ω κ) (harness : FullStackHarness R ω κ) :
    DistributedStateNode R ω κ :=
  { node with logicalClock := node.logicalClock + 1, harness := harness }

section
variable {α : Type*} {eventType : EventType}
  {operation : FullStackHarness R ω κ → Attempt (FullStackHarness R ω κ) α}
  {harness : FullStackHarness R ω κ}

/-- A node that is not active refuses. -/
lemma originate_of_not_active (eventType : EventType)
    (operation : FullStackHarness R ω κ → Attempt (FullStackHarness R ω κ) α)
    (h : node.lifecycle ≠ .active) :
    ∃ exc, node.originate eventType operation = (node, .error exc) := by
  rw [originate, assertActive, if_pos h]
  exact ⟨_, rfl⟩

/-- If the harness raises, the clock of the node has ticked and nothing is emitted. -/
lemma originate_of_error {exc : Raised} (h : node.lifecycle = .active)
    (hop : operation node.harness = (harness, .error exc)) :
    node.originate eventType operation = (node.ticked harness, .error exc) := by
  rw [originate, assertActive, if_neg (not_not.mpr h)]
  simp only [hop]
  rfl

/-- If the harness returns, the node emits an event. -/
lemma originate_of_ok {a : α} (h : node.lifecycle = .active)
    (hop : operation node.harness = (harness, .ok a)) :
    node.originate eventType operation = emit eventType (node.ticked harness) := by
  rw [originate, assertActive, if_neg (not_not.mpr h)]
  simp only [hop]
  rfl

end

/-- The harness of a node after an operation. -/
lemma originate_harness {α : Type*} (eventType : EventType)
    (operation : FullStackHarness R ω κ → Attempt (FullStackHarness R ω κ) α)
    (node : DistributedStateNode R ω κ) :
    (node.originate eventType operation).1.harness
      = if node.lifecycle = .active then (operation node.harness).1 else node.harness := by
  by_cases h : node.lifecycle = .active
  · rw [if_pos h]
    rcases hop : operation node.harness with ⟨harness, exc | a⟩
    · rw [originate_of_error h hop]
      rfl
    · rw [originate_of_ok h hop, emit]
      split <;> rfl
  · obtain ⟨exc, hr⟩ := originate_of_not_active eventType operation h
    rw [if_neg h, hr]

/-- The node after a tick of its clock, with another harness, when it has emitted an event. -/
def emitted (node : DistributedStateNode R ω κ) (harness : FullStackHarness R ω κ) :
    DistributedStateNode R ω κ :=
  { node.ticked harness with
    seenEventIds := insert (eventIdOf node.nodeId (node.logicalClock + 1)) node.seenEventIds }

/-- A node emits the last event of its timeline, at the value of its clock. -/
lemma emit_ticked {eventType : EventType} {harness : FullStackHarness R ω κ}
    {event : CausalEvent (Payload R ω κ)}
    (hlast : harness.nogoLayer.timeline.events.getLast? = some event) :
    emit eventType (node.ticked harness) = (node.emitted harness,
      .ok ⟨eventIdOf node.nodeId (node.logicalClock + 1), node.nodeId, eventType,
        node.logicalClock + 1, some event⟩) := by
  have h : (node.ticked harness).harness.system.timeline.events.getLast? = some event := hlast
  rw [emit]
  simp only [h]
  rfl

/-- **An operation of a node.**  The node stays as it is, since it is not active; or the clock has
ticked and nothing is emitted; or the node emits the last event of its timeline. -/
theorem originate_cases {α : Type*} (eventType : EventType)
    (operation : FullStackHarness R ω κ → Attempt (FullStackHarness R ω κ) α)
    (node : DistributedStateNode R ω κ) :
    (∃ exc, node.originate eventType operation = (node, .error exc)) ∨
    (∃ harness exc, node.originate eventType operation = (node.ticked harness, .error exc)) ∨
    node.lifecycle = .active ∧ ∃ harness a event, operation node.harness = (harness, .ok a) ∧
      harness.nogoLayer.timeline.events.getLast? = some event ∧
      node.originate eventType operation = (node.emitted harness,
        .ok ⟨eventIdOf node.nodeId (node.logicalClock + 1), node.nodeId, eventType,
          node.logicalClock + 1, some event⟩) := by
  by_cases h : node.lifecycle = .active
  · rcases hop : operation node.harness with ⟨harness, exc | a⟩
    · exact Or.inr (Or.inl ⟨harness, exc, originate_of_error h hop⟩)
    · rw [originate_of_ok h hop]
      cases hlast : harness.nogoLayer.timeline.events.getLast? with
      | none =>
        have hnone : (node.ticked harness).harness.system.timeline.events.getLast? = none := hlast
        rw [emit]
        simp only [hnone]
        exact Or.inr (Or.inl ⟨harness, _, rfl⟩)
      | some event => exact Or.inr (Or.inr ⟨h, harness, a, event, rfl, hlast, emit_ticked hlast⟩)
  · exact Or.inl (originate_of_not_active eventType operation h)

/-- What an operation makes of its node: if it raises, nothing is emitted; otherwise the node, which
is active, emits the event of the next value of its clock. -/
lemma originate_advances {α : Type*} (eventType : EventType)
    (operation : FullStackHarness R ω κ → Attempt (FullStackHarness R ω κ) α)
    (node : DistributedStateNode R ω κ) :
    (∃ node' exc, node.originate eventType operation = (node', .error exc) ∧ Advances ∅ node node' ∧
      node'.lifecycle = node.lifecycle) ∨
    ∃ node' netEvent, node.originate eventType operation = (node', .ok netEvent) ∧
      node.Emits netEvent ∧ Advances {netEvent.eventId} node node' ∧
      node'.logicalClock = netEvent.logicalClock ∧ node.lifecycle = .active ∧
      node'.lifecycle = .active := by
  rcases originate_cases eventType operation node
    with ⟨exc, hr⟩ | ⟨harness, exc, hr⟩ | ⟨hactive, harness, a, event, -, -, hr⟩
  · exact Or.inl ⟨node, exc, hr, .refl ∅ node, rfl⟩
  · exact Or.inl ⟨_, exc, hr, ⟨rfl, Int.le.intro 1 rfl, Finset.subset_union_right⟩, rfl⟩
  · exact Or.inr ⟨_, _, hr, ⟨rfl, rfl, rfl⟩,
      ⟨rfl, Int.le.intro 1 rfl, Finset.Subset.refl _⟩, rfl, hactive, hactive⟩

/-- The event of an operation that returns carries the last event of the timeline. -/
lemma originate_ok {α : Type*} {eventType : EventType}
    {operation : FullStackHarness R ω κ → Attempt (FullStackHarness R ω κ) α}
    {node node' : DistributedStateNode R ω κ} {netEvent : NetworkEvent R ω κ}
    (h : node.originate eventType operation = (node', .ok netEvent)) :
    netEvent.eventType = eventType ∧ ∃ harness a event, operation node.harness = (harness, .ok a) ∧
      harness.nogoLayer.timeline.events.getLast? = some event ∧ netEvent.payload = some event := by
  rcases originate_cases eventType operation node
    with ⟨exc, hr⟩ | ⟨harness, exc, hr⟩ | ⟨-, harness, a, event, hop, hlast, hr⟩
  · exact absurd (congrArg Prod.snd (hr.symm.trans h)) (by simp)
  · exact absurd (congrArg Prod.snd (hr.symm.trans h)) (by simp)
  · rw [← Except.ok.inj (congrArg Prod.snd (hr.symm.trans h))]
    exact ⟨rfl, harness, a, event, hop, hlast, rfl⟩

end DistributedStateNode

open Network.DistributedStateNode

/-- **A call at its node.**  It raises, and nothing is emitted; or the node, which is active,
emits the event of the next value of its clock. -/
theorem NodeCall.run_cases (c : NodeCall) (node : DistributedStateNode R ω κ) :
    (∃ node' exc, c.run node = (node', .error exc) ∧ Advances ∅ node node' ∧
      node'.lifecycle = node.lifecycle) ∨
    ∃ node' netEvent, c.run node = (node', .ok netEvent) ∧ node.Emits netEvent ∧
      Advances {netEvent.eventId} node node' ∧ node'.logicalClock = netEvent.logicalClock ∧
      node.lifecycle = .active ∧
      node'.lifecycle = match c with | sealNode _ => .sealed | _ => .active := by
  cases c with
  | evolve ruleName => exact originate_advances .evolution _ node
  | measure tokenId seed => exact originate_advances .collapse _ node
  | sealNode reason =>
    rw [run, DistributedStateNode.sealNode]
    rcases originate_advances .sealing (fun harness => harness.sealTimeline reason) node with
      ⟨node', exc, hr, hadv, hlifecycle⟩ | ⟨node', netEvent, hr, hemits, hadv, hclock, hactive, -⟩
    · rw [hr]
      exact Or.inl ⟨node', exc, rfl, hadv, hlifecycle⟩
    · rw [hr]
      exact Or.inr ⟨_, netEvent, rfl, hemits, ⟨hadv.nodeId_eq, hadv.clock_le, hadv.seen⟩, hclock,
        hactive, rfl⟩

/-- **A call.**  There is no node at the position, and nothing happens; or the operation raises at
the node, and nothing is logged; or the event of the node is routed. -/
theorem NodeNetwork.call_cases (P : PayloadEnv R ω κ) (net : NodeNetwork R ω κ)
    (c : ℕ × NodeCall) :
    (net.nodes[c.1]? = none ∧ net.call P c = (net, .ok ())) ∨
    ∃ node, net.nodes[c.1]? = some node ∧
      ((∃ node' exc, c.2.run node = (node', .error exc) ∧
          net.call P c = ({ net with nodes := net.nodes.set c.1 node' }, .error exc) ∧
          Advances ∅ node node' ∧ node'.lifecycle = node.lifecycle) ∨
        ∃ node' netEvent, c.2.run node = (node', .ok netEvent) ∧
          net.call P c = route P netEvent { net with nodes := net.nodes.set c.1 node' } ∧
          node.Emits netEvent ∧ Advances {netEvent.eventId} node node' ∧
          node'.logicalClock = netEvent.logicalClock ∧ node.lifecycle = .active ∧
          node'.lifecycle = match c.2 with | .sealNode _ => .sealed | _ => .active) := by
  rw [call]
  cases hnode : net.nodes[c.1]? with
  | none => exact Or.inl ⟨rfl, rfl⟩
  | some node =>
    refine Or.inr ⟨node, rfl, ?_⟩
    rcases c.2.run_cases node with ⟨node', exc, hr, hkept⟩ | ⟨node', netEvent, hr, hemitted⟩
    · simp only [hr]
      exact Or.inl ⟨node', exc, rfl, rfl, hkept⟩
    · simp only [hr]
      exact Or.inr ⟨node', netEvent, rfl, rfl, hemitted⟩

/-! ### Delivery -/

namespace NodeNetwork

/-- Nodes that are all registered have distinct ids, and are in the order of registration. -/
lemma registerAll_ok {nodes : List (DistributedStateNode R ω κ)} {net net' : NodeNetwork R ω κ}
    (hnodup : (net.nodes.map (·.nodeId)).Nodup) (h : registerAll nodes net = .ok net') :
    net' = { net with nodes := net.nodes ++ nodes } ∧ (net'.nodes.map (·.nodeId)).Nodup := by
  induction nodes generalizing net with
  | nil =>
    rw [← Except.ok.inj h]
    exact ⟨by rw [List.append_nil], hnodup⟩
  | cons node rest ih =>
    rw [registerAll, registerNode] at h
    by_cases hmem : node.nodeId ∈ net.nodes.map (·.nodeId)
    · simp [hmem] at h
    · simp only [if_neg hmem] at h
      have hnext : ((net.nodes ++ [node]).map (·.nodeId)).Nodup := by
        rw [List.map_append, List.nodup_append]
        refine ⟨hnodup, by simp, ?_⟩
        intro a ha b hb hab
        rw [hab, List.mem_singleton.mp hb] at ha
        exact hmem ha
      obtain ⟨hnet, hids⟩ := ih hnext h
      exact ⟨by rw [hnet]; simp, hids⟩

variable {P : PayloadEnv R ω κ} {netEvent : NetworkEvent R ω κ}
  {nodes : List (DistributedStateNode R ω κ)}

/-- What the delivery of an event makes of a node that it reaches. -/
def handle (P : PayloadEnv R ω κ) (netEvent : NetworkEvent R ω κ)
    (node : DistributedStateNode R ω κ) : DistributedStateNode R ω κ :=
  if node.nodeId ≠ netEvent.originNode then (node.receiveEvent P netEvent).1 else node

/-- The delivery of an event goes on after the node. -/
def accepts (P : PayloadEnv R ω κ) (netEvent : NetworkEvent R ω κ)
    (node : DistributedStateNode R ω κ) : Bool :=
  node.nodeId = netEvent.originNode || (node.receiveEvent P netEvent).2.isOk

/-- **Delivery.**  The event reaches the nodes up to the first one that does not accept it, that
one included; the call returns if there is none. -/
theorem deliver_eq (nodes : List (DistributedStateNode R ω κ)) :
    (deliver P netEvent nodes).1 = (nodes.takeWhile (accepts P netEvent)).map (handle P netEvent)
        ++ (nodes.dropWhile (accepts P netEvent)).modifyHead (handle P netEvent) ∧
      ((deliver P netEvent nodes).2 = .ok () ↔ nodes.dropWhile (accepts P netEvent) = []) := by
  induction nodes with
  | nil => simp [deliver]
  | cons node rest ih =>
    rw [deliver]
    by_cases horigin : node.nodeId = netEvent.originNode
    · have haccepts : accepts P netEvent node = true := by simp [accepts, horigin]
      have hhandle : handle P netEvent node = node := by simp [handle, horigin]
      simpa [horigin, haccepts, hhandle] using ih
    · rcases hr : node.receiveEvent P netEvent with ⟨node', exc | b⟩
      · have haccepts : accepts P netEvent node = false := by
          simp [accepts, horigin, hr, Except.isOk, Except.toBool]
        have hhandle : handle P netEvent node = node' := by simp [handle, horigin, hr]
        simp [horigin, haccepts, hhandle]
      · have haccepts : accepts P netEvent node = true := by
          simp [accepts, hr, Except.isOk, Except.toBool]
        have hhandle : handle P netEvent node = node' := by simp [handle, horigin, hr]
        simpa [horigin, haccepts, hhandle] using ih

/-- A delivery that returns has reached every node. -/
lemma deliver_of_ok (h : (deliver P netEvent nodes).2 = .ok ()) :
    (deliver P netEvent nodes).1 = nodes.map (handle P netEvent) := by
  obtain ⟨hnodes, hok⟩ : (deliver P netEvent nodes).1 = _ ∧
      ((deliver P netEvent nodes).2 = .ok () ↔ _) := deliver_eq nodes
  have hnone := hok.mp h
  have htake := List.takeWhile_append_dropWhile (p := accepts P netEvent) (l := nodes)
  rw [hnone, List.append_nil] at htake
  rw [hnodes, hnone, htake]
  simp

/-- A call that returns has routed its event to every node. -/
lemma route_of_isOk {net : NodeNetwork R ω κ} (h : (route P netEvent net).2.isOk = true) :
    (route P netEvent net).1
      = ⟨net.nodes.map (handle P netEvent), net.globalEventLog ++ [netEvent]⟩ := by
  rw [route] at h ⊢
  cases hd : (deliver P netEvent net.nodes).2 with
  | error exc => simp [hd, Except.isOk, Except.toBool] at h
  | ok u => rw [deliver_of_ok hd]

/-- A node after a delivery is one from before, which the delivery has reached or not. -/
lemma mem_deliver {node : DistributedStateNode R ω κ}
    (h : node ∈ (deliver P netEvent nodes).1) :
    ∃ node' ∈ nodes, node = node' ∨ node = handle P netEvent node' := by
  rw [(deliver_eq nodes).1] at h
  rcases List.mem_append.mp h with h | h
  · obtain ⟨node', hnode', rfl⟩ := List.mem_map.mp h
    exact ⟨node', (List.takeWhile_sublist _).mem hnode', Or.inr rfl⟩
  · have hsub := List.dropWhile_sublist (p := accepts P netEvent) (l := nodes)
    cases hdrop : nodes.dropWhile (accepts P netEvent) with
    | nil => simp [hdrop] at h
    | cons first rest =>
      rw [hdrop] at h hsub
      rcases List.mem_cons.mp h with rfl | h
      · exact ⟨first, hsub.mem List.mem_cons_self, Or.inr rfl⟩
      · exact ⟨node, hsub.mem (List.mem_cons_of_mem _ h), Or.inl rfl⟩

lemma handle_of_origin {node : DistributedStateNode R ω κ}
    (h : node.nodeId = netEvent.originNode) : handle P netEvent node = node :=
  if_neg (not_not.mpr h)

lemma handle_of_peer {node : DistributedStateNode R ω κ}
    (h : node.nodeId ≠ netEvent.originNode) :
    handle P netEvent node = (node.receiveEvent P netEvent).1 :=
  if_pos h

lemma advances_handle (node : DistributedStateNode R ω κ) :
    Advances {netEvent.eventId} node (handle P netEvent node) := by
  rw [handle]
  split
  · exact advances_receiveEvent P netEvent node
  · exact .refl _ node

lemma map_nodeId_deliver (nodes : List (DistributedStateNode R ω κ)) :
    (deliver P netEvent nodes).1.map (·.nodeId) = nodes.map (·.nodeId) := by
  have hhandle : ∀ node, (handle P netEvent node).nodeId = node.nodeId := fun node =>
    (advances_handle node).nodeId_eq
  have hsplit := List.takeWhile_append_dropWhile (p := accepts P netEvent) (l := nodes)
  rw [(deliver_eq nodes).1]
  conv_rhs => rw [← hsplit]
  cases nodes.dropWhile (accepts P netEvent) <;>
    simp [hhandle]

/-! ### A network of three nodes -/

/-- The basis state `0`. -/
def ketZeroAmplitudes : Dict String (PyComplex ℚ) := .ofList [("0", ⟨1, 0⟩), ("1", ⟨0, 0⟩)]

/-- The matrix of the Pauli-X gate. -/
def flipMatrix : Dict (String × String) (PyComplex ℚ) :=
  .ofList [(("0", "0"), ⟨0, 0⟩), (("0", "1"), ⟨1, 0⟩), (("1", "0"), ⟨1, 0⟩),
    (("1", "1"), ⟨0, 0⟩)]

/-- A node whose only rule is the Pauli-X gate. -/
def flipNode (initialAmplitudes : Dict String (PyComplex ℚ)) (nodeId : String) :
    Except Raised (DistributedStateNode ℚ Unit Unit) :=
  build .lastInsertion nodeId initialAmplitudes "root" [("X", flipMatrix, "Pauli-X Gate")]

/-- A bus with three of these nodes. -/
def flipNetwork (initialAmplitudes : Dict String (PyComplex ℚ)) :
    Except Raised (NodeNetwork ℚ Unit Unit) := do
  let nodeA ← flipNode initialAmplitudes "NodeA"
  let nodeB ← flipNode initialAmplitudes "NodeB"
  let nodeC ← flipNode initialAmplitudes "NodeC"
  registerAll [nodeA, nodeB, nodeC] new

lemma flipNetwork_ok {initialAmplitudes : Dict String (PyComplex ℚ)}
    {net : NodeNetwork ℚ Unit Unit} (h : flipNetwork initialAmplitudes = .ok net) :
    ∃ nodes, registerAll nodes new = .ok net ∧ ∀ node ∈ nodes,
      node.BuiltWith .lastInsertion initialAmplitudes [("X", flipMatrix, "Pauli-X Gate")] := by
  have hbuilt : ∀ {nodeId : String} {node : DistributedStateNode ℚ Unit Unit},
      flipNode initialAmplitudes nodeId = .ok node →
      node.BuiltWith .lastInsertion initialAmplitudes [("X", flipMatrix, "Pauli-X Gate")] :=
    fun hnode => ⟨_, _, _, fun _ => Iff.rfl, hnode⟩
  rw [flipNetwork] at h
  cases hA : flipNode initialAmplitudes "NodeA" with
  | error exc => simp [hA, bind, Except.bind] at h
  | ok nodeA =>
    cases hB : flipNode initialAmplitudes "NodeB" with
    | error exc => simp [hA, hB, bind, Except.bind] at h
    | ok nodeB =>
      cases hC : flipNode initialAmplitudes "NodeC" with
      | error exc => simp [hA, hB, hC, bind, Except.bind] at h
      | ok nodeC =>
        simp only [hA, hB, hC, bind, Except.bind] at h
        refine ⟨[nodeA, nodeB, nodeC], h, ?_⟩
        exact List.forall_mem_cons.mpr ⟨hbuilt hA,
          List.forall_mem_cons.mpr ⟨hbuilt hB, List.forall_mem_singleton.mpr (hbuilt hC)⟩⟩

/-- An environment in which no payload of other kinds is read. -/
def plainEnv : PayloadEnv ℚ Unit Unit :=
  ⟨fun _ => "", fun _ => .error ⟨.typeError, ""⟩, fun _ => .error ⟨.attributeError, ""⟩⟩

end NodeNetwork

end QuantumFoundation.Network
