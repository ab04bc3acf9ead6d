import QuantumFoundation.Quantum.Harness

/-!
# The nodes of the quantum network

The node of `distributed_state_node.py`: a harness of its own, a Lamport clock, and the ids of the
events that it has emitted or received.  A node emits an event for each of its own operations; an
event that it receives it applies again to its own harness, at once and whatever its clock.
-/

namespace QuantumFoundation.Network

variable {R ω κ : Type*} [PyFloat R]

/-! ### Events -/

/-- The type of an event. -/
inductive EventType
  | evolution
  | collapse
  | sealing
  | other (name : String)
deriving DecidableEq

/-- An event between nodes.  Its payload is an event of the timeline of its origin, if any. -/
structure NetworkEvent (R ω κ : Type*) [PyFloat R] where
  eventId : String
  originNode : String
  eventType : EventType
  logicalClock : ℤ
  payload : Option (CausalEvent (Payload R ω κ))

/-- The id of the event that a node emits at a clock. -/
def eventIdOf (nodeId : String) (logicalClock : ℤ) : String :=
  nodeId ++ ":" ++ toString logicalClock

/-- What the nodes read off the payloads that no harness records, and how payloads are shown. -/
structure PayloadEnv (R ω κ : Type*) [PyFloat R] where
  /-- `str(payload)`. -/
  str : Payload R ω κ → String
  /-- `payload["observation"].observation_type`. -/
  observationType : κ → Except Raised String
  /-- `payload.token_id` and `payload.result.seed_used`. -/
  collapseRecord : κ → Except Raised (String × ℤ)

namespace PayloadEnv

variable (P : PayloadEnv R ω κ)

/-- `payload["observation"].observation_type`. -/
def ruleName : Payload R ω κ → Except Raised String
  | .evolution observation _ => .ok observation.observationType
  | .noisyEvolution observation _ => .ok observation.observationType
  | .genesis _ _ => .error ⟨.other "KeyError", "'observation'"⟩
  | .correction _ _ _ => .error ⟨.other "KeyError", "'observation'"⟩
  | .delta _ => .error ⟨.typeError, "'StateDelta' object is not subscriptable"⟩
  | .collapse _ => .error ⟨.typeError, "'IrreversibleCollapseEvent' object is not subscriptable"⟩
  | .other value => P.observationType value

/-- `payload.token_id` and `payload.result.seed_used`. -/
def tokenAndSeed : Payload R ω κ → Except Raised (String × ℤ)
  | .collapse event => .ok (event.tokenId, event.result.seedUsed)
  | .delta _ => .error ⟨.attributeError, "'StateDelta' object has no attribute 'token_id'"⟩
  | .other value => P.collapseRecord value
  | _ => .error ⟨.attributeError, "'dict' object has no attribute 'token_id'"⟩

end PayloadEnv

/-- `causal_event.payload`, of an event that may be missing. -/
def payloadOf : Option (CausalEvent (Payload R ω κ)) → Except Raised (Payload R ω κ)
  | none => .error ⟨.attributeError, "'NoneType' object has no attribute 'payload'"⟩
  | some causalEvent => .ok causalEvent.payload

/-! ### Nodes -/

/-- The states of the life of a node. -/
inductive Lifecycle
  | init
  | active
  | sealed
deriving DecidableEq

/-- How a state is shown. -/
def Lifecycle.str : Lifecycle → String
  | init => "INIT"
  | active => "ACTIVE"
  | sealed => "SEALED"

/-- The node.  The last field is the check of the constructor. -/
structure DistributedStateNode (R ω κ : Type*) [PyFloat R] where
  nodeId : String
  harness : FullStackHarness R ω κ
  logicalClock : ℤ
  seenEventIds : Finset String
  receivedLog : List (NetworkEvent R ω κ)
  lifecycle : Lifecycle
  nodeId_ne : nodeId ≠ ""

namespace DistributedStateNode

/-- The constructor, with the fresh id of the root reference of the harness. -/
def new (O : SetOrder) (nodeId : String) (initialAmplitudes : Dict String (PyComplex R))
    (rootId : String) : Except Raised (DistributedStateNode R ω κ) :=
  if h : nodeId = "" then .error ⟨.valueError, "node_id must be non-empty"⟩
  else
    match FullStackHarness.new O initialAmplitudes rootId with
    | .error exc => .error exc
    | .ok harness => .ok ⟨nodeId, harness, 0, ∅, [], .init, h⟩

/-- `_assert_active`. -/
def assertActive (node : DistributedStateNode R ω κ) : Except Raised Unit :=
  if node.lifecycle ≠ .active then
    .error ⟨.runtimeError, "Node '" ++ node.nodeId ++ "' is in state '" ++ node.lifecycle.str
      ++ "'. Only ACTIVE nodes may process events."⟩
  else .ok ()

/-- `activate`. -/
def activate (node : DistributedStateNode R ω κ) :
    Attempt (DistributedStateNode R ω κ) Unit :=
  if node.lifecycle ≠ .init then
    (node, .error ⟨.runtimeError, "Node '" ++ node.nodeId ++ "' already activated."⟩)
  else ({ node with lifecycle := .active }, .ok ())

/-- `observe`. -/
def observe (O : SetOrder) (ruleName : String) (matrix : Dict (String × String) (PyComplex R))
    (description : String) (node : DistributedStateNode R ω κ) :
    Attempt (DistributedStateNode R ω κ) Unit :=
  if node.lifecycle ≠ .init then
    (node, .error ⟨.runtimeError, "Node '" ++ node.nodeId
      ++ "': rules must be registered before activation."⟩)
  else
    let r := node.harness.defineUnitaryOperation O ruleName matrix description
    ({ node with harness := r.1 }, r.2)

/-- The event for the last event of the timeline, which the node notes as seen. -/
def emit (eventType : EventType) (node : DistributedStateNode R ω κ) :
    Attempt (DistributedStateNode R ω κ) (NetworkEvent R ω κ) :=
  match node.harness.system.timeline.events.getLast? with
  | none => (node, .error ⟨.other "IndexError", "tuple index out of range"⟩)
  | some causalEvent =>
    let eventId := eventIdOf node.nodeId node.logicalClock
    ({ node with seenEventIds := insert eventId node.seenEventIds },
      .ok ⟨eventId, node.nodeId, eventType, node.logicalClock, some causalEvent⟩)

/-- An operation of the node up to its broadcast: the clock ticks, then the harness performs
the operation, and if that returns, the node emits an event. -/
def originate {α : Type*} (eventType : EventType)
    (operation : FullStackHarness R ω κ → Attempt (FullStackHarness R ω κ) α)
    (node : DistributedStateNode R ω κ) :
    Attempt (DistributedStateNode R ω κ) (NetworkEvent R ω κ) :=
  match node.assertActive with
  | .error exc => (node, .error exc)
  | .ok () =>
    let node := { node with logicalClock := node.logicalClock + 1 }
    match operation node.harness with
    | (harness, .error exc) => ({ node with harness := harness }, .error exc)
    | (harness, .ok _) => emit eventType { node with harness := harness }

/-- `evolve`, up to the broadcast. -/
def evolve (ruleName : String) : DistributedStateNode R ω κ →
    Attempt (DistributedStateNode R ω κ) (NetworkEvent R ω κ) :=
  originate .evolution fun harness => harness.evolveDeterministic ruleName

/-- `measure`, up to the broadcast. -/
def measure (tokenId : String) (seed : ℤ) : DistributedStateNode R ω κ →
    Attempt (DistributedStateNode R ω κ) (NetworkEvent R ω κ) :=
  originate .collapse fun harness => harness.measureDeterministic tokenId seed

/-- `seal`, up to the broadcast. -/
def sealNode (reason : String) (node : DistributedStateNode R ω κ) :
    Attempt (DistributedStateNode R ω κ) (NetworkEvent R ω κ) :=
  match originate .sealing (fun harness => harness.sealTimeline reason) node with
  | (node, .error exc) => (node, .error exc)
  | (node, .ok netEvent) => ({ node with lifecycle := .sealed }, .ok netEvent)

/-- What a node does to its harness for an event that it has not seen. -/
def reapply (P : PayloadEnv R ω κ) (netEvent : NetworkEvent R ω κ)
    (harness : FullStackHarness R ω κ) : Attempt (FullStackHarness R ω κ) Unit :=
  match netEvent.eventType with
  | .evolution =>
    match (payloadOf netEvent.payload).bind P.ruleName with
    | .error exc => (harness, .error exc)
    | .ok ruleName =>
      let r := harness.evolveDeterministic ruleName
      (r.1, r.2.map fun _ => ())
  | .collapse =>
    match (payloadOf netEvent.payload).bind P.tokenAndSeed with
    | .error exc => (harness, .error exc)
    | .ok (tokenId, seed) =>
      let r := harness.measureDeterministic tokenId seed
      (r.1, r.2.map fun _ => ())
  | .sealing =>
    harness.sealTimeline
      ((netEvent.payload.map fun causalEvent => P.str causalEvent.payload).getD "remote_seal")
  | .other _ => (harness, .ok ())

/-- `receive_event`. -/
def receiveEvent (P : PayloadEnv R ω κ) (netEvent : NetworkEvent R ω κ)
    (node : DistributedStateNode R ω κ) : Attempt (DistributedStateNode R ω κ) Bool :=
  match node.assertActive with
  | .error exc => (node, .error exc)
  | .ok () =>
    if netEvent.eventId ∈ node.seenEventIds then (node, .ok false)
    else
      let node := { node with
        logicalClock := max node.logicalClock netEvent.logicalClock + 1
        seenEventIds := insert netEvent.eventId node.seenEventIds
        receivedLog := node.receivedLog ++ [netEvent] }
      -- the event counts as seen from here on, whether or not it can be applied
      let r := reapply P netEvent node.harness
      ({ node with harness := r.1 }, r.2.map fun _ => true)

/-- The current state of the node. -/
def state (node : DistributedStateNode R ω κ) : StateVector R :=
  node.harness.nogoLayer.stateEngine.state

/-- `state_hash`, for the digest of a text. -/
def stateHash (sha256 : String → String) (node : DistributedStateNode R ω κ) : String :=
  sha256 (String.join (node.state.asDict.sorted.entries.map fun p =>
    p.1 ++ "(" ++ PyFloat.fixed 8 p.2.re ++ "+" ++ PyFloat.fixed 8 p.2.im ++ "j)"))

/-! ### Building a node -/

/-- The loop that registers rules with a node. -/
def observeAll (O : SetOrder) : List (String × Dict (String × String) (PyComplex R) × String) →
    DistributedStateNode R ω κ → Except Raised (DistributedStateNode R ω κ)
  | [], node => .ok node
  | (ruleName, matrix, description) :: rest, node =>
    match node.observe O ruleName matrix description with
    | (_, .error exc) => .error exc
    | (node, .ok ()) => observeAll O rest node

/-- A node that is constructed, given rules, and activated. -/
def build (O : SetOrder) (nodeId : String) (initialAmplitudes : Dict String (PyComplex R))
    (rootId : String) (rules : List (String × Dict (String × String) (PyComplex R) × String)) :
    Except Raised (DistributedStateNode R ω κ) :=
  match new O nodeId initialAmplitudes rootId with
  | .error exc => .error exc
  | .ok node =>
    match observeAll O rules node with
    | .error exc => .error exc
    | .ok node =>
      match node.activate with
      | (_, .error exc) => .error exc
      | (node, .ok ()) => .ok node

/-- The node is built with the amplitudes and the rules, which are registered in some order. -/
def BuiltWith (O : SetOrder) (initialAmplitudes : Dict String (PyComplex R))
    (rules : List (String × Dict (String × String) (PyComplex R) × String))
    (node : DistributedStateNode R ω κ) : Prop :=
  ∃ nodeId rootId ruleList, (∀ rule, rule ∈ ruleList ↔ rule ∈ rules) ∧
    build O nodeId initialAmplitudes rootId ruleList = .ok node

/-- An active node to which nothing has happened yet. -/
structure Fresh (node : DistributedStateNode R ω κ) : Prop where
  lifecycle_eq : node.lifecycle = .active
  logicalClock_eq : node.logicalClock = 0
  seenEventIds_eq : node.seenEventIds = ∅

/-- **Giving a rule.**  A rule that is not refused is given to the harness. -/
theorem observe_ok {O : SetOrder} {ruleName description : String}
    {matrix : Dict (String × String) (PyComplex R)} {node node' : DistributedStateNode R ω κ}
    (h : node.observe O ruleName matrix description = (node', .ok ())) :
    ∃ harness, node.harness.defineUnitaryOperation O ruleName matrix description
      = (harness, .ok ()) ∧ node' = { node with harness := harness } := by
  rw [observe] at h
  by_cases hinit : node.lifecycle ≠ .init
  · simp [hinit] at h
  · rw [if_neg hinit] at h
    obtain ⟨hnode, hok⟩ := Prod.mk.inj h
    exact ⟨_, Prod.ext rfl hok, hnode.symm⟩

lemma observeAll_cons_ok {O : SetOrder}
    {rule : String × Dict (String × String) (PyComplex R) × String}
    {rest : List (String × Dict (String × String) (PyComplex R) × String)}
    {node node' : DistributedStateNode R ω κ} (h : observeAll O (rule :: rest) node = .ok node') :
    ∃ harness, node.harness.defineUnitaryOperation O rule.1 rule.2.1 rule.2.2 = (harness, .ok ()) ∧
      observeAll O rest { node with harness := harness } = .ok node' := by
  rw [observeAll] at h
  rcases hr : node.observe O rule.1 rule.2.1 rule.2.2 with ⟨next, exc | ⟨⟩⟩
  · simp [hr] at h
  · simp only [hr] at h
    obtain ⟨harness, hdefine, rfl⟩ := observe_ok hr
    exact ⟨harness, hdefine, h⟩

/-- The rules change nothing but the harness. -/
lemma observeAll_keeps {O : SetOrder}
    {rules : List (String × Dict (String × String) (PyComplex R) × String)}
    {node node' : DistributedStateNode R ω κ} (h : observeAll O rules node = .ok node') :
    node' = { node with harness := node'.harness } := by
  induction rules generalizing node with
  | nil => rw [← Except.ok.inj h]
  | cons rule rest ih =>
    obtain ⟨harness, -, hrest⟩ := observeAll_cons_ok h
    have hnode := ih hrest
    exact hnode

/-- **Building.**  The harness of a node that is built is a new one that the rules are given to,
and nothing has happened to the node. -/
theorem build_ok {O : SetOrder} {nodeId rootId : String}
    {initialAmplitudes : Dict String (PyComplex R)}
    {rules : List (String × Dict (String × String) (PyComplex R) × String)}
    {node : DistributedStateNode R ω κ}
    (h : build O nodeId initialAmplitudes rootId rules = .ok node) :
    node.Fresh ∧ ∃ built : DistributedStateNode R ω κ,
      FullStackHarness.new O initialAmplitudes rootId = .ok built.harness ∧
      ∃ ruled, observeAll O rules built = .ok ruled ∧ ruled.harness = node.harness := by
  rw [build, new] at h
  by_cases hid : nodeId = ""
  · simp [hid] at h
  · rw [dif_neg hid] at h
    cases hharness : FullStackHarness.new (ω := ω) (κ := κ) O initialAmplitudes rootId with
    | error exc => simp [hharness] at h
    | ok harness =>
      simp only [hharness] at h
      cases hruled : observeAll O rules ⟨nodeId, harness, 0, ∅, [], .init, hid⟩ with
      | error exc => simp [hruled] at h
      | ok ruled =>
        have hnode := observeAll_keeps hruled
        simp only [hruled] at h
        have hinit : ruled.lifecycle = .init := by rw [hnode]
        rw [activate, if_neg (not_not.mpr hinit)] at h
        rw [← Except.ok.inj h]
        refine ⟨⟨rfl, ?_, ?_⟩, _, rfl, ruled, hruled, rfl⟩
        · show ruled.logicalClock = 0
          rw [hnode]
        · show ruled.seenEventIds = ∅
          rw [hnode]

lemma BuiltWith.fresh {O : SetOrder} {initialAmplitudes : Dict String (PyComplex R)}
    {rules : List (String × Dict (String × String) (PyComplex R) × String)}
    {node : DistributedStateNode R ω κ} (h : node.BuiltWith O initialAmplitudes rules) :
    node.Fresh := by
  obtain ⟨nodeId, rootId, ruleList, -, hbuild⟩ := h
  exact (build_ok hbuild).1

end DistributedStateNode

end QuantumFoundation.Network
