import QuantumFoundation.Network.Alike
import QuantumFoundation.Network.Clocks

/-!
# When the active nodes agree

The nodes of a bus that are built alike agree at first.  An evolution that changes the state of its
node is the only call that can part them: a peer that is not active refuses the event, which ends
the delivery, and the active peers behind it stay where they were.
-/

namespace QuantumFoundation.Network

open Network.DistributedStateNode

variable {R ω κ : Type*} [PyFloat R]

namespace NodeNetwork

variable {P : PayloadEnv R ω κ} {rules : String → Option (TransitionRule R ω)}
  {net : NodeNetwork R ω κ}

/-- All nodes that are active look the same through `f`. -/
def ActiveAgree {β : Type*} (f : DistributedStateNode R ω κ → β) (net : NodeNetwork R ω κ) : Prop :=
  ∀ a ∈ net.nodes, ∀ b ∈ net.nodes, a.lifecycle = .active → b.lifecycle = .active → f a = f b

/-- If the call changes the state of its node, no active peer is registered behind a peer that is
not active. -/
def Reaches (rules : String → Option (TransitionRule R ω)) (net : NodeNetwork R ω κ)
    (c : ℕ × NodeCall) : Prop :=
  ∀ node, net.nodes[c.1]? = some node → node.lifecycle = .active →
    c.2.target rules node.state ≠ node.state →
    (net.nodes.filter (·.nodeId ≠ node.nodeId)).Pairwise fun first behind =>
      first.lifecycle ≠ .active → behind.lifecycle ≠ .active

/-! ### Delivery -/

section

variable {netEvent : NetworkEvent R ω κ} {node : DistributedStateNode R ω κ}

lemma deliver_cons_of_origin (h : node.nodeId = netEvent.originNode)
    (rest : List (DistributedStateNode R ω κ)) :
    (deliver P netEvent (node :: rest)).1 = node :: (deliver P netEvent rest).1 := by
  rw [deliver, if_neg (not_not.mpr h)]

lemma deliver_cons_of_ok (h : node.nodeId ≠ netEvent.originNode)
    (hok : (node.receiveEvent P netEvent).2.isOk = true)
    (rest : List (DistributedStateNode R ω κ)) :
    (deliver P netEvent (node :: rest)).1
      = (node.receiveEvent P netEvent).1 :: (deliver P netEvent rest).1 := by
  rw [deliver, if_pos h]
  rcases hr : node.receiveEvent P netEvent with ⟨node', exc | b⟩
  · simp [hr, Except.isOk, Except.toBool] at hok
  · rfl

lemma deliver_cons_of_not_active (h : node.nodeId ≠ netEvent.originNode)
    (hnot : node.lifecycle ≠ .active) (rest : List (DistributedStateNode R ω κ)) :
    (deliver P netEvent (node :: rest)).1 = node :: rest := by
  obtain ⟨exc, hr⟩ := receiveEvent_of_not_active P netEvent hnot
  rw [deliver, if_pos h, hr]

/-- The origin is passed over. -/
lemma mem_deliver_of_origin (h : node.nodeId = netEvent.originNode)
    {nodes : List (DistributedStateNode R ω κ)} (hmem : node ∈ nodes) :
    node ∈ (deliver P netEvent nodes).1 := by
  induction nodes with
  | nil => exact hmem
  | cons first rest ih =>
    by_cases horigin : first.nodeId = netEvent.originNode
    · rw [deliver_cons_of_origin horigin]
      exact (List.mem_cons.mp hmem).elim (fun heq => heq ▸ List.mem_cons_self)
        fun hrest => List.mem_cons_of_mem _ (ih hrest)
    · have hrest : node ∈ rest :=
        (List.mem_cons.mp hmem).resolve_left fun heq => horigin (heq ▸ h)
      rw [deliver, if_pos horigin]
      rcases first.receiveEvent P netEvent with ⟨first', exc | b⟩
      · exact List.mem_cons_of_mem _ hrest
      · exact List.mem_cons_of_mem _ (ih hrest)

/-- **Delivery of a change.**  An event that takes the active peers to another state takes all of
them there exactly if no active peer is behind one that is not active. -/
theorem deliver_agree_iff {t : StateVector R} {nodes : List (DistributedStateNode R ω κ)}
    (horigin : ∀ node ∈ nodes, node.nodeId = netEvent.originNode → node.state = t)
    (hpeer : ∀ node ∈ nodes, node.nodeId ≠ netEvent.originNode → node.lifecycle = .active →
      (node.receiveEvent P netEvent).2.isOk = true ∧
        (node.receiveEvent P netEvent).1.state = t ∧ node.state ≠ t) :
    (∀ node ∈ (deliver P netEvent nodes).1, node.lifecycle = .active → node.state = t) ↔
      (nodes.filter (·.nodeId ≠ netEvent.originNode)).Pairwise fun first behind =>
        first.lifecycle ≠ .active → behind.lifecycle ≠ .active := by
  induction nodes with
  | nil => simp [deliver]
  | cons first rest ih =>
    rw [List.forall_mem_cons] at horigin hpeer
    have ih := ih horigin.2 hpeer.2
    by_cases hfirst : first.nodeId = netEvent.originNode
    · -- the origin has taken the step itself
      rw [deliver_cons_of_origin hfirst, List.forall_mem_cons, ih,
        List.filter_cons_of_neg (by simpa using hfirst)]
      exact and_iff_right fun _ => horigin.1 hfirst
    · rw [List.filter_cons_of_pos (by simpa using hfirst), List.pairwise_cons]
      by_cases hactive : first.lifecycle = .active
      · obtain ⟨hok, hstate, -⟩ := hpeer.1 hfirst hactive
        rw [deliver_cons_of_ok hfirst hok, List.forall_mem_cons, ih]
        exact and_congr ⟨fun _ _ _ hnot => absurd hactive hnot, fun _ _ => hstate⟩ Iff.rfl
      · -- the delivery ends here, and the active peers behind keep their old state
        rw [deliver_cons_of_not_active hfirst hactive, List.forall_mem_cons]
        constructor
        · rintro ⟨-, hrest⟩
          have hnone : ∀ node ∈ rest.filter (·.nodeId ≠ netEvent.originNode),
              node.lifecycle ≠ .active := by
            intro node hnode hnode_active
            obtain ⟨hmem, hne⟩ := List.mem_filter.mp hnode
            exact (hpeer.2 node hmem (by simpa using hne) hnode_active).2.2
              (hrest node hmem hnode_active)
          exact ⟨fun node hnode _ => hnone node hnode,
            List.pairwise_of_forall_mem_list fun _ _ node hnode _ => hnone node hnode⟩
        · rintro ⟨hnone, -⟩
          refine ⟨fun h => absurd h hactive, fun node hmem hnode_active => ?_⟩
          by_contra hstate
          have hne : node.nodeId ≠ netEvent.originNode := fun heq =>
            hstate (horigin.2 node hmem heq)
          exact hnone node (List.mem_filter.mpr ⟨hmem, by simpa using hne⟩) hactive hnode_active

end

/-! ### One call -/

/-- The invariant of every run of nodes with the rules. -/
structure Alike (rules : String → Option (TransitionRule R ω)) (net : NodeNetwork R ω κ) : Prop
    extends LogSound net where
  governed : ∀ node ∈ net.nodes, node.Governed rules

/-- What a delivery makes of a node. -/
lemma handle_governed (hone : ¬(1 : R) < 1) {node : DistributedStateNode R ω κ}
    (h : node.Governed rules) (netEvent : NetworkEvent R ω κ) :
    (handle P netEvent node).Governed rules ∧
      ((handle P netEvent node).lifecycle = node.lifecycle) ∧
      ((handle P netEvent node).state = node.state ∨
        node.lifecycle = .active ∧
          (handle P netEvent node).state = netEvent.effect P rules node.state) := by
  by_cases hpeer : node.nodeId = netEvent.originNode
  · rw [handle_of_origin hpeer]
    exact ⟨h, rfl, Or.inl rfl⟩
  · obtain ⟨hgoverned, hstate⟩ := h.receiveEvent (P := P) hone netEvent
    rw [handle_of_peer hpeer]
    refine ⟨hgoverned, lifecycle_receiveEvent P netEvent node, ?_⟩
    split at hstate
    · next hnew => exact Or.inr ⟨hnew.1, hstate⟩
    · exact Or.inl hstate

/-- A node after a call is one from before; and if its state has changed, then into the target of
the call, at an active node. -/
def ComesFrom (rules : String → Option (TransitionRule R ω)) (net : NodeNetwork R ω κ)
    (c : ℕ × NodeCall) (b : DistributedStateNode R ω κ) : Prop :=
  ∃ a ∈ net.nodes, (b.lifecycle = .active → a.lifecycle = .active) ∧
    (b.state = a.state ∨ a.lifecycle = .active ∧ b.state = c.2.target rules a.state ∧
      ∃ node, net.nodes[c.1]? = some node ∧ node.lifecycle = .active)

/-- **Step lemma.** -/
theorem Alike.mem_perform (hone : ¬(1 : R) < 1) (h : Alike rules net) {c : ℕ × NodeCall}
    {b : DistributedStateNode R ω κ} (hb : b ∈ (net.perform P c).nodes) :
    b.Governed rules ∧ ComesFrom rules net c b := by
  have hkept : ∀ a ∈ net.nodes, a.Governed rules ∧ ComesFrom rules net c a := fun a ha =>
    ⟨h.governed a ha, a, ha, id, Or.inl rfl⟩
  rw [perform] at hb
  rcases net.call_cases P c with ⟨-, hcall⟩ | ⟨node, hnode, hcalled⟩
  · rw [hcall] at hb
    exact hkept b hb
  · have hmem : node ∈ net.nodes := List.mem_of_getElem? hnode
    obtain ⟨hgoverned, hstate⟩ := c.2.run_governed hone (h.governed node hmem)
    -- the node that is called
    have hself : ((c.2.run node).1.lifecycle = .active → node.lifecycle = .active) →
        (c.2.run node).1.Governed rules ∧ ComesFrom rules net c (c.2.run node).1 := by
      intro hlifecycle
      refine ⟨hgoverned, node, hmem, hlifecycle, ?_⟩
      split at hstate
      · next hactive => exact Or.inr ⟨hactive, hstate, node, hnode, hactive⟩
      · exact Or.inl hstate
    rcases hcalled with ⟨node', exc, hr, hcall, -, hlifecycle⟩ |
      ⟨node', netEvent, hr, hcall, hemits, hadv, -, hactive, -⟩
    · rw [hcall] at hb
      rw [hr] at hself
      rcases List.mem_or_eq_of_mem_set hb with hb | rfl
      · exact hkept b hb
      · exact hself fun hb => hlifecycle ▸ hb
    · have htells := (NodeCall.run_ok (P := P) hone (h.governed node hmem) hr).1
      rw [hcall, route] at hb
      rw [hr] at hself
      obtain ⟨a, ha, hba⟩ := mem_deliver hb
      rcases Run.mem_set_cases_of_nodup h.distinct hnode ha with rfl | ⟨ha, -⟩
      · -- the delivery passes over the origin
        rw [handle_of_origin (hadv.nodeId_eq.trans hemits.originNode_eq.symm), or_self] at hba
        rw [hba]
        exact hself fun _ => hactive
      · rcases hba with rfl | rfl
        · exact hkept b ha
        · obtain ⟨hgov, hlife, hstate'⟩ :=
            handle_governed (P := P) hone (h.governed a ha) netEvent
          rw [htells.effect_eq] at hstate'
          refine ⟨hgov, a, ha, fun hb => hlife ▸ hb, ?_⟩
          exact hstate'.imp id fun hpeer => ⟨hpeer.1, hpeer.2, node, hnode, hactive⟩

/-- **Step lemma.** -/
theorem Alike.perform (hone : ¬(1 : R) < 1) (h : Alike rules net) (P : PayloadEnv R ω κ)
    (c : ℕ × NodeCall) : Alike rules (net.perform P c) :=
  ⟨h.toLogSound.perform P c, fun _ hb => (h.mem_perform hone hb).1⟩

/-- A call that leaves the state of its node as it is leaves all states as they are. -/
lemma agree_of_target_eq (hone : ¬(1 : R) < 1) (h : Alike rules net)
    (hagree : net.ActiveAgree (·.state)) {c : ℕ × NodeCall}
    (hquiet : ∀ node, net.nodes[c.1]? = some node → node.lifecycle = .active →
      c.2.target rules node.state = node.state) :
    (net.perform P c).ActiveAgree (·.state) := by
  have hsame : ∀ b ∈ (net.perform P c).nodes, b.lifecycle = .active →
      ∃ a ∈ net.nodes, a.lifecycle = .active ∧ b.state = a.state := by
    intro b hb hb_active
    obtain ⟨-, a, ha, hlifecycle, hstate⟩ := h.mem_perform hone hb
    refine ⟨a, ha, hlifecycle hb_active, ?_⟩
    rcases hstate with hstate | ⟨ha_active, hstate, node, hnode, hactive⟩
    · exact hstate
    · have hnode_eq : a.state = node.state :=
        hagree a ha node (List.mem_of_getElem? hnode) ha_active hactive
      rw [hstate, hnode_eq, hquiet node hnode hactive]
  intro b hb b' hb' hb_active hb'_active
  obtain ⟨a, ha, ha_active, hstate⟩ := hsame b hb hb_active
  obtain ⟨a', ha', ha'_active, hstate'⟩ := hsame b' hb' hb'_active
  exact hstate.trans ((hagree a ha a' ha' ha_active ha'_active).trans hstate'.symm)

/-- The peers that an event reaches do not depend on the states. -/
lemma pairwise_peers_set {nodes : List (DistributedStateNode R ω κ)} {i : ℕ}
    {node node' : DistributedStateNode R ω κ} (hnode : nodes[i]? = some node)
    (hid : node'.nodeId = node.nodeId) (hlifecycle : node'.lifecycle = node.lifecycle)
    (origin : String) :
    (((nodes.set i node').filter (·.nodeId ≠ origin)).Pairwise fun first behind =>
        first.lifecycle ≠ .active → behind.lifecycle ≠ .active) ↔
      (nodes.filter (·.nodeId ≠ origin)).Pairwise fun first behind =>
        first.lifecycle ≠ .active → behind.lifecycle ≠ .active := by
  have hmap := Run.map_set_of_eq (f := fun node => (node.nodeId, node.lifecycle)) hnode
    (Prod.ext hid hlifecycle)
  have hpeers : ∀ l : List (DistributedStateNode R ω κ),
      ((l.filter (·.nodeId ≠ origin)).Pairwise fun first behind =>
        first.lifecycle ≠ .active → behind.lifecycle ≠ .active) ↔
      (l.map fun node => (node.nodeId, node.lifecycle)).Pairwise fun first behind =>
        first.1 ≠ origin → behind.1 ≠ origin → first.2 ≠ .active → behind.2 ≠ .active := by
    intro l
    simp only [List.pairwise_filter, List.pairwise_map, decide_eq_true_eq]
  rw [hpeers, hpeers, hmap]

/-- A peer that agrees with the origin follows it when it is handed the event. -/
lemma Alike.peer_follows (hone : ¬(1 : R) < 1) (h : Alike rules net)
    {node a : DistributedStateNode R ω κ} {netEvent : NetworkEvent R ω κ}
    (hmem : node ∈ net.nodes) (ha : a ∈ net.nodes) (hemits : node.Emits netEvent)
    {ruleName : String} (htells : (NodeCall.evolve ruleName).Tells P netEvent)
    (hsome : (evolvedBy rules ruleName node.state).isSome = true)
    (hactive : a.lifecycle = .active) (hsame : a.state = node.state) :
    (a.receiveEvent P netEvent).2.isOk = true ∧ (a.receiveEvent P netEvent).1.state
      = (NodeCall.evolve ruleName).target rules node.state := by
  have hnew := h.not_seen hmem ha hemits
  have hgoverned := h.governed a ha
  obtain ⟨-, heffect⟩ := hgoverned.receiveEvent (P := P) hone netEvent
  rw [if_pos ⟨hactive, hnew⟩, htells.effect_eq, hsame] at heffect
  exact ⟨hgoverned.receiveEvent_isOk hone hactive hnew htells.1 htells.2 (hsame ▸ hsome), heffect⟩

/-- An evolution that changes the state of its node takes the active nodes to a common state
exactly if no active peer is behind one that is not active. -/
lemma agree_of_evolved_iff (hone : ¬(1 : R) < 1) (h : Alike rules net)
    (hagree : net.ActiveAgree (·.state)) {c : ℕ × NodeCall} {ruleName : String}
    (hcall : c.2 = .evolve ruleName) {node node' : DistributedStateNode R ω κ}
    (hnode : net.nodes[c.1]? = some node) (hactive : node.lifecycle = .active)
    {netEvent : NetworkEvent R ω κ} (hr : c.2.run node = (node', .ok netEvent))
    (hchanges : c.2.target rules node.state ≠ node.state) :
    (net.perform P c).ActiveAgree (·.state) ↔
      (net.nodes.filter (·.nodeId ≠ node.nodeId)).Pairwise fun first behind =>
        first.lifecycle ≠ .active → behind.lifecycle ≠ .active := by
  have hmem : node ∈ net.nodes := List.mem_of_getElem? hnode
  obtain ⟨-, hstate⟩ := c.2.run_governed hone (h.governed node hmem)
  rw [if_pos hactive, hr] at hstate
  obtain ⟨htells, hsome⟩ := NodeCall.run_ok (P := P) hone (h.governed node hmem) hr
  rcases c.2.run_cases node with
    ⟨_, _, hr', -⟩ | ⟨_, _, hr', hemits, hadv, -, -, hlifecycle⟩
  · exact absurd (congrArg Prod.snd (hr.symm.trans hr')) (by simp)
  obtain ⟨rfl, hevent⟩ := Prod.mk.inj (hr.symm.trans hr')
  obtain rfl := Except.ok.inj hevent
  have hid : node'.nodeId = netEvent.originNode :=
    hadv.nodeId_eq.trans hemits.originNode_eq.symm
  have hactive' : node'.lifecycle = .active := by simpa [hcall] using hlifecycle
  have horigin : ∀ a ∈ net.nodes.set c.1 node', a.nodeId = netEvent.originNode →
      a.state = c.2.target rules node.state := by
    intro a ha heq
    rcases Run.mem_set_cases_of_nodup h.distinct hnode ha with rfl | ⟨-, hne⟩
    · exact hstate
    · exact absurd (heq.trans hemits.originNode_eq) hne
  have hpeer : ∀ a ∈ net.nodes.set c.1 node', a.nodeId ≠ netEvent.originNode →
      a.lifecycle = .active → (a.receiveEvent P netEvent).2.isOk = true ∧
        (a.receiveEvent P netEvent).1.state = c.2.target rules node.state ∧
        a.state ≠ c.2.target rules node.state := by
    intro a ha hne ha_active
    rcases Run.mem_set_cases_of_nodup h.distinct hnode ha with rfl | ⟨ha, -⟩
    · exact absurd hid hne
    · have hsame : a.state = node.state := hagree a ha node hmem ha_active hactive
      rw [hcall] at htells hchanges ⊢
      obtain ⟨hok, hstate⟩ := h.peer_follows hone hmem ha hemits htells (hsome ruleName hcall)
        ha_active hsame
      exact ⟨hok, hstate, hsame ▸ hchanges.symm⟩
  have hperform : (net.perform P c).nodes
      = (deliver P netEvent (net.nodes.set c.1 node')).1 := by
    simp only [NodeNetwork.perform, call, hnode, hr, route]
  rw [← pairwise_peers_set hnode hadv.nodeId_eq (hactive'.trans hactive.symm),
    ← hemits.originNode_eq, ← deliver_agree_iff horigin hpeer, ← hperform]
  -- the origin is one of the nodes that agree
  have hin : node' ∈ (net.perform P c).nodes :=
    hperform ▸ mem_deliver_of_origin hid
      (List.mem_set (List.getElem?_eq_some_iff.mp hnode).1 node')
  constructor
  · intro hall b hb hb_active
    exact (hall b hb node' hin hb_active hactive').trans hstate
  · intro hall a ha b hb ha_active hb_active
    exact (hall a ha ha_active).trans (hall b hb hb_active).symm

/-- **Exact condition of one call.**  Active nodes that agree still agree after a call exactly if
it reaches all of them, or changes nothing. -/
theorem agree_perform_iff (hone : ¬(1 : R) < 1) (h : Alike rules net)
    (hagree : net.ActiveAgree (·.state)) (c : ℕ × NodeCall) :
    (net.perform P c).ActiveAgree (·.state) ↔ Reaches rules net c := by
  by_cases hquiet : ∀ node, net.nodes[c.1]? = some node → node.lifecycle = .active →
      c.2.target rules node.state = node.state
  · refine iff_of_true (agree_of_target_eq hone h hagree hquiet) ?_
    intro node hnode hactive hchanges
    exact absurd (hquiet node hnode hactive) hchanges
  · push Not at hquiet
    obtain ⟨node, hnode, hactive, hchanges⟩ := hquiet
    -- only an evolution changes the state, and it has been announced
    obtain ⟨ruleName, hcall⟩ : ∃ ruleName, c.2 = .evolve ruleName := by
      cases hc : c.2 with
      | evolve ruleName => exact ⟨ruleName, rfl⟩
      | _ => exact absurd (by rw [hc]; rfl) hchanges
    rcases hr : c.2.run node with ⟨node', exc | netEvent⟩
    · have hgoverned := h.governed node (List.mem_of_getElem? hnode)
      exact absurd (NodeCall.target_of_error hone hgoverned hactive hr) hchanges
    · rw [agree_of_evolved_iff hone h hagree hcall hnode hactive hr hchanges]
      refine ⟨fun hpairs node' hnode' _ _ => ?_, fun hr => hr node hnode hactive hchanges⟩
      rw [hnode] at hnode'
      rwa [← Option.some.inj hnode']

/-! ### Every run -/

/-- The hash of a node is a function of its state. -/
lemma ActiveAgree.stateHash (h : net.ActiveAgree (·.state)) (sha256 : String → String) :
    net.ActiveAgree (·.stateHash sha256) := by
  intro a ha b hb ha_active hb_active
  have hstate : a.state = b.state := h a ha b hb ha_active hb_active
  show a.stateHash sha256 = b.stateHash sha256
  rw [DistributedStateNode.stateHash, DistributedStateNode.stateHash, hstate]

/-- **When the active nodes agree.**  The active nodes of a bus whose nodes are built alike are in
the same state after every call exactly if every call that changes a state reaches all of them, and
then their hashes are equal. -/
theorem active_nodes_agree (hone : ¬(1 : R) < 1) (P : PayloadEnv R ω κ) {O : SetOrder}
    {initialAmplitudes : Dict String (PyComplex R)}
    {rules : List (String × Dict (String × String) (PyComplex R) × String)}
    {nodes : List (DistributedStateNode R ω κ)}
    (hbuilt : ∀ node ∈ nodes, node.BuiltWith O initialAmplitudes rules)
    (hnet : registerAll nodes new = .ok net) (calls : List (ℕ × NodeCall)) :
    ((∀ bs, bs <+: calls → (Run.exec (NodeNetwork.perform P) net bs).ActiveAgree (·.state)) ↔
      Run.Along (NodeNetwork.perform P) (Reaches (ruleOf O rules)) net calls) ∧
    ∀ sha256, Run.Along (NodeNetwork.perform P) (Reaches (ruleOf O rules)) net calls →
      ∀ bs, bs <+: calls →
        (Run.exec (NodeNetwork.perform P) net bs).ActiveAgree (·.stateHash sha256) := by
  obtain ⟨hsound, rfl⟩ := logSound_of_registerAll (fun node hnode => (hbuilt node hnode).fresh) hnet
  have halike : Alike (ruleOf O rules) (⟨nodes, []⟩ : NodeNetwork R ω κ) :=
    ⟨hsound, fun node hnode => (hbuilt node hnode).governed.1⟩
  have hagree : (⟨nodes, []⟩ : NodeNetwork R ω κ).ActiveAgree (·.state) := by
    intro a ha b hb _ _
    exact Except.ok.inj ((hbuilt a ha).governed.2.symm.trans (hbuilt b hb).governed.2)
  have hiff : (∀ bs, bs <+: calls →
      (Run.exec (NodeNetwork.perform P) ⟨nodes, []⟩ bs).ActiveAgree (·.state)) ↔ _ :=
    Run.forall_prefix_iff_along (I := fun _ net => Alike (ruleOf O rules) net)
      (Q := fun _ net => net.ActiveAgree (·.state)) halike hagree
      (fun _ c _ h => h.perform hone P c) (fun _ c _ h hq => agree_perform_iff hone h hq c) calls
  exact ⟨hiff, fun sha256 halong bs hbs => (hiff.mpr halong bs hbs).stateHash sha256⟩

/-- The condition holds if no active node at all is behind one that is not active. -/
lemma reaches_of_pairwise (h : net.nodes.Pairwise fun first behind =>
      first.lifecycle ≠ .active → behind.lifecycle ≠ .active)
    (rules : String → Option (TransitionRule R ω)) (c : ℕ × NodeCall) : Reaches rules net c :=
  fun _ _ _ _ => h.sublist List.filter_sublist

/-- When the last node has been sealed, an evolution raises, and the active nodes agree. -/
theorem last_node_sealed :
    ∃ net, flipNetwork ketZeroAmplitudes = .ok net ∧
      ∀ bs, bs <+: [(2, .sealNode "done"), (0, .evolve "X")] → ∀ sha256,
        (Run.exec (NodeNetwork.perform plainEnv) net bs).ActiveAgree (·.stateHash sha256) := by
  obtain ⟨net, hnet⟩ : ∃ net, flipNetwork ketZeroAmplitudes = .ok net :=
    exists_of_isSome (by decide +kernel)
  obtain ⟨nodes, hregistered, hbuilt⟩ := flipNetwork_ok hnet
  have hactive : (flipNetwork ketZeroAmplitudes).toOption.map (fun net =>
      decide ((net.perform plainEnv (2, .sealNode "done")).nodes.Pairwise fun first behind =>
        first.lifecycle ≠ .active → behind.lifecycle ≠ .active)) = some true := by decide +kernel
  have hpairs := of_map_decide hactive hnet
  have hreaches : Run.Along (NodeNetwork.perform plainEnv)
      (Reaches (ruleOf .lastInsertion [("X", flipMatrix, "Pauli-X Gate")])) net
      [(2, .sealNode "done"), (0, .evolve "X")] := by
    refine ⟨fun node _ _ hchanges => absurd rfl hchanges, ?_, trivial⟩
    exact reaches_of_pairwise hpairs _ _
  exact ⟨net, hnet, fun bs hbs sha256 =>
    (active_nodes_agree (lt_irrefl 1) plainEnv hbuilt hregistered _).2 sha256 hreaches bs hbs⟩

/-- When the second of three nodes has been sealed, an evolution of the first raises, and does not
reach the third, which is as active as the first and has another hash from then on. -/
theorem second_node_sealed :
    ∃ net, flipNetwork ketZeroAmplitudes = .ok net ∧ ∀ sha256, sha256.Injective →
      ¬(Run.exec (NodeNetwork.perform plainEnv) net
        [(1, .sealNode "done"), (0, .evolve "X")]).ActiveAgree (·.stateHash sha256) := by
  obtain ⟨net, hnet⟩ : ∃ net, flipNetwork ketZeroAmplitudes = .ok net :=
    exists_of_isSome (by decide +kernel)
  have htexts : (flipNetwork ketZeroAmplitudes).toOption.map (fun net =>
      decide ((Run.exec (NodeNetwork.perform plainEnv) net
        [(1, .sealNode "done"), (0, .evolve "X")]).nodes.map
          (fun node => (node.lifecycle, node.stateHash id))
        = [(.active, "0(0+0j)1(1+0j)"), (.sealed, "0(1+0j)1(0+0j)"),
          (.active, "0(1+0j)1(0+0j)")])) = some true := by decide +kernel
  refine ⟨net, hnet, fun sha256 hinj hagree => ?_⟩
  have htexts := of_map_decide htexts hnet
  have hmem : ∀ {lifecycle text}, (lifecycle, text) ∈ [(Lifecycle.active, "0(0+0j)1(1+0j)"),
      (.sealed, "0(1+0j)1(0+0j)"), (.active, "0(1+0j)1(0+0j)")] →
      ∃ node ∈ (Run.exec (NodeNetwork.perform plainEnv) net
        [(1, .sealNode "done"), (0, .evolve "X")]).nodes,
        node.lifecycle = lifecycle ∧ node.stateHash id = text := by
    intro lifecycle text hin
    rw [← htexts] at hin
    obtain ⟨node, hnode, heq⟩ := List.mem_map.mp hin
    exact ⟨node, hnode, congrArg Prod.fst heq, congrArg Prod.snd heq⟩
  obtain ⟨a, ha, ha_active, ha_text⟩ := hmem List.mem_cons_self
  obtain ⟨b, hb, hb_active, hb_text⟩ := hmem (List.getLast_mem (List.cons_ne_nil _ _))
  have hsame : a.stateHash id = b.stateHash id := hinj (hagree a ha b hb ha_active hb_active)
  rw [ha_text, hb_text] at hsame
  exact absurd hsame (by decide)

end NodeNetwork

end QuantumFoundation.Network
