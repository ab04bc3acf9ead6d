import QuantumFoundation.Network.Bus

/-!
# The ids and the clocks of the events

Over every run of a bus, also one whose calls raise, the log accounts for every id that a node has
seen, and so no node has seen the id of the next event of a node.  While every call is an evolution
or a measurement that returns, an event reaches every node: no clock is behind the last event, and
the clocks of the events increase.
-/

namespace QuantumFoundation.Network

open Network.DistributedStateNode

variable {R ω κ : Type*} [PyFloat R]

/-- The ids of events tell the origins and the clocks apart. -/
lemma eventIdOf_inj {a b : String} {i j : ℤ} (h : eventIdOf a i = eventIdOf b j) :
    a = b ∧ i = j := by
  have hcolon : ∀ k : ℤ, ':' ∉ (toString k).toList :=
    not_mem_toString_int (by decide) (by decide)
  obtain ⟨hid, hclock⟩ := append_separator_inj (by simp) (hcolon i) (hcolon j) h
  exact ⟨hid, toString_int_inj hclock⟩

namespace NodeNetwork

variable {P : PayloadEnv R ω κ} {net net' : NodeNetwork R ω κ}

/-! ### What a call logs -/

/-- What a call keeps of the bus, if it logs the events. -/
structure Extends (events : List (NetworkEvent R ω κ)) (net net' : NodeNetwork R ω κ) : Prop where
  log_eq : net'.globalEventLog = net.globalEventLog ++ events
  ids_eq : net'.nodes.map (·.nodeId) = net.nodes.map (·.nodeId)
  advances : ∀ node' ∈ net'.nodes, ∃ node ∈ net.nodes,
    Advances (events.map (·.eventId)).toFinset node node'
  named : ∀ e ∈ events, e.eventId = eventIdOf e.originNode e.logicalClock
  clocks : ∀ e ∈ events, ∀ node ∈ net'.nodes, node.nodeId = e.originNode →
    e.logicalClock ≤ node.logicalClock

/-- **Step lemma.**  Every call logs at most the event that its node emits. -/
theorem extends_perform (P : PayloadEnv R ω κ) (hnodup : (net.nodes.map (·.nodeId)).Nodup)
    (c : ℕ × NodeCall) : ∃ events, Extends events net (net.perform P c) := by
  rw [perform]
  rcases net.call_cases P c with ⟨-, hcall⟩ | ⟨node, hnode, hcalled⟩
  · rw [hcall]
    exact ⟨[], by simp, rfl, fun node h => ⟨node, h, .refl _ node⟩, by simp, by simp⟩
  · have hmem : node ∈ net.nodes := List.mem_of_getElem? hnode
    rcases hcalled with
      ⟨node', exc, -, hcall, hadv, -⟩ | ⟨node', netEvent, -, hcall, hemits, hadv, hclock, -⟩
    · -- the node may have changed, but nothing is logged
      rw [hcall]
      refine ⟨[], by simp, Run.map_set_of_eq hnode hadv.nodeId_eq, ?_, by simp, by simp⟩
      intro b hb
      rcases Run.mem_set_cases_of_nodup hnodup hnode hb with rfl | ⟨hb, -⟩
      · exact ⟨node, hmem, hadv⟩
      · exact ⟨b, hb, .refl _ b⟩
    · rw [hcall, route]
      have hreached : ∀ b ∈ (deliver P netEvent (net.nodes.set c.1 node')).1,
          ∃ a ∈ net.nodes.set c.1 node', Advances {netEvent.eventId} a b := by
        intro b hb
        obtain ⟨a, ha, rfl | rfl⟩ := mem_deliver hb
        · exact ⟨b, ha, .refl _ b⟩
        · exact ⟨a, ha, advances_handle a⟩
      refine ⟨[netEvent], rfl, ?_, ?_, ?_, ?_⟩
      · exact (map_nodeId_deliver _).trans (Run.map_set_of_eq hnode hadv.nodeId_eq)
      · intro b hb
        obtain ⟨a, ha, hab⟩ := hreached b hb
        rcases Run.mem_set_cases_of_nodup hnodup hnode ha with rfl | ⟨ha, -⟩
        · exact ⟨node, hmem, hadv.trans hab⟩
        · exact ⟨a, ha, hab⟩
      · intro e he
        rw [List.mem_singleton.mp he, hemits.eventId_eq, hemits.originNode_eq,
          hemits.logicalClock_eq]
      · intro e he b hb horigin
        rw [List.mem_singleton.mp he] at horigin ⊢
        obtain ⟨a, ha, hab⟩ := hreached b hb
        rcases Run.mem_set_cases_of_nodup hnodup hnode ha with rfl | ⟨-, hne⟩
        · exact hclock.symm.le.trans hab.clock_le
        · -- only the origin has its id
          exact absurd (hab.nodeId_eq.symm.trans (horigin.trans hemits.originNode_eq)) hne

/-! ### Every run -/

/-- The invariant of every run: the log accounts for all ids, and the clock of a node is never
behind an event of its own. -/
structure LogSound (net : NodeNetwork R ω κ) : Prop where
  distinct : (net.nodes.map (·.nodeId)).Nodup
  named : ∀ e ∈ net.globalEventLog, e.eventId = eventIdOf e.originNode e.logicalClock
  seen : ∀ node ∈ net.nodes, ∀ t ∈ node.seenEventIds, ∃ e ∈ net.globalEventLog, e.eventId = t
  clocks : ∀ e ∈ net.globalEventLog, ∀ node ∈ net.nodes, node.nodeId = e.originNode →
    e.logicalClock ≤ node.logicalClock

namespace LogSound

lemma of_extends {events : List (NetworkEvent R ω κ)} (h : LogSound net)
    (hext : Extends events net net') : LogSound net' := by
  refine ⟨hext.ids_eq ▸ h.distinct, ?_, ?_, ?_⟩
  · intro e he
    rw [hext.log_eq] at he
    rcases List.mem_append.mp he with he | he
    · exact h.named e he
    · exact hext.named e he
  · intro node' hnode' t ht
    obtain ⟨node, hnode, hadv⟩ := hext.advances node' hnode'
    rw [hext.log_eq]
    rcases Finset.mem_union.mp (hadv.seen ht) with ht | ht
    · obtain ⟨e, he, het⟩ := List.mem_map.mp (List.mem_toFinset.mp ht)
      exact ⟨e, List.mem_append_right _ he, het⟩
    · obtain ⟨e, he, het⟩ := h.seen node hnode t ht
      exact ⟨e, List.mem_append_left _ he, het⟩
  · intro e he node' hnode' horigin
    rw [hext.log_eq] at he
    rcases List.mem_append.mp he with he | he
    · obtain ⟨node, hnode, hadv⟩ := hext.advances node' hnode'
      exact (h.clocks e he node hnode (hadv.nodeId_eq ▸ horigin)).trans hadv.clock_le
    · exact hext.clocks e he node' hnode' horigin

/-- **Step lemma.** -/
theorem perform (h : LogSound net) (P : PayloadEnv R ω κ) (c : ℕ × NodeCall) :
    LogSound (net.perform P c) := by
  obtain ⟨events, hext⟩ := extends_perform P h.distinct c
  exact h.of_extends hext

/-- **Fresh ids.**  No node has seen the id of the next event of a node. -/
theorem not_seen (h : LogSound net) {node peer : DistributedStateNode R ω κ}
    (hnode : node ∈ net.nodes) (hpeer : peer ∈ net.nodes) {netEvent : NetworkEvent R ω κ}
    (hemits : node.Emits netEvent) : netEvent.eventId ∉ peer.seenEventIds := by
  intro hseen
  obtain ⟨e, he, heq⟩ := h.seen peer hpeer _ hseen
  rw [h.named e he, hemits.eventId_eq] at heq
  obtain ⟨hid, hclock⟩ := eventIdOf_inj heq
  have hle := h.clocks e he node hnode hid.symm
  omega

end LogSound

/-- A bus at which fresh nodes have been registered. -/
lemma logSound_of_registerAll {nodes : List (DistributedStateNode R ω κ)}
    (hfresh : ∀ node ∈ nodes, node.Fresh) (hnet : registerAll nodes new = .ok net) :
    LogSound net ∧ net = ⟨nodes, []⟩ := by
  obtain ⟨rfl, hids⟩ := registerAll_ok (by simp [new]) hnet
  refine ⟨⟨hids, by simp [new], fun node hnode t ht => ?_, by simp [new]⟩, by simp [new]⟩
  rw [(hfresh node (by simpa [new] using hnode)).seenEventIds_eq] at ht
  exact absurd ht (Finset.notMem_empty t)

/-! ### Runs of evolutions and measurements that return -/

/-- The call is an evolution or a measurement, and returns. -/
def Returns (P : PayloadEnv R ω κ) (net : NodeNetwork R ω κ) (c : ℕ × NodeCall) : Prop :=
  c.2.isSeal = false ∧ (net.call P c).2.isOk = true

instance (P : PayloadEnv R ω κ) (net : NodeNetwork R ω κ) (c : ℕ × NodeCall) :
    Decidable (Returns P net c) :=
  inferInstanceAs (Decidable (_ ∧ _))

/-- The invariant of these runs. -/
structure Clocked (net : NodeNetwork R ω κ) : Prop extends LogSound net where
  active : ∀ node ∈ net.nodes, node.lifecycle = .active
  ahead : ∀ e ∈ net.globalEventLog, ∀ node ∈ net.nodes, e.logicalClock ≤ node.logicalClock
  increasing : (net.globalEventLog.map (·.logicalClock)).Pairwise (· < ·)

/-- A fresh event that has reached an active node leaves its clock ahead of the event. -/
lemma ahead_of_handle {netEvent : NetworkEvent R ω κ} {node : DistributedStateNode R ω κ}
    (hpeer : node.nodeId ≠ netEvent.originNode) (hactive : node.lifecycle = .active)
    (hnew : netEvent.eventId ∉ node.seenEventIds) :
    (handle P netEvent node).lifecycle = .active ∧
      netEvent.logicalClock ≤ (handle P netEvent node).logicalClock := by
  rw [handle_of_peer hpeer, receiveEvent_of_new hactive hnew]
  refine ⟨hactive, ?_⟩
  show netEvent.logicalClock ≤ max node.logicalClock netEvent.logicalClock + 1
  omega

/-- An event that every node has been handed leaves all nodes active, and no clock behind it. -/
lemma Clocked.reached (h : Clocked net) {i : ℕ} {node node' : DistributedStateNode R ω κ}
    {netEvent : NetworkEvent R ω κ} (hnode : net.nodes[i]? = some node)
    (hemits : node.Emits netEvent) (hadv : Advances {netEvent.eventId} node node')
    (hclock : node'.logicalClock = netEvent.logicalClock) (hlifecycle : node'.lifecycle = .active)
    {b : DistributedStateNode R ω κ} (hb : b ∈ (net.nodes.set i node').map (handle P netEvent)) :
    b.lifecycle = .active ∧ netEvent.logicalClock ≤ b.logicalClock ∧
      ∃ a ∈ net.nodes, a.logicalClock ≤ b.logicalClock := by
  have hmem : node ∈ net.nodes := List.mem_of_getElem? hnode
  obtain ⟨a, ha, rfl⟩ := List.mem_map.mp hb
  rcases Run.mem_set_cases_of_nodup h.distinct hnode ha with rfl | ⟨ha, hne⟩
  · rw [handle_of_origin (hadv.nodeId_eq.trans hemits.originNode_eq.symm)]
    exact ⟨hlifecycle, hclock.symm.le, node, hmem, hadv.clock_le⟩
  · have hpeer : a.nodeId ≠ netEvent.originNode := hemits.originNode_eq.symm ▸ hne
    obtain ⟨hactive, hahead⟩ := ahead_of_handle (P := P) hpeer (h.active a ha)
      (h.not_seen hmem ha hemits)
    exact ⟨hactive, hahead, a, ha, (advances_handle a).clock_le⟩

/-- **Step lemma.** -/
theorem Clocked.perform (h : Clocked net) {c : ℕ × NodeCall} (hc : Returns P net c) :
    Clocked (net.perform P c) := by
  obtain ⟨hseal, hok⟩ := hc
  suffices hsuff : (∀ node ∈ (net.perform P c).nodes, node.lifecycle = .active) ∧
      (∀ e ∈ (net.perform P c).globalEventLog, ∀ node ∈ (net.perform P c).nodes,
        e.logicalClock ≤ node.logicalClock) ∧
      ((net.perform P c).globalEventLog.map (·.logicalClock)).Pairwise (· < ·) from
    ⟨h.toLogSound.perform P c, hsuff.1, hsuff.2.1, hsuff.2.2⟩
  rw [NodeNetwork.perform]
  rcases net.call_cases P c with ⟨-, hcall⟩ | ⟨node, hnode, hcalled⟩
  · rw [hcall]
    exact ⟨h.active, h.ahead, h.increasing⟩
  · rcases hcalled with ⟨node', exc, -, hcall, -⟩ |
      ⟨node', netEvent, -, hcall, hemits, hadv, hclock, -, hlifecycle⟩
    · simp [hcall, Except.isOk, Except.toBool] at hok
    · have hactive : node'.lifecycle = .active := by
        cases hc : c.2 with
        | sealNode reason => simp [hc, NodeCall.isSeal] at hseal
        | _ => simpa [hc] using hlifecycle
      rw [hcall] at hok ⊢
      rw [route_of_isOk hok]
      have hreached := fun b hb =>
        h.reached (P := P) (b := b) hnode hemits hadv hclock hactive hb
      refine ⟨fun b hb => (hreached b hb).1, ?_, ?_⟩
      · intro e he b hb
        obtain ⟨-, hahead, a, ha, hle⟩ := hreached b hb
        rcases List.mem_append.mp he with he | he
        · exact (h.ahead e he a ha).trans hle
        · rw [List.mem_singleton.mp he]
          exact hahead
      · -- the clock of the origin was not behind any event, and has ticked
        rw [List.map_append, List.pairwise_append]
        refine ⟨h.increasing, List.pairwise_singleton _ _, ?_⟩
        intro i hi j hj
        obtain ⟨e, he, rfl⟩ := List.mem_map.mp hi
        have hle := h.ahead e he node (List.mem_of_getElem? hnode)
        rw [List.map_singleton, List.mem_singleton] at hj
        have hj := hj.trans hemits.logicalClock_eq
        omega

/-- Events of distinct clocks have distinct ids. -/
lemma Clocked.nodup_eventIds (h : Clocked net) :
    (net.globalEventLog.map (·.eventId)).Nodup := by
  rw [List.nodup_iff_pairwise_ne, List.pairwise_map]
  refine (List.pairwise_map.mp h.increasing).imp_of_mem ?_
  intro e f he hf hlt heq
  rw [h.named e he, h.named f hf] at heq
  exact hlt.ne (eventIdOf_inj heq).2

/-- **The events of a run.**  However the calls are spread over the nodes, the ids of the events
are distinct and their clocks increase. -/
theorem events_distinct_and_increasing (P : PayloadEnv R ω κ)
    {nodes : List (DistributedStateNode R ω κ)} (hfresh : ∀ node ∈ nodes, node.Fresh)
    (hnet : registerAll nodes new = .ok net) {calls : List (ℕ × NodeCall)}
    (hcalls : Run.Along (NodeNetwork.perform P) (Returns P) net calls) :
    let log := (Run.exec (NodeNetwork.perform P) net calls).globalEventLog
    (log.map (·.eventId)).Nodup ∧ (log.map (·.logicalClock)).Pairwise (· < ·) := by
  obtain ⟨hsound, rfl⟩ := logSound_of_registerAll hfresh hnet
  have hstart : Clocked (⟨nodes, []⟩ : NodeNetwork R ω κ) :=
    ⟨hsound, fun node hnode => (hfresh node hnode).lifecycle_eq, by simp, by simp⟩
  have hend := Run.invariant (fun net c h hc => h.perform hc) hstart hcalls
  exact ⟨hend.nodup_eventIds, hend.increasing⟩

/-- Three nodes take turns. -/
theorem events_of_three_nodes :
    ∃ net, flipNetwork superposed = .ok net ∧
      let log := (Run.exec (NodeNetwork.perform plainEnv) net
        [(1, .measure "m1" 3), (0, .evolve "X"), (2, .evolve "X")]).globalEventLog
      log.map (·.eventId) = ["NodeB:1", "NodeA:3", "NodeC:5"] ∧
      (log.map (·.eventId)).Nodup ∧ (log.map (·.logicalClock)).Pairwise (· < ·) := by
  obtain ⟨net, hnet⟩ : ∃ net, flipNetwork superposed = .ok net :=
    exists_of_isSome (by decide +kernel)
  obtain ⟨nodes, hregistered, hbuilt⟩ := flipNetwork_ok hnet
  have hruns : (flipNetwork superposed).toOption.map (fun net => decide
      (Run.Along (NodeNetwork.perform plainEnv) (Returns plainEnv) net
          [(1, .measure "m1" 3), (0, .evolve "X"), (2, .evolve "X")] ∧
        (Run.exec (NodeNetwork.perform plainEnv) net
          [(1, .measure "m1" 3), (0, .evolve "X"), (2, .evolve "X")]).globalEventLog.map
            (·.eventId) = ["NodeB:1", "NodeA:3", "NodeC:5"])) = some true := by decide +kernel
  have hrun := of_map_decide hruns hnet
  exact ⟨net, hnet, hrun.2, events_distinct_and_increasing plainEnv
    (fun node hnode => (hbuilt node hnode).fresh) hregistered hrun.1⟩

end NodeNetwork

end QuantumFoundation.Network
