import Mathlib.Data.List.TakeWhile
import QuantumFoundation.Network.Convergence
import QuantumFoundation.Quantum.HarnessLedger

/-!
# One ledger for all nodes

As long as no node is sealed, and no measurement commits a collapse that the guard then refuses,
the nodes of a bus that are built alike keep one ledger between them: every call that its own node
accepts is accepted by all peers, and the timeline of each node is the log of the bus.  The network
then does what one harness would do that is given all calls.
-/

namespace QuantumFoundation.Network

open Network.DistributedStateNode

variable {R ω κ : Type*} [PyFloat R]

/-! ### What the bus verifies -/

/-- `timeline_hash`, for the digest of a text and the representation of a payload without the
times of the clock. -/
def DistributedStateNode.timelineHash (sha256 : String → String) (repr : Payload R ω κ → String)
    (node : DistributedStateNode R ω κ) : String :=
  sha256 (String.join (node.harness.system.timeline.events.map fun event =>
    toString event.causalId ++ event.eventType ++ repr event.payload))

namespace NodeNetwork

/-- `verify_state_convergence`, for the digest of a text. -/
def verifyStateConvergence (sha256 : String → String) (net : NodeNetwork R ω κ) :
    Except Raised Bool :=
  if (net.nodes.map (·.stateHash sha256)).dedup.length ≠ 1 then
    .error ⟨.assertionError, "STATE DIVERGENCE DETECTED across nodes:\n"
      ++ "\n".intercalate (net.nodes.map fun node =>
        "  " ++ node.nodeId ++ ": " ++ node.stateHash sha256)⟩
  else .ok true

/-- The loop of `verify_causal_ordering`. -/
def orderingLoop : List (DistributedStateNode R ω κ) → Except Raised Bool
  | [] => .ok true
  | node :: rest =>
    match node.harness.system.timeline.verifyOrdering with
    | .error exc => .error exc
    | .ok _ => orderingLoop rest

/-- `verify_causal_ordering`. -/
def verifyCausalOrdering (net : NodeNetwork R ω κ) : Except Raised Bool := orderingLoop net.nodes

end NodeNetwork

/-! ### A call and the ledger -/

namespace NodeCall

variable {P : PayloadEnv R ω κ} {rules : String → Option (TransitionRule R ω)}

/-- The operation at a harness. -/
def operation (c : NodeCall) (harness : FullStackHarness R ω κ) :
    Attempt (FullStackHarness R ω κ) Unit :=
  match c with
  | evolve ruleName =>
    let r := harness.evolveDeterministic ruleName
    (r.1, r.2.map fun _ => ())
  | measure tokenId seed =>
    let r := harness.measureDeterministic tokenId seed
    (r.1, r.2.map fun _ => ())
  | sealNode reason => harness.sealTimeline reason

/-- The ledger after the operation, if it returns.  Seals are left out. -/
def onLedger (rules : String → Option (TransitionRule R ω)) (l : Ledger R ω κ) :
    NodeCall → Option (Ledger R ω κ)
  | evolve ruleName => l.evolve rules ruleName
  | measure tokenId seed => l.measure tokenId seed
  | sealNode _ => none

/-- The ledger after the operation, whether it returns or raises. -/
def stepLedger (rules : String → Option (TransitionRule R ω)) (l : Ledger R ω κ) (c : NodeCall) :
    Ledger R ω κ := (c.onLedger rules l).getD l

/-- The operation is no seal, and if it commits a collapse, it also records it. -/
def Recorded (l : Ledger R ω κ) : NodeCall → Prop
  | evolve _ => True
  | measure tokenId seed => ∀ collapse, l.collapse tokenId seed = some collapse →
      NoGoEnforcementEngine.Disturbs collapse.result
  | sealNode _ => False

instance Recorded.instDecidable (l : Ledger R ω κ) : (c : NodeCall) → Decidable (c.Recorded l)
  | evolve _ => .isTrue trivial
  | measure tokenId seed =>
    match h : l.collapse tokenId seed with
    | none =>
      .isTrue fun collapse hc => absurd (h.symm.trans hc).symm (Option.some_ne_none collapse)
    | some collapse =>
      have : Decidable (NoGoEnforcementEngine.Disturbs collapse.result) :=
        inferInstanceAs (Decidable (_ ∧ _))
      decidable_of_iff (NoGoEnforcementEngine.Disturbs collapse.result)
        ⟨fun hd _ hc => Option.some.inj (h.symm.trans hc) ▸ hd, fun hall => hall collapse h⟩
  | sealNode _ => .isFalse id

/-- The event leads a peer to perform the operation. -/
def Leads (P : PayloadEnv R ω κ) (netEvent : NetworkEvent R ω κ) (c : NodeCall) : Prop :=
  ∀ harness, reapply P netEvent harness = c.operation harness

/-- **Refinement.**  The operation at a harness is the one on its ledger. -/
theorem operation_ledger (hone : ¬(1 : R) < 1) {initialState : StateVector R}
    {harness : FullStackHarness R ω κ} (h : harness.Governed initialState rules) {c : NodeCall}
    (hc : c.Recorded harness.ledger) :
    (c.operation harness).2.isOk = (c.onLedger rules harness.ledger).isSome ∧
      (c.operation harness).1.ledger = c.stepLedger rules harness.ledger := by
  cases c with
  | evolve ruleName =>
    obtain ⟨hok, hledger⟩ := FullStackHarness.evolveDeterministic_ledger hone h ruleName
    exact ⟨(isOk_map _ _).trans hok, hledger⟩
  | measure tokenId seed =>
    obtain ⟨hok, hledger⟩ :=
      FullStackHarness.measureDeterministic_ledger h.toReady tokenId seed hc
    exact ⟨(isOk_map _ _).trans hok, hledger⟩
  | sealNode reason => exact hc.elim

/-- The type of the event of the operation. -/
def eventType : NodeCall → EventType
  | evolve _ => .evolution
  | measure _ _ => .collapse
  | sealNode _ => .sealing

/-- An operation that the ledger has adds an event to its timeline, and this event, sent under the
type of the operation, leads every peer to the same operation. -/
lemma onLedger_eq_some {c : NodeCall} {l l' : Ledger R ω κ} (hsound : l.Sound)
    (h : c.onLedger rules l = some l') : l'.Sound ∧
      ∃ event, l'.timeline = l.timeline.append event ∧ ∀ netEvent : NetworkEvent R ω κ,
        netEvent.eventType = c.eventType → netEvent.payload = some event → c.Leads P netEvent := by
  cases c with
  | evolve ruleName =>
    obtain ⟨event, htimeline, -, -, observation, hpayload, hname⟩ := Ledger.evolve_eq_some h
    refine ⟨hsound.evolve h, event, htimeline, fun netEvent htype hevent harness => ?_⟩
    have hread : (payloadOf netEvent.payload).bind P.ruleName = .ok ruleName := by
      rw [hevent, payloadOf, ← hname]
      simp only [Except.bind, hpayload, PayloadEnv.ruleName]
    have htype : netEvent.eventType = .evolution := htype
    simp only [reapply, htype, hread, operation]
  | measure tokenId seed =>
    obtain ⟨event, collapse, htimeline, -, hpayload, hcollapse, -⟩ := Ledger.measure_eq_some h
    obtain ⟨htoken, hseed⟩ := hsound.collapse_tokenId hcollapse
    refine ⟨hsound.measure h, event, htimeline, fun netEvent htype hevent harness => ?_⟩
    have hread : (payloadOf netEvent.payload).bind P.tokenAndSeed = .ok (tokenId, seed) := by
      rw [hevent, payloadOf, ← htoken, ← hseed]
      simp only [Except.bind, hpayload, PayloadEnv.tokenAndSeed]
    have htype : netEvent.eventType = .collapse := htype
    simp only [reapply, htype, hread, operation]
  | sealNode reason => exact absurd h.symm (Option.some_ne_none l')

end NodeCall

/-! ### A call at its node -/

/-- **Originating.**  An operation that does to a ledger what `r` says: it raises and leaves the
ledger as it is, or it is announced with the event that it has added. -/
theorem DistributedStateNode.originate_ledger {α : Type*} {eventType : EventType}
    {operation : FullStackHarness R ω κ → Attempt (FullStackHarness R ω κ) α}
    {node : DistributedStateNode R ω κ} (hactive : node.lifecycle = .active)
    {r : Option (Ledger R ω κ)} (hok : (operation node.harness).2.isOk = r.isSome)
    (hledger : (operation node.harness).1.ledger = r.getD node.harness.ledger)
    (hlast : ∀ l', r = some l' → ∃ event, l'.timeline = node.harness.ledger.timeline.append event) :
    (r = none ∧ ∃ node' exc, node.originate eventType operation = (node', .error exc) ∧
      node'.harness.ledger = node.harness.ledger) ∨
    ∃ l' event node' netEvent, r = some l' ∧
      l'.timeline = node.harness.ledger.timeline.append event ∧
      node.originate eventType operation = (node', .ok netEvent) ∧ node'.harness.ledger = l' ∧
      netEvent.eventType = eventType ∧ netEvent.payload = some event := by
  rcases hop : operation node.harness with ⟨harness, exc | a⟩
  · rw [hop] at hok hledger
    have hnone : r = none := Option.isNone_iff_eq_none.mp (Option.isSome_eq_false_iff.mp hok.symm)
    rw [hnone] at hledger
    exact Or.inl ⟨hnone, _, exc, originate_of_error hactive hop, hledger⟩
  · rw [hop] at hok hledger
    obtain ⟨l', rfl⟩ := Option.isSome_iff_exists.mp hok.symm
    obtain ⟨event, htimeline⟩ := hlast l' rfl
    have hlast : harness.nogoLayer.timeline.events.getLast? = some event := by
      have hevents : harness.nogoLayer.timeline.events = l'.timeline.events :=
        congrArg (fun l : Ledger R ω κ => l.timeline.events) hledger
      rw [hevents, htimeline]
      exact List.getLast?_concat
    exact Or.inr ⟨l', event, _, _, rfl, htimeline,
      (originate_of_ok hactive hop).trans (emit_ticked hlast), hledger, rfl, rfl⟩

/-- **A call at its node.**  If the ledger does not have it, it raises, and the ledger stays as it
is; otherwise it is announced, with the event that it has added, so that all peers follow. -/
theorem NodeCall.run_ledger (hone : ¬(1 : R) < 1) {P : PayloadEnv R ω κ}
    {rules : String → Option (TransitionRule R ω)} {node : DistributedStateNode R ω κ}
    (h : node.Governed rules) (hactive : node.lifecycle = .active)
    (hsound : node.harness.ledger.Sound) {c : NodeCall} (hc : c.Recorded node.harness.ledger) :
    (c.onLedger rules node.harness.ledger = none ∧ ∃ node' exc,
      c.run node = (node', .error exc) ∧ node'.harness.ledger = node.harness.ledger) ∨
    ∃ l' event node' netEvent, c.onLedger rules node.harness.ledger = some l' ∧
      l'.timeline = node.harness.ledger.timeline.append event ∧
      c.run node = (node', .ok netEvent) ∧ node'.harness.ledger = l' ∧
      netEvent.payload = some event ∧ c.Leads P netEvent := by
  obtain ⟨initialState, hharness⟩ := h
  have hgeneric : (c.onLedger rules node.harness.ledger = none ∧ ∃ node' exc,
      c.run node = (node', .error exc) ∧ node'.harness.ledger = node.harness.ledger) ∨
    ∃ l' event node' netEvent, c.onLedger rules node.harness.ledger = some l' ∧
      l'.timeline = node.harness.ledger.timeline.append event ∧
      c.run node = (node', .ok netEvent) ∧ node'.harness.ledger = l' ∧
      netEvent.eventType = c.eventType ∧ netEvent.payload = some event := by
    cases c with
    | evolve ruleName =>
      obtain ⟨hok, hledger⟩ := FullStackHarness.evolveDeterministic_ledger hone hharness ruleName
      exact originate_ledger hactive hok hledger fun l' hl' =>
        (NodeCall.onLedger_eq_some (P := P) hsound hl').2.imp fun _ h => h.1
    | measure tokenId seed =>
      obtain ⟨hok, hledger⟩ :=
        FullStackHarness.measureDeterministic_ledger hharness.toReady tokenId seed hc
      exact originate_ledger hactive hok hledger fun l' hl' =>
        (NodeCall.onLedger_eq_some (P := P) hsound hl').2.imp fun _ h => h.1
    | sealNode reason => exact hc.elim
  refine hgeneric.imp id ?_
  rintro ⟨l', event, node', netEvent, hl', htimeline, hrun, hledger, htype, hpayload⟩
  refine ⟨l', event, node', netEvent, hl', htimeline, hrun, hledger, hpayload, ?_⟩
  obtain ⟨-, event', htimeline', hleads⟩ := NodeCall.onLedger_eq_some (P := P) hsound hl'
  have hevent : event = event' := by
    have hevents := congrArg (fun t : CausalTimeline (Payload R ω κ) => t.events.getLast?)
      (htimeline.symm.trans htimeline')
    simpa only [CausalTimeline.append, List.getLast?_concat, Option.some.injEq] using hevents
  exact hleads netEvent htype (hevent ▸ hpayload)

/-! ### A call on the bus -/

namespace NodeNetwork

variable {P : PayloadEnv R ω κ} {rules : String → Option (TransitionRule R ω)}
  {net : NodeNetwork R ω κ} {l₀ l : Ledger R ω κ}

/-- All nodes are active and have the ledger, whose timeline goes on from `l₀` as the log says. -/
structure Shares (rules : String → Option (TransitionRule R ω)) (l₀ l : Ledger R ω κ)
    (net : NodeNetwork R ω κ) : Prop extends Alike rules net where
  active : ∀ node ∈ net.nodes, node.lifecycle = .active
  shared : ∀ node ∈ net.nodes, node.harness.ledger = l
  sound : l.Sound
  logged : l.timeline.events.map some
    = l₀.timeline.events.map some ++ net.globalEventLog.map (·.payload)

/-- A peer with the ledger accepts an event that it has not seen, and takes the step. -/
lemma receiveEvent_ledger (hone : ¬(1 : R) < 1) {node : DistributedStateNode R ω κ}
    (h : node.Governed rules) (hactive : node.lifecycle = .active)
    {netEvent : NetworkEvent R ω κ} (hnew : netEvent.eventId ∉ node.seenEventIds)
    (hledger : node.harness.ledger = l) {c : NodeCall} (hc : c.Recorded l)
    (hleads : c.Leads P netEvent) {l' : Ledger R ω κ} (hl' : c.onLedger rules l = some l') :
    (node.receiveEvent P netEvent).2.isOk = true ∧
      (node.receiveEvent P netEvent).1.harness.ledger = l' := by
  subst hledger
  obtain ⟨initialState, hharness⟩ := h
  obtain ⟨hok, hstep⟩ := NodeCall.operation_ledger hone hharness hc
  rw [NodeCall.stepLedger, hl', Option.getD_some] at hstep
  rw [receiveEvent_of_new hactive hnew, hleads node.harness]
  refine ⟨(isOk_map _ _).trans (hok.trans ?_), hstep⟩
  rw [hl']
  rfl

/-- **Step lemma.**  A call takes all nodes to the next ledger; and it returns exactly if the
ledger has it. -/
theorem Shares.perform (hone : ¬(1 : R) < 1) (h : Shares rules l₀ l net) (P : PayloadEnv R ω κ)
    {c : ℕ × NodeCall} (hi : c.1 < net.nodes.length) (hc : c.2.Recorded l) :
    Shares rules l₀ (c.2.stepLedger rules l) (net.perform P c) ∧
      (net.call P c).2.isOk = (c.2.onLedger rules l).isSome ∧
      (net.perform P c).nodes.length = net.nodes.length := by
  have halike := h.toAlike.perform hone P c
  rcases net.call_cases P c with ⟨hnone, -⟩ | ⟨node, hnode, hcalled⟩
  · exact absurd hi (not_lt.mpr (List.getElem?_eq_none_iff.mp hnone))
  have hmem : node ∈ net.nodes := List.mem_of_getElem? hnode
  have hactive := h.active node hmem
  have hledger := h.shared node hmem
  have hsound := h.sound
  subst hledger
  have hset : ∀ {node'}, ∀ b ∈ net.nodes.set c.1 node', b = node' ∨ b ∈ net.nodes := fun b hb =>
    (Run.mem_set_cases_of_nodup h.distinct hnode hb).imp id And.left
  rcases NodeCall.run_ledger (P := P) hone (h.governed node hmem) hactive hsound hc with
    ⟨hnone, node', exc, hr, hledger⟩ |
      ⟨l', event, node', netEvent, hl', htimeline, hr, hledger, hpayload, hleads⟩
  · rcases hcalled with ⟨_, _, hr', hcall, -, hkept⟩ | ⟨_, _, hr', -⟩
    · obtain ⟨rfl, -⟩ := Prod.mk.inj (hr.symm.trans hr')
      rw [NodeCall.stepLedger, hnone, Option.getD_none]
      rw [NodeNetwork.perform, hcall] at halike ⊢
      refine ⟨⟨halike, fun b hb => ?_, fun b hb => ?_, hsound, h.logged⟩, rfl, List.length_set⟩
      · rcases hset b hb with rfl | hb
        · exact hkept.trans hactive
        · exact h.active b hb
      · rcases hset b hb with rfl | hb
        · exact hledger
        · exact h.shared b hb
    · exact absurd (congrArg Prod.snd (hr.symm.trans hr')) (by simp)
  · rcases hcalled with ⟨_, _, hr', -⟩ | ⟨_, _, hr', hcall, hemits, hadv, -, -, hlifecycle⟩
    · exact absurd (congrArg Prod.snd (hr.symm.trans hr')) (by simp)
    obtain ⟨rfl, hevent⟩ := Prod.mk.inj (hr.symm.trans hr')
    obtain rfl := Except.ok.inj hevent
    have hactive' : node'.lifecycle = .active := by
      cases hop : c.2 with
      | sealNode reason =>
        rw [hop] at hc
        exact hc.elim
      | _ => simpa only [hop] using hlifecycle
    -- every peer accepts, and takes the step
    have hpeer : ∀ b ∈ net.nodes.set c.1 node', b.nodeId ≠ netEvent.originNode →
        (b.receiveEvent P netEvent).2.isOk = true ∧
          (b.receiveEvent P netEvent).1.harness.ledger = l' := by
      intro b hb hne
      rcases Run.mem_set_cases_of_nodup h.distinct hnode hb with rfl | ⟨hb, -⟩
      · exact absurd (hadv.nodeId_eq.trans hemits.originNode_eq.symm) hne
      · exact receiveEvent_ledger hone (h.governed b hb) (h.active b hb)
          (h.not_seen hmem hb hemits) (h.shared b hb) hc hleads hl'
    have haccepts : (deliver P netEvent (net.nodes.set c.1 node')).2 = .ok () := by
      refine (deliver_eq _).2.mpr (List.dropWhile_eq_nil_iff.mpr fun b hb => ?_)
      by_cases hne : b.nodeId = netEvent.originNode
      · simp [accepts, hne]
      · simp [accepts, (hpeer b hb hne).1]
    have hroute : (net.call P c) = (⟨(net.nodes.set c.1 node').map (handle P netEvent),
        net.globalEventLog ++ [netEvent]⟩, .ok ()) := by
      rw [hcall, route, haccepts, deliver_of_ok haccepts]
    rw [NodeCall.stepLedger, hl', Option.getD_some]
    rw [NodeNetwork.perform, hroute] at halike ⊢
    refine ⟨⟨halike, fun b hb => ?_, fun b hb => ?_, ?_, ?_⟩, rfl, ?_⟩
    · obtain ⟨a, ha, rfl⟩ := List.mem_map.mp hb
      have ha_active : a.lifecycle = .active := by
        rcases hset a ha with rfl | ha
        · exact hactive'
        · exact h.active a ha
      rw [handle]
      split
      · rw [lifecycle_receiveEvent, ha_active]
      · exact ha_active
    · obtain ⟨a, ha, rfl⟩ := List.mem_map.mp hb
      by_cases hne : a.nodeId = netEvent.originNode
      · rw [handle_of_origin hne]
        rcases Run.mem_set_cases_of_nodup h.distinct hnode ha with rfl | ⟨-, hother⟩
        · exact hledger
        · exact absurd (hne.trans hemits.originNode_eq) hother
      · rw [handle_of_peer hne]
        exact (hpeer a ha hne).2
    · exact (NodeCall.onLedger_eq_some (P := P) hsound hl').1
    · rw [htimeline, CausalTimeline.append, List.map_append, h.logged, List.map_append,
        List.append_assoc, List.map_singleton, List.map_singleton, hpayload]
    · rw [List.length_map, List.length_set]

/-- **Run lemma.** -/
theorem Shares.exec (hone : ¬(1 : R) < 1) (h : Shares rules l₀ l net) (P : PayloadEnv R ω κ)
    {calls : List (ℕ × NodeCall)} (hcalls : ∀ c ∈ calls, c.1 < net.nodes.length)
    (hrecorded : Run.Along (NodeCall.stepLedger rules) NodeCall.Recorded l (calls.map Prod.snd)) :
    Shares rules l₀ (Run.exec (NodeCall.stepLedger rules) l (calls.map Prod.snd))
        (Run.exec (NodeNetwork.perform P) net calls) ∧
      (Run.exec (NodeNetwork.perform P) net calls).nodes.length = net.nodes.length := by
  induction calls generalizing net l with
  | nil => exact ⟨h, rfl⟩
  | cons c calls ih =>
    obtain ⟨hc, hrest⟩ := hrecorded
    obtain ⟨hnext, -, hlength⟩ := h.perform hone P (hcalls c List.mem_cons_self) hc
    obtain ⟨hend, hlengths⟩ := ih hnext
      (fun c' hc' => hlength ▸ hcalls c' (List.mem_cons_of_mem c hc')) hrest
    exact ⟨hend, hlengths.trans hlength⟩

/-! ### Every run -/

/-- Giving rules is not entered in the ledger. -/
lemma observeAll_ledger {O : SetOrder}
    {rules : List (String × Dict (String × String) (PyComplex R) × String)}
    {node node' : DistributedStateNode R ω κ} (h : observeAll O rules node = .ok node') :
    node'.harness.ledger = node.harness.ledger := by
  induction rules generalizing node with
  | nil => rw [← Except.ok.inj h]
  | cons rule rest ih =>
    obtain ⟨harness, hdefine, hrest⟩ := observeAll_cons_ok h
    have hkept := FullStackHarness.defineUnitaryOperation_ledger O rule.1 rule.2.1 rule.2.2
      node.harness
    rw [hdefine] at hkept
    exact (ih hrest).trans hkept

/-- Nodes that are built alike start with the same ledger. -/
lemma ledger_of_builtWith {O : SetOrder} {initialAmplitudes : Dict String (PyComplex R)}
    {rules : List (String × Dict (String × String) (PyComplex R) × String)}
    {node : DistributedStateNode R ω κ} (h : node.BuiltWith O initialAmplitudes rules)
    {c1State : StateVector R} (hstate : initialStateOf O initialAmplitudes = .ok c1State) :
    node.harness.ledger = .initial c1State := by
  obtain ⟨nodeId, rootId, ruleList, -, hbuild⟩ := h
  obtain ⟨-, built, hnew, ruled, hruled, hharness⟩ := build_ok hbuild
  rw [← hharness, observeAll_ledger hruled, FullStackHarness.ledger_of_new hnew,
    Except.ok.inj ((initialStateOf_eq hnew).symm.trans hstate)]

lemma orderingLoop_ok {nodes : List (DistributedStateNode R ω κ)}
    (h : ∀ node ∈ nodes, node.harness.system.timeline.verifyOrdering = .ok true) :
    orderingLoop nodes = .ok true := by
  induction nodes with
  | nil => rfl
  | cons node rest ih =>
    rw [orderingLoop, h node List.mem_cons_self]
    exact ih fun a ha => h a (List.mem_cons_of_mem node ha)

/-- **One ledger.**  Nodes that are built alike, and given calls at any of them in any order, none
of which is a seal or commits a collapse that the guard refuses: all nodes have the ledger of the
one machine that is given all calls; its timeline is the log of the bus after the genesis; no token
has been used twice, at whatever nodes; the checks of the bus and the hashes of the timelines say
so; and the next such call returns at all nodes exactly if the machine performs it. -/
theorem one_ledger (hone : ¬(1 : R) < 1) (P : PayloadEnv R ω κ) {O : SetOrder}
    {initialAmplitudes : Dict String (PyComplex R)}
    {rules : List (String × Dict (String × String) (PyComplex R) × String)}
    {nodes : List (DistributedStateNode R ω κ)} {c1State : StateVector R}
    (hstate : initialStateOf O initialAmplitudes = .ok c1State)
    (hbuilt : ∀ node ∈ nodes, node.BuiltWith O initialAmplitudes rules)
    (hnet : registerAll nodes new = .ok net) {calls : List (ℕ × NodeCall)}
    (hcalls : ∀ c ∈ calls, c.1 < nodes.length)
    (hrecorded : Run.Along (NodeCall.stepLedger (ruleOf O rules)) NodeCall.Recorded
      (.initial c1State : Ledger R ω κ) (calls.map Prod.snd)) :
    let net' := Run.exec (NodeNetwork.perform P) net calls
    let l := Run.exec (NodeCall.stepLedger (ruleOf O rules)) (.initial c1State) (calls.map Prod.snd)
    (∀ node ∈ net'.nodes, node.harness.ledger = l) ∧
      (∃ genesis, l.timeline.events.map some
        = some genesis :: net'.globalEventLog.map (·.payload)) ∧
      (l.collapseEngine.collapseLog.map (·.tokenId)).Nodup ∧
      net'.verifyCausalOrdering = .ok true ∧
      (nodes ≠ [] → ∀ sha256, net'.verifyStateConvergence sha256 = .ok true) ∧
      (∀ sha256 repr, ∀ a ∈ net'.nodes, ∀ b ∈ net'.nodes,
        a.timelineHash sha256 repr = b.timelineHash sha256 repr) ∧
      ∀ c : ℕ × NodeCall, c.1 < nodes.length → c.2.Recorded l →
        (net'.call P c).2.isOk = (c.2.onLedger (ruleOf O rules) l).isSome := by
  intro net' l
  obtain ⟨hsound, rfl⟩ := logSound_of_registerAll (fun node hnode => (hbuilt node hnode).fresh) hnet
  have hstart : Shares (ruleOf O rules) (.initial c1State) (.initial c1State)
      (⟨nodes, []⟩ : NodeNetwork R ω κ) :=
    ⟨⟨hsound, fun node hnode => (hbuilt node hnode).governed.1⟩,
      fun node hnode => (hbuilt node hnode).fresh.lifecycle_eq,
      fun node hnode => ledger_of_builtWith (hbuilt node hnode) hstate,
      Ledger.Sound.initial c1State, (List.append_nil _).symm⟩
  obtain ⟨h, hlength⟩ : Shares (ruleOf O rules) (.initial c1State) l net' ∧
      net'.nodes.length = nodes.length := hstart.exec hone P hcalls hrecorded
  have htimelines : ∀ node ∈ net'.nodes, node.harness.system.timeline = l.timeline :=
    fun node hnode => congrArg Ledger.timeline (h.shared node hnode)
  have hverified : l.timeline.verifyOrdering = .ok true :=
    (CausalTimeline.ordered_of_numbered h.sound.timeline.wellFormed
      h.sound.timeline.numbered).verified
  refine ⟨h.shared, ?_, h.sound.tokens.tokens_nodup, ?_, fun hne sha256 => ?_,
    fun sha256 repr a ha b hb => ?_, fun c hi hc => (h.perform hone P (hlength ▸ hi) hc).2.1⟩
  · obtain ⟨genesis, hevents⟩ := Ledger.initial_events (ω := ω) (κ := κ) c1State
    refine ⟨genesis, h.logged.trans ?_⟩
    rw [hevents]
    rfl
  · exact orderingLoop_ok fun node hnode => htimelines node hnode ▸ hverified
  · have hstates : ∀ node ∈ net'.nodes, node.state = l.state :=
      fun node hnode => congrArg Ledger.state (h.shared node hnode)
    rw [verifyStateConvergence, if_neg (not_not.mpr (length_dedup_eq_one.mpr ⟨?_, ?_⟩))]
    · intro hnil
      have hzero := congrArg List.length hnil
      rw [List.length_map, hlength] at hzero
      exact hne (List.length_eq_zero_iff.mp hzero)
    · intro a ha b hb
      obtain ⟨node, hnode, rfl⟩ := List.mem_map.mp ha
      obtain ⟨node', hnode', rfl⟩ := List.mem_map.mp hb
      rw [stateHash, stateHash, hstates node hnode, hstates node' hnode']
  · rw [timelineHash, timelineHash, htimelines a ha, htimelines b hb]

/-- The first node flips the superposition, the second measures it, and the third flips what is
left. -/
def flippedAndMeasured : List (ℕ × NodeCall) :=
  [(0, .evolve "X"), (1, .measure "t1" 42), (2, .evolve "X")]

/-- Three nodes, with a call at each of them. -/
theorem one_ledger_of_three :
    ∃ net, flipNetwork superposed = .ok net ∧
      let net' := Run.exec (NodeNetwork.perform plainEnv) net flippedAndMeasured
      net'.globalEventLog.length = 3 ∧ net'.verifyCausalOrdering = .ok true ∧
        ∀ sha256, net'.verifyStateConvergence sha256 = .ok true := by
  obtain ⟨net, hnet⟩ : ∃ net, flipNetwork superposed = .ok net :=
    exists_of_isSome (by decide +kernel)
  obtain ⟨nodes, hregistered, hbuilt⟩ := flipNetwork_ok hnet
  obtain ⟨c1State, hstate⟩ : ∃ c1State, initialStateOf .lastInsertion superposed = .ok c1State :=
    exists_of_isSome (by decide +kernel)
  have hnodes : (flipNetwork superposed).toOption.map (fun net => decide (net.nodes.length = 3 ∧
      (Run.exec (NodeNetwork.perform plainEnv) net flippedAndMeasured).globalEventLog.length = 3))
      = some true := by decide +kernel
  obtain ⟨hthree, hlog⟩ := of_map_decide hnodes hnet
  have hrecorded : (initialStateOf .lastInsertion superposed).toOption.map (fun c1State =>
      decide (Run.Along (NodeCall.stepLedger (ruleOf .lastInsertion
        [("X", flipMatrix, "Pauli-X Gate")])) NodeCall.Recorded
        (.initial c1State : Ledger ℚ Unit Unit) (flippedAndMeasured.map Prod.snd)))
      = some true := by decide +kernel
  have hlength : nodes.length = 3 := by
    have hempty : ((new : NodeNetwork ℚ Unit Unit).nodes.map (·.nodeId)).Nodup := List.nodup_nil
    rw [(registerAll_ok hempty hregistered).1] at hthree
    exact hthree
  have hrun := of_map_decide hrecorded hstate
  have hcalls : ∀ c ∈ flippedAndMeasured, c.1 < nodes.length := by
    rw [hlength]
    decide
  obtain ⟨-, -, -, hordered, hconverged, -⟩ := one_ledger (lt_irrefl 1) plainEnv hstate hbuilt
    hregistered hcalls hrun
  refine ⟨net, hnet, hlog, hordered, hconverged ?_⟩
  rintro rfl
  exact absurd hlength (by decide)

end NodeNetwork

end QuantumFoundation.Network
