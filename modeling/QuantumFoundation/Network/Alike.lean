import QuantumFoundation.Network.Bus
import QuantumFoundation.Quantum.HarnessSteps

/-!
# Nodes that are built alike

Nodes that are built with the same amplitudes and rules start in the same state, and what a call
or an event makes of the state of one of them is a function of that state.  Only evolutions change
it.
-/

namespace QuantumFoundation.Network

variable {R ω κ : Type*} [PyFloat R]

/-- The rules of the list, by their names. -/
def ruleOf (O : SetOrder)
    (rules : List (String × Dict (String × String) (PyComplex R) × String)) (k : String) :
    Option (TransitionRule R ω) :=
  (rules.find? fun rule => rule.1 = k).map fun rule => FullStackHarness.verifiedRule O rule.2.1

/-- The state in which a harness with the amplitudes starts. -/
def initialStateOf (O : SetOrder) (initialAmplitudes : Dict String (PyComplex R)) :
    Except Raised (StateVector R) :=
  match QuantumState.fromDict O initialAmplitudes with
  | .error exc => .error exc
  | .ok qState => StateVector.new (initialAmplitudes.ofKeys qState.vector.get)

lemma initialStateOf_eq {O : SetOrder} {initialAmplitudes : Dict String (PyComplex R)}
    {rootId : String} {harness : FullStackHarness R ω κ}
    (hnew : FullStackHarness.new O initialAmplitudes rootId = .ok harness) :
    initialStateOf O initialAmplitudes = .ok harness.c1State := by
  obtain ⟨⟨qState, hq, hstate⟩, -⟩ := FullStackHarness.new_ok hnew
  rw [initialStateOf, hq]
  exact hstate

namespace DistributedStateNode

/-- The invariant of a node with the rules. -/
def Governed (rules : String → Option (TransitionRule R ω)) (node : DistributedStateNode R ω κ) :
    Prop :=
  ∃ initialState, node.harness.Governed initialState rules

/-! ### Building -/

/-- The rules of the list are registered, each under its name, and nothing else happens. -/
lemma observeAll_registers {O : SetOrder} {initialState : StateVector R}
    {rules : List (String × Dict (String × String) (PyComplex R) × String)}
    {node node' : DistributedStateNode R ω κ} (h : observeAll O rules node = .ok node')
    (hready : node.harness.Ready initialState) :
    node'.harness.Ready initialState ∧ node'.state = node.state ∧
      ∀ k reg, node'.harness.nogoLayer.stateEngine.rules.get? k = some reg ↔
        node.harness.nogoLayer.stateEngine.rules.get? k = some reg ∨
          ∃ rule ∈ rules, rule.1 = k ∧
            reg = ⟨rule.1, FullStackHarness.verifiedRule O rule.2.1, rule.2.2⟩ := by
  induction rules generalizing node with
  | nil =>
    rw [← Except.ok.inj h]
    exact ⟨hready, rfl, by simp⟩
  | cons rule rest ih =>
    obtain ⟨harness, hdefine, hrest⟩ := observeAll_cons_ok h
    obtain ⟨hready', hstate, hnone, hrules⟩ :=
      FullStackHarness.defineUnitaryOperation_ok hready hdefine
    obtain ⟨hlast, hsame, hget⟩ := ih hrest hready'
    refine ⟨hlast, hsame.trans hstate, fun k reg => ?_⟩
    rw [hget, hrules, Dict.get?_set]
    by_cases hk : k = rule.1
    · -- the name was free, so the rule is all there is for it
      subst hk
      simp [hnone, eq_comm]
    · simp [hk, Ne.symm hk]

/-- **Built alike.**  A node starts in the state of its amplitudes, with the rules of its list. -/
theorem BuiltWith.governed {O : SetOrder} {initialAmplitudes : Dict String (PyComplex R)}
    {rules : List (String × Dict (String × String) (PyComplex R) × String)}
    {node : DistributedStateNode R ω κ} (h : node.BuiltWith O initialAmplitudes rules) :
    node.Governed (ruleOf O rules) ∧ initialStateOf O initialAmplitudes = .ok node.state := by
  obtain ⟨nodeId, rootId, ruleList, hsame, hbuild⟩ := h
  obtain ⟨-, built, hnew, ruled, hruled, hharness⟩ := build_ok hbuild
  obtain ⟨hready, hengine⟩ := FullStackHarness.ready_of_new hnew
  obtain ⟨hready', hstate, hget⟩ := observeAll_registers hruled hready
  rw [hharness] at hready' hget
  have hstart : node.state = built.harness.c1State := by
    rw [state, ← hharness]
    refine hstate.trans ?_
    rw [state, hengine]
    rfl
  refine ⟨⟨_, hready', fun k => ?_⟩, (initialStateOf_eq hnew).trans (by rw [hstart])⟩
  have hget' : ∀ reg, node.harness.nogoLayer.stateEngine.rules.get? k = some reg ↔
      ∃ rule ∈ rules, rule.1 = k ∧
        reg = ⟨rule.1, FullStackHarness.verifiedRule O rule.2.1, rule.2.2⟩ := by
    intro reg
    rw [hget, hengine]
    simp [SovereignStateEngine.new, hsame]
  rw [ruleOf]
  cases hfind : rules.find? fun rule => rule.1 = k with
  | some rule =>
    have hname : rule.1 = k := by simpa using List.find?_some hfind
    rw [(hget' _).mpr ⟨rule, List.mem_of_find?_eq_some hfind, hname, rfl⟩]
    rfl
  | none =>
    cases hreg : node.harness.nogoLayer.stateEngine.rules.get? k with
    | none => rfl
    | some reg =>
      obtain ⟨rule, hrule, hname, -⟩ := (hget' reg).mp hreg
      exact absurd (decide_eq_true hname) (List.find?_eq_none.mp hfind rule hrule)

end DistributedStateNode

/-! ### Receiving -/

/-- The rule that an evolution names. -/
def NetworkEvent.ruleName (P : PayloadEnv R ω κ) (netEvent : NetworkEvent R ω κ) :
    Except Raised String :=
  (payloadOf netEvent.payload).bind P.ruleName

/-- What an event makes of a state, under the rules.  An evolution that cannot be applied leaves
the state as it is. -/
def NetworkEvent.effect (P : PayloadEnv R ω κ) (rules : String → Option (TransitionRule R ω))
    (s : StateVector R) (netEvent : NetworkEvent R ω κ) : StateVector R :=
  match netEvent.eventType, netEvent.ruleName P with
  | .evolution, .ok ruleName => (evolvedBy rules ruleName s).getD s
  | _, _ => s

namespace DistributedStateNode

variable {P : PayloadEnv R ω κ} {rules : String → Option (TransitionRule R ω)}
  {netEvent : NetworkEvent R ω κ} {node : DistributedStateNode R ω κ}

/-- **Step lemma.**  What an event does to a harness. -/
theorem reapply_governed (hone : ¬(1 : R) < 1) {initialState : StateVector R}
    {harness : FullStackHarness R ω κ} (h : harness.Governed initialState rules)
    (netEvent : NetworkEvent R ω κ) :
    (reapply P netEvent harness).1.Governed initialState rules ∧
      (reapply P netEvent harness).1.state = netEvent.effect P rules harness.state := by
  rw [reapply, NetworkEvent.effect, NetworkEvent.ruleName]
  cases netEvent.eventType with
  | evolution =>
    cases (payloadOf netEvent.payload).bind P.ruleName with
    | error exc => exact ⟨h, rfl⟩
    | ok ruleName =>
      obtain ⟨hgoverned, hstate, -⟩ := h.evolveDeterministic hone ruleName
      exact ⟨hgoverned, hstate⟩
  | collapse =>
    cases (payloadOf netEvent.payload).bind P.tokenAndSeed with
    | error exc => exact ⟨h, rfl⟩
    | ok record => exact h.measureDeterministic record.1 record.2
  | sealing => exact h.sealTimeline _
  | other name => exact ⟨h, rfl⟩

/-- **Step lemma.**  An active node takes the effect of an event the first time. -/
theorem Governed.receiveEvent (hone : ¬(1 : R) < 1) (h : node.Governed rules)
    (netEvent : NetworkEvent R ω κ) :
    (node.receiveEvent P netEvent).1.Governed rules ∧
      (node.receiveEvent P netEvent).1.state
        = if node.lifecycle = .active ∧ netEvent.eventId ∉ node.seenEventIds then
            netEvent.effect P rules node.state
          else node.state := by
  obtain ⟨initialState, hharness⟩ := h
  by_cases hactive : node.lifecycle = .active
  · by_cases hseen : netEvent.eventId ∈ node.seenEventIds
    · rw [receiveEvent_of_seen hactive hseen, if_neg fun hnew => hnew.2 hseen]
      exact ⟨⟨_, hharness⟩, rfl⟩
    · obtain ⟨hgoverned, hstate⟩ := reapply_governed (P := P) hone hharness netEvent
      rw [receiveEvent_of_new hactive hseen, if_pos ⟨hactive, hseen⟩]
      exact ⟨⟨_, hgoverned⟩, hstate⟩
  · obtain ⟨exc, hr⟩ := receiveEvent_of_not_active P netEvent hactive
    rw [hr, if_neg fun hnew => hactive hnew.1]
    exact ⟨⟨_, hharness⟩, rfl⟩

/-- An active node accepts a new evolution if the rule makes a state of its state. -/
lemma Governed.receiveEvent_isOk (hone : ¬(1 : R) < 1) (h : node.Governed rules)
    (hactive : node.lifecycle = .active) (hnew : netEvent.eventId ∉ node.seenEventIds)
    (htype : netEvent.eventType = .evolution) {ruleName : String}
    (hname : netEvent.ruleName P = .ok ruleName)
    (hsome : (evolvedBy rules ruleName node.state).isSome = true) :
    (node.receiveEvent P netEvent).2.isOk = true := by
  obtain ⟨initialState, hharness⟩ := h
  obtain ⟨-, -, hok, -⟩ := hharness.evolveDeterministic hone ruleName
  rw [receiveEvent_of_new hactive hnew]
  have hreapply : (reapply P netEvent node.harness).2
      = (node.harness.evolveDeterministic ruleName).2.map fun _ => () := by
    rw [NetworkEvent.ruleName] at hname
    simp only [reapply, htype, hname]
  have hisOk := hok.trans hsome
  simp only [hreapply]
  cases hr : (node.harness.evolveDeterministic ruleName).2 with
  | error exc => simp [hr, Except.isOk, Except.toBool] at hisOk
  | ok ref => rfl

end DistributedStateNode

/-! ### Calling -/

/-- The state in which a call leaves an active node. -/
def NodeCall.target (rules : String → Option (TransitionRule R ω)) (s : StateVector R) :
    NodeCall → StateVector R
  | evolve ruleName => (evolvedBy rules ruleName s).getD s
  | _ => s

/-- The event tells the peers what the call was. -/
def NodeCall.Tells (P : PayloadEnv R ω κ) (netEvent : NetworkEvent R ω κ) : NodeCall → Prop
  | evolve ruleName => netEvent.eventType = .evolution ∧ netEvent.ruleName P = .ok ruleName
  | measure _ _ => netEvent.eventType = .collapse
  | sealNode _ => netEvent.eventType = .sealing

namespace NodeCall

open Network.DistributedStateNode

variable {P : PayloadEnv R ω κ} {rules : String → Option (TransitionRule R ω)}
  {netEvent : NetworkEvent R ω κ} {node node' : DistributedStateNode R ω κ} {c : NodeCall}

/-- The event has the effect of the call. -/
lemma Tells.effect_eq (h : c.Tells P netEvent) (s : StateVector R) :
    netEvent.effect P rules s = c.target rules s := by
  cases c with
  | evolve ruleName =>
    obtain ⟨htype, hname⟩ := h
    simp only [NetworkEvent.effect, htype, hname, target]
  | measure tokenId seed =>
    have htype : netEvent.eventType = .collapse := h
    simp only [NetworkEvent.effect, htype, target]
  | sealNode reason =>
    have htype : netEvent.eventType = .sealing := h
    simp only [NetworkEvent.effect, htype, target]

/-- **Step lemma.**  What a call does to the state of its node. -/
theorem run_governed (hone : ¬(1 : R) < 1) (h : node.Governed rules) (c : NodeCall) :
    (c.run node).1.Governed rules ∧ (c.run node).1.state
      = if node.lifecycle = .active then c.target rules node.state else node.state := by
  obtain ⟨initialState, hharness⟩ := h
  obtain ⟨harness, hrun, hgoverned, hstate⟩ : ∃ harness, (c.run node).1.harness
      = (if node.lifecycle = .active then harness else node.harness) ∧
      harness.Governed initialState rules ∧ harness.state = c.target rules node.state := by
    cases c with
    | evolve ruleName =>
      obtain ⟨hgoverned, hstate, -⟩ := hharness.evolveDeterministic hone ruleName
      exact ⟨_, originate_harness _ _ node, hgoverned, hstate⟩
    | measure tokenId seed =>
      exact ⟨_, originate_harness _ _ node, hharness.measureDeterministic tokenId seed⟩
    | sealNode reason =>
      refine ⟨_, ?_, hharness.sealTimeline reason⟩
      rw [run, DistributedStateNode.sealNode, ← originate_harness .sealing
        (fun harness => harness.sealTimeline reason) node]
      split <;> next hr => rw [hr]
  rw [DistributedStateNode.state, Governed, hrun]
  split
  · exact ⟨⟨initialState, hgoverned⟩, hstate⟩
  · exact ⟨⟨initialState, hharness⟩, rfl⟩

/-- A call that raises leaves the state as it is. -/
lemma target_of_error (hone : ¬(1 : R) < 1) (h : node.Governed rules)
    (hactive : node.lifecycle = .active) {exc : Raised} (hr : c.run node = (node', .error exc)) :
    c.target rules node.state = node.state := by
  obtain ⟨initialState, hharness⟩ := h
  cases c with
  | evolve ruleName =>
    obtain ⟨-, -, hok, hevent⟩ := hharness.evolveDeterministic hone ruleName
    rcases hop : node.harness.evolveDeterministic ruleName with ⟨harness, exc | ref⟩
    · rw [hop] at hok
      have hnone : evolvedBy rules ruleName node.state = none :=
        Option.isNone_iff_eq_none.mp (Option.isSome_eq_false_iff.mp hok.symm)
      rw [target, hnone]
      rfl
    · -- the harness has evolved, and so the node has emitted an event
      simp only [hop] at hevent
      obtain ⟨event, observation, hlast, -⟩ := hevent rfl
      have hemit : node.originate .evolution (fun harness =>
          harness.evolveDeterministic ruleName) = _ :=
        (originate_of_ok hactive hop).trans (emit_ticked hlast)
      exact absurd (congrArg Prod.snd (hemit.symm.trans hr)) (by simp)
  | measure tokenId seed => rfl
  | sealNode reason => rfl

/-- **Emitting.**  The event tells what the call was; and the rule of an evolution that is
announced makes a state. -/
theorem run_ok (hone : ¬(1 : R) < 1) (h : node.Governed rules)
    (hr : c.run node = (node', .ok netEvent)) :
    c.Tells P netEvent ∧ ∀ ruleName, c = evolve ruleName →
      (evolvedBy rules ruleName node.state).isSome = true := by
  obtain ⟨initialState, hharness⟩ := h
  cases c with
  | evolve ruleName =>
    obtain ⟨htype, harness, a, event, hop, hlast, hevent⟩ := originate_ok hr
    obtain ⟨-, -, hok, hnamed⟩ := hharness.evolveDeterministic hone ruleName
    simp only [hop] at hok hnamed
    obtain ⟨event', observation, hlast', hpayload, hname⟩ := hnamed rfl
    obtain rfl := Option.some.inj (hlast.symm.trans hlast')
    refine ⟨⟨htype, ?_⟩, ?_⟩
    · rw [NetworkEvent.ruleName, hevent, payloadOf, ← hname]
      simp only [Except.bind, hpayload, PayloadEnv.ruleName]
    · intro name hcall
      cases hcall
      exact hok.symm
  | measure tokenId seed =>
    exact ⟨(originate_ok hr).1, fun name hcall => nomatch hcall⟩
  | sealNode reason =>
    refine ⟨?_, fun name hcall => nomatch hcall⟩
    rw [run, DistributedStateNode.sealNode] at hr
    split at hr
    · exact absurd (congrArg Prod.snd hr) (by simp)
    · next hsealed =>
      rw [← Except.ok.inj (congrArg Prod.snd hr)]
      exact (originate_ok hsealed).1

end NodeCall

end QuantumFoundation.Network
