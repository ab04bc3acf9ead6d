import QuantumFoundation.Lib.Arrivals
import QuantumFoundation.Network.Alike

/-!
# The order of arrival

A node applies an event when it first arrives, whatever the clock of the event; nothing waits for
an earlier one.  Nodes that are built alike and receive the same events therefore agree if the
events first arrive in the order of their clocks, as they do on the bus, or if the rules commute;
otherwise they need not.
-/

namespace QuantumFoundation.Network

variable {R ω κ : Type*} [PyFloat R]

open NodeNetwork

namespace DistributedStateNode

variable {P : PayloadEnv R ω κ} {rules : String → Option (TransitionRule R ω)}
  {node : DistributedStateNode R ω κ}

/-- The events are received one after the other, whether or not one of them raises. -/
def receiveAll (P : PayloadEnv R ω κ) (events : List (NetworkEvent R ω κ))
    (node : DistributedStateNode R ω κ) : DistributedStateNode R ω κ :=
  events.foldl (fun node netEvent => (node.receiveEvent P netEvent).1) node

/-- What is seen of a node as a receiver. -/
def receiver (node : DistributedStateNode R ω κ) : StateVector R × Finset String :=
  (node.state, node.seenEventIds)

/-- **Step lemma.**  An active node absorbs an event by its id. -/
theorem receiver_receiveEvent (hone : ¬(1 : R) < 1) (h : node.Governed rules)
    (hactive : node.lifecycle = .active) (netEvent : NetworkEvent R ω κ) :
    (node.receiveEvent P netEvent).1.receiver
      = absorb (·.eventId) (NetworkEvent.effect P rules) node.receiver netEvent := by
  obtain ⟨-, hstate⟩ := h.receiveEvent (P := P) hone netEvent
  rw [absorb, receiver, hstate]
  by_cases hseen : netEvent.eventId ∈ node.seenEventIds
  · rw [receiveEvent_of_seen hactive hseen, if_neg fun hnew => hnew.2 hseen]
    exact (if_pos hseen).symm
  · rw [receiveEvent_of_new hactive hseen, if_pos ⟨hactive, hseen⟩]
    exact (if_neg hseen).symm

/-- **Run lemma.**  The state of a node is what the events, in the order in which they first
arrive, make of the state it was in. -/
theorem state_receiveAll (hone : ¬(1 : R) < 1) (h : node.Governed rules)
    (hactive : node.lifecycle = .active) (events : List (NetworkEvent R ω κ)) :
    (node.receiveAll P events).state = (firstArrivals (·.eventId) node.seenEventIds events).foldl
      (NetworkEvent.effect P rules) node.state := by
  suffices hrun : (node.receiveAll P events).receiver
      = events.foldl (absorb (·.eventId) (NetworkEvent.effect P rules)) node.receiver by
    exact (congrArg Prod.fst hrun).trans (foldl_absorb _ _ _ _)
  induction events generalizing node with
  | nil => rfl
  | cons netEvent events ih =>
    rw [List.foldl_cons, ← receiver_receiveEvent hone h hactive]
    exact ih (h.receiveEvent hone netEvent).1
      ((lifecycle_receiveEvent P netEvent node).trans hactive)

/-- **The order of arrival.**  Nodes that are built alike take the effects of the events they
receive in the order in which these first arrive.  If they receive the same events, they agree
when the events first arrive in the order of their clocks at both of them, and whenever the
effects of the events commute. -/
theorem states_by_arrival (hone : ¬(1 : R) < 1) (P : PayloadEnv R ω κ) {O : SetOrder}
    {initialAmplitudes : Dict String (PyComplex R)}
    {rules : List (String × Dict (String × String) (PyComplex R) × String)}
    {a b : DistributedStateNode R ω κ} (ha : a.BuiltWith O initialAmplitudes rules)
    (hb : b.BuiltWith O initialAmplitudes rules) {events events' : List (NetworkEvent R ω κ)}
    (hsame : ∀ e, e ∈ events ↔ e ∈ events')
    (hids : ∀ e ∈ events, ∀ f ∈ events, e.eventId = f.eventId → e = f) :
    let effect := NetworkEvent.effect P (ruleOf O rules)
    let first := firstArrivals (fun e : NetworkEvent R ω κ => e.eventId) ∅
    ((a.receiveAll P events).state = (first events).foldl effect a.state ∧
      (b.receiveAll P events').state = (first events').foldl effect a.state) ∧
    ((first events).Pairwise (fun e f => e.logicalClock < f.logicalClock) →
      (first events').Pairwise (fun e f => e.logicalClock < f.logicalClock) →
      (a.receiveAll P events).state = (b.receiveAll P events').state) ∧
    ((∀ e ∈ events, ∀ f ∈ events, ∀ s, effect (effect s e) f = effect (effect s f) e) →
      (a.receiveAll P events).state = (b.receiveAll P events').state) := by
  intro effect first
  have hstart : b.state = a.state := Except.ok.inj (hb.governed.2.symm.trans ha.governed.2)
  have hstate_a := state_receiveAll (P := P) hone ha.governed.1 ha.fresh.lifecycle_eq events
  have hstate_b := state_receiveAll (P := P) hone hb.governed.1 hb.fresh.lifecycle_eq events'
  rw [ha.fresh.seenEventIds_eq] at hstate_a
  rw [hb.fresh.seenEventIds_eq, hstart] at hstate_b
  refine ⟨⟨hstate_a, hstate_b⟩, fun h h' => ?_, fun hcomm => ?_⟩
  · rw [hstate_a, hstate_b, firstArrivals_eq_of_increasing hsame hids h h']
  · rw [hstate_a, hstate_b, foldl_firstArrivals_eq hsame hids hcomm]

/-- A reflection, which does not commute with the Pauli-X gate. -/
def reflectMatrix : Dict (String × String) (PyComplex ℚ) :=
  .ofList [(("0", "0"), ⟨3 / 5, 0⟩), (("0", "1"), ⟨4 / 5, 0⟩), (("1", "0"), ⟨4 / 5, 0⟩),
    (("1", "1"), ⟨-3 / 5, 0⟩)]

/-- The two gates. -/
def gates : List (String × Dict (String × String) (PyComplex ℚ) × String) :=
  [("X", flipMatrix, "Pauli-X Gate"), ("G", reflectMatrix, "")]

/-- A node with the two gates, in the basis state `0`. -/
def gateNode (nodeId : String) : Except Raised (DistributedStateNode ℚ Unit Unit) :=
  build .lastInsertion nodeId ketZeroAmplitudes "root" gates

/-- The events that a node emits which applies the one gate and then the other. -/
def gateEvents : Except Raised (NetworkEvent ℚ Unit Unit × NetworkEvent ℚ Unit Unit) := do
  let origin ← gateNode "NodeC"
  let flipped := origin.evolve "X"
  let first ← flipped.2
  let second ← (flipped.1.evolve "G").2
  return (first, second)

/-- Two nodes and the two events. -/
def gateScene : Except Raised ((DistributedStateNode ℚ Unit Unit × DistributedStateNode ℚ Unit Unit)
    × NetworkEvent ℚ Unit Unit × NetworkEvent ℚ Unit Unit) := do
  let a ← gateNode "NodeA"
  let b ← gateNode "NodeB"
  let events ← gateEvents
  return ((a, b), events)

lemma gateScene_ok {a b : DistributedStateNode ℚ Unit Unit}
    {first second : NetworkEvent ℚ Unit Unit}
    (h : gateScene = .ok ((a, b), first, second)) :
    a.BuiltWith .lastInsertion ketZeroAmplitudes gates ∧
      b.BuiltWith .lastInsertion ketZeroAmplitudes gates := by
  have hbuilt : ∀ {nodeId node}, gateNode nodeId = .ok node →
      node.BuiltWith .lastInsertion ketZeroAmplitudes gates :=
    fun hnode => ⟨_, _, _, fun _ => Iff.rfl, hnode⟩
  rw [gateScene] at h
  cases ha : gateNode "NodeA" with
  | error exc => simp [ha, bind, Except.bind] at h
  | ok nodeA =>
    cases hb : gateNode "NodeB" with
    | error exc => simp [ha, hb, bind, Except.bind] at h
    | ok nodeB =>
      cases he : gateEvents with
      | error exc => simp [ha, hb, he, bind, Except.bind] at h
      | ok events =>
        simp only [ha, hb, he, bind, Except.bind, pure, Except.pure, Except.ok.injEq,
          Prod.mk.injEq] at h
        obtain ⟨⟨rfl, rfl⟩, -⟩ := h
        exact ⟨hbuilt ha, hbuilt hb⟩

lemma exists_gateScene : ∃ a b first second, gateScene = .ok ((a, b), first, second) ∧
    first.eventType = .evolution ∧ second.eventType = .evolution ∧
    first.eventId = "NodeC:1" ∧ second.eventId = "NodeC:2" ∧
    first.logicalClock = 1 ∧ second.logicalClock = 2 := by
  obtain ⟨⟨⟨a, b⟩, first, second⟩, hscene⟩ : ∃ scene, gateScene = .ok scene :=
    exists_of_isSome (by decide +kernel)
  have hevents : gateScene.toOption.map (fun scene => decide
      (scene.2.1.eventType = .evolution ∧ scene.2.2.eventType = .evolution ∧
        scene.2.1.eventId = "NodeC:1" ∧ scene.2.2.eventId = "NodeC:2" ∧
        scene.2.1.logicalClock = 1 ∧ scene.2.2.logicalClock = 2)) = some true := by decide +kernel
  have hread := of_map_decide hevents hscene
  exact ⟨a, b, first, second, hscene, hread⟩

/-- The two events in the order of their clocks, with duplicates: the nodes end in one state. -/
theorem arrival_in_clock_order : ∃ a b first second, gateScene = .ok ((a, b), first, second) ∧
    (a.receiveAll plainEnv [first, second, first]).state
      = (b.receiveAll plainEnv [first, first, second]).state := by
  obtain ⟨a, b, first, second, hscene, -, -, hid, hid', hclock, hclock'⟩ := exists_gateScene
  obtain ⟨ha, hb⟩ := gateScene_ok hscene
  have hne : first.eventId ≠ second.eventId := by
    rw [hid, hid']
    decide
  have hids : ∀ e ∈ [first, second, first], ∀ f ∈ [first, second, first],
      e.eventId = f.eventId → e = f := by
    intro e he f hf heq
    simp only [List.mem_cons, List.not_mem_nil, or_false] at he hf
    rcases he with rfl | rfl | rfl <;> rcases hf with rfl | rfl | rfl <;>
      first | rfl | exact absurd heq hne | exact absurd heq.symm hne
  have hfirst : firstArrivals (fun e : NetworkEvent ℚ Unit Unit => e.eventId) ∅
      [first, second, first] = [first, second] := by
    simp [firstArrivals, hne.symm]
  have hfirst' : firstArrivals (fun e : NetworkEvent ℚ Unit Unit => e.eventId) ∅
      [first, first, second] = [first, second] := by
    simp [firstArrivals, hne.symm]
  have hincreasing : [first, second].Pairwise fun e f => e.logicalClock < f.logicalClock := by
    simp [hclock, hclock']
  refine ⟨a, b, first, second, hscene, (states_by_arrival (lt_irrefl 1) plainEnv ha hb
    (fun e => ?_) hids).2.1 ?_ ?_⟩
  · simp only [List.mem_cons, List.not_mem_nil, or_false]
    tauto
  · rwa [hfirst]
  · rwa [hfirst']

/-- The two events in both orders: the nodes end in different states. -/
theorem arrival_order_matters : ∃ (a b : DistributedStateNode ℚ Unit Unit)
    (events events' : List (NetworkEvent ℚ Unit Unit)),
    a.BuiltWith .lastInsertion ketZeroAmplitudes gates ∧
    b.BuiltWith .lastInsertion ketZeroAmplitudes gates ∧
    (∀ e ∈ events, e.eventType = .evolution) ∧ (events.map (·.eventId)).Nodup ∧
    (∀ e, e ∈ events ↔ e ∈ events') ∧
    (a.receiveAll plainEnv events).state ≠ (b.receiveAll plainEnv events').state := by
  obtain ⟨a, b, first, second, hscene, htype, htype', hid, hid', -⟩ := exists_gateScene
  obtain ⟨ha, hb⟩ := gateScene_ok hscene
  have hstates : gateScene.toOption.map (fun scene => decide
      ((scene.1.1.receiveAll plainEnv [scene.2.1, scene.2.2]).state.amplitudes.map
          (fun amp => (amp.basisLabel, amp.value.re)) = [("0", 4 / 5), ("1", -3 / 5)] ∧
        (scene.1.2.receiveAll plainEnv [scene.2.2, scene.2.1]).state.amplitudes.map
          (fun amp => (amp.basisLabel, amp.value.re)) = [("0", 4 / 5), ("1", 3 / 5)]))
      = some true := by decide +kernel
  have hstates := of_map_decide hstates hscene
  refine ⟨a, b, [first, second], [second, first], ha, hb, ?_, ?_, ?_, ?_⟩
  · exact List.forall_mem_cons.mpr ⟨htype, List.forall_mem_singleton.mpr htype'⟩
  · rw [List.map_cons, List.map_singleton, hid, hid']
    decide
  · intro e
    exact (List.Perm.swap second first []).mem_iff
  · intro heq
    have hlists := hstates.1.symm.trans ((congrArg (fun s : StateVector ℚ => s.amplitudes.map
      fun amp => (amp.basisLabel, amp.value.re)) heq).trans hstates.2)
    exact absurd hlists (by decide +kernel)

end DistributedStateNode

end QuantumFoundation.Network
