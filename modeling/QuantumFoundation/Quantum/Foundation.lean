import QuantumFoundation.Lib.EventLog
import QuantumFoundation.Lib.HashChain
import QuantumFoundation.Lib.Run
import QuantumFoundation.Quantum.CausalHistory
import QuantumFoundation.Quantum.Measurement

/-!
# The foundation system

The wiring of `integration.py`: a state engine, a collapse engine and a timeline.  Every delta and
every collapse is recorded in the timeline, after the engine has logged it.  The three logs stay in
step over every run, whatever is refused on the way.
-/

namespace QuantumFoundation

variable {R ω κ : Type*} [PyFloat R]

/-! ### Payloads -/

/-- The payloads that the system, and the layers above it, record in a timeline; a compensation
carries a payload that the caller gives. -/
inductive Payload (R ω κ : Type*) [PyFloat R]
  | genesis (systemName initialState : String)
  | delta (delta : StateDelta R ω)
  | collapse (event : IrreversibleCollapseEvent R)
  | evolution (observation : Observation ω) (noiseFidelity : R)
  | noisyEvolution (observation : Observation ω) (noise : R)
  | correction (detectedError : String) (confidence : R) (success : Bool)
  | other (value : κ)

/-! ### The system -/

/-- The system. -/
structure QuantumFoundationSystem (R ω κ : Type*) [PyFloat R] where
  name : String
  stateEngine : SovereignStateEngine R ω
  collapseEngine : CollapseEngine R
  timeline : CausalTimeline (Payload R ω κ)

/-- The delta that a payload is, if it is one. -/
def Payload.delta? : Payload R ω κ → Option (StateDelta R ω)
  | .delta d => some d
  | _ => none

/-- The payloads of the events of one type. -/
def payloadsOf (eventType : String) (events : List (CausalEvent (Payload R ω κ))) :
    List (Payload R ω κ) :=
  EventLog.ofKind CausalEvent.eventType CausalEvent.payload eventType events

/-- The next state of the last `STATE_DELTA` event, or the initial state. -/
def lastState (initialState : StateVector R) (events : List (CausalEvent (Payload R ω κ))) :
    StateVector R :=
  tip StateDelta.nextState initialState ((payloadsOf "STATE_DELTA" events).filterMap Payload.delta?)

namespace QuantumFoundationSystem

/-- The constructor.  The event of the genesis has a type, so recording it does not raise. -/
def new (initialState : StateVector R) (name : String) : QuantumFoundationSystem R ω κ :=
  ⟨name, .new initialState, .new,
    (CausalTimeline.new.record "GENESIS" (.genesis name initialState.repr) false).1⟩

/-- `register_transition_rule`. -/
def registerTransitionRule (obsType : String) (rule : TransitionRule R ω) (description : String)
    (system : QuantumFoundationSystem R ω κ) : Attempt (QuantumFoundationSystem R ω κ) Unit :=
  let r := system.stateEngine.registerRule obsType rule description
  ({ system with stateEngine := r.1 }, r.2)

/-- `evolve`. -/
def evolve (observation : Observation ω) (system : QuantumFoundationSystem R ω κ) :
    Attempt (QuantumFoundationSystem R ω κ)
      (StateDelta R ω × CausalEvent (Payload R ω κ)) :=
  match system.stateEngine.observe observation with
  | (stateEngine, .error exc) => ({ system with stateEngine := stateEngine }, .error exc)
  | (stateEngine, .ok delta) =>
    let system := { system with stateEngine := stateEngine }
    match system.timeline.record "STATE_DELTA" (.delta delta) false with
    | (timeline, .error exc) => ({ system with timeline := timeline }, .error exc)
    | (timeline, .ok causalEvent) =>
      ({ system with timeline := timeline }, .ok (delta, causalEvent))

/-- `register_measurement_policy`. -/
def registerMeasurementPolicy (policy : MeasurementPolicy R)
    (system : QuantumFoundationSystem R ω κ) : Attempt (QuantumFoundationSystem R ω κ) Unit :=
  let r := system.collapseEngine.registerPolicy policy
  ({ system with collapseEngine := r.1 }, r.2)

/-- `issue_collapse_token`. -/
def issueCollapseToken (policyName tokenId : String) (system : QuantumFoundationSystem R ω κ) :
    Except Raised CollapseToken :=
  system.collapseEngine.issueToken policyName tokenId

/-- `measure`. -/
def measure (token : CollapseToken) (seed : ℤ) (system : QuantumFoundationSystem R ω κ) :
    Attempt (QuantumFoundationSystem R ω κ)
      (IrreversibleCollapseEvent R × CausalEvent (Payload R ω κ)) :=
  let currentState := system.stateEngine.currentState
  match system.collapseEngine.collapse currentState token seed with
  | (collapseEngine, .error exc) => ({ system with collapseEngine := collapseEngine }, .error exc)
  | (collapseEngine, .ok collapseEvent) =>
    let system := { system with collapseEngine := collapseEngine }
    match system.timeline.record "COLLAPSE" (.collapse collapseEvent) false with
    | (timeline, .error exc) => ({ system with timeline := timeline }, .error exc)
    | (timeline, .ok causalEvent) =>
      ({ system with timeline := timeline }, .ok (collapseEvent, causalEvent))

/-- `seal_timeline`. -/
def sealTimeline (reason : String) (system : QuantumFoundationSystem R ω κ) :
    Attempt (QuantumFoundationSystem R ω κ) Unit :=
  match system.timeline.events.getLast? with
  | none => (system, .error ⟨.valueError, "Cannot seal an empty timeline."⟩)
  | some last =>
    let r := system.timeline.sealUpTo last.causalId reason
    ({ system with timeline := r.1 }, r.2.map fun _ => ())

/-- `compensate`. -/
def compensate (targetCausalId : ℤ) (compensationPayload : Payload R ω κ) (reason : String)
    (system : QuantumFoundationSystem R ω κ) :
    Attempt (QuantumFoundationSystem R ω κ) (CausalEvent (Payload R ω κ)) :=
  let r := system.timeline.compensate targetCausalId compensationPayload reason
  ({ system with timeline := r.1 }, r.2)

/-! ### Runs -/

end QuantumFoundationSystem

/-- The calls of the methods of the system. -/
inductive SystemCall (R ω κ : Type*) [PyFloat R]
  | registerTransitionRule (obsType : String) (rule : TransitionRule R ω) (description : String)
  | evolve (observation : Observation ω)
  | registerMeasurementPolicy (policy : MeasurementPolicy R)
  | issueCollapseToken (policyName tokenId : String)
  | measure (token : CollapseToken) (seed : ℤ)
  | compensate (targetCausalId : ℤ) (compensationPayload : Payload R ω κ) (reason : String)
  | sealTimeline (reason : String)

namespace QuantumFoundationSystem

/-- What a call leaves behind, whether it returns or raises. -/
def perform (system : QuantumFoundationSystem R ω κ) :
    SystemCall R ω κ → QuantumFoundationSystem R ω κ
  | .registerTransitionRule obsType rule description =>
    (system.registerTransitionRule obsType rule description).1
  | .evolve observation => (system.evolve observation).1
  | .registerMeasurementPolicy policy => (system.registerMeasurementPolicy policy).1
  | .issueCollapseToken _ _ => system
  | .measure token seed => (system.measure token seed).1
  | .compensate target payload reason => (system.compensate target payload reason).1
  | .sealTimeline reason => (system.sealTimeline reason).1

/-- The call is a compensation that returns. -/
def compensates (system : QuantumFoundationSystem R ω κ) : SystemCall R ω κ → Bool
  | .compensate target payload reason => (system.compensate target payload reason).2.isOk
  | _ => false

/-- The number of compensations that return, over a run. -/
def compensations : QuantumFoundationSystem R ω κ → List (SystemCall R ω κ) → ℕ
  | _, [] => 0
  | system, c :: calls =>
    (system.compensates c).toNat + compensations (system.perform c) calls

/-! ### Logs in step -/

variable {initialState : StateVector R} {events : List (CausalEvent (Payload R ω κ))}
  {event : CausalEvent (Payload R ω κ)} {deltas : List (StateDelta R ω)}
  {collapses : List (IrreversibleCollapseEvent R)}

/-- The law of a `COLLAPSE` event: the state it collapsed is the last one before it. -/
def CollapsesLast (initialState : StateVector R)
    (before : List (CausalEvent (Payload R ω κ))) (e : CausalEvent (Payload R ω κ)) : Prop :=
  e.eventType = "COLLAPSE" →
    ∃ c, e.payload = .collapse c ∧ c.preCollapseState = lastState initialState before

/-- The events tell of these deltas and of these collapses. -/
structure Tells (initialState : StateVector R) (events : List (CausalEvent (Payload R ω κ)))
    (deltas : List (StateDelta R ω)) (collapses : List (IrreversibleCollapseEvent R)) : Prop where
  deltas_eq : payloadsOf "STATE_DELTA" events = deltas.map .delta
  collapses_eq : payloadsOf "COLLAPSE" events = collapses.map .collapse
  length_eq : events.length
    = 1 + deltas.length + collapses.length + events.countP (·.isCompensation)
  collapsesLast : EventLog.EachAfter (CollapsesLast initialState) events

namespace Tells

lemma lastState_eq (h : Tells initialState events deltas collapses) :
    lastState initialState events = tip StateDelta.nextState initialState deltas := by
  have hdelta : (Payload.delta? ∘ Payload.delta (κ := κ) : StateDelta R ω → _) = some := rfl
  rw [lastState, h.deltas_eq, List.filterMap_map, hdelta, List.filterMap_some]

/-- One more delta. -/
lemma delta (h : Tells initialState events deltas collapses) {d : StateDelta R ω}
    (htype : event.eventType = "STATE_DELTA") (hpayload : event.payload = .delta d)
    (hcomp : event.isCompensation = false) :
    Tells initialState (events ++ [event]) (deltas ++ [d]) collapses := by
  have hne : event.eventType ≠ "COLLAPSE" := by
    rw [htype]
    decide
  refine ⟨?_, ?_, ?_, EventLog.eachAfter_append_singleton.mpr ⟨h.collapsesLast, ?_⟩⟩
  · rw [payloadsOf, EventLog.ofKind_append_of_eq htype, ← payloadsOf, h.deltas_eq, hpayload,
      List.map_append, List.map_singleton]
  · rw [payloadsOf, EventLog.ofKind_append_of_ne hne, ← payloadsOf, h.collapses_eq]
  · have hlen := h.length_eq
    simp only [List.length_append, List.length_singleton, List.countP_append,
      List.countP_singleton, hcomp]
    simp only [Bool.false_eq_true, if_false]
    omega
  · intro h'
    exact absurd h' hne

/-- One more collapse, of the last state. -/
lemma collapse (h : Tells initialState events deltas collapses) {c : IrreversibleCollapseEvent R}
    (htype : event.eventType = "COLLAPSE") (hpayload : event.payload = .collapse c)
    (hcomp : event.isCompensation = false)
    (hpre : c.preCollapseState = tip StateDelta.nextState initialState deltas) :
    Tells initialState (events ++ [event]) deltas (collapses ++ [c]) := by
  have hne : event.eventType ≠ "STATE_DELTA" := by
    rw [htype]
    decide
  refine ⟨?_, ?_, ?_, EventLog.eachAfter_append_singleton.mpr ⟨h.collapsesLast, ?_⟩⟩
  · rw [payloadsOf, EventLog.ofKind_append_of_ne hne, ← payloadsOf, h.deltas_eq]
  · rw [payloadsOf, EventLog.ofKind_append_of_eq htype, ← payloadsOf, h.collapses_eq, hpayload,
      List.map_append, List.map_singleton]
  · have hlen := h.length_eq
    simp only [List.length_append, List.length_singleton, List.countP_append,
      List.countP_singleton, hcomp]
    simp only [Bool.false_eq_true, if_false]
    omega
  · intro
    exact ⟨c, hpayload, hpre.trans h.lastState_eq.symm⟩

/-- One more compensation. -/
lemma compensation (h : Tells initialState events deltas collapses)
    (htype : event.eventType = "COMPENSATION") (hcomp : event.isCompensation = true) :
    Tells initialState (events ++ [event]) deltas collapses := by
  have hdelta : event.eventType ≠ "STATE_DELTA" := by
    rw [htype]
    decide
  have hcollapse : event.eventType ≠ "COLLAPSE" := by
    rw [htype]
    decide
  refine ⟨?_, ?_, ?_, EventLog.eachAfter_append_singleton.mpr ⟨h.collapsesLast, ?_⟩⟩
  · rw [payloadsOf, EventLog.ofKind_append_of_ne hdelta, ← payloadsOf, h.deltas_eq]
  · rw [payloadsOf, EventLog.ofKind_append_of_ne hcollapse, ← payloadsOf, h.collapses_eq]
  · have hlen := h.length_eq
    simp only [List.length_append, List.length_singleton, List.countP_append,
      List.countP_singleton, hcomp]
    simp only [if_true]
    omega
  · intro h'
    exact absurd h' hcollapse

end Tells

/-- A new system records its genesis. -/
lemma timeline_new (initialState : StateVector R) (name : String) :
    ∃ event, (new initialState name : QuantumFoundationSystem R ω κ).timeline
        = CausalTimeline.new.append event ∧
      CausalTimeline.new.IsNext event ∧ event.eventType = "GENESIS" ∧
      event.isCompensation = false := by
  obtain ⟨event, hr, hnext, htype, -, hcomp⟩ := CausalTimeline.record_of_ne "GENESIS" (by decide)
    (.genesis name initialState.repr) false (CausalTimeline.new : CausalTimeline (Payload R ω κ))
  refine ⟨event, ?_, hnext, htype, hcomp⟩
  rw [new, hr]

/-- The three logs tell the same, and the state of the engine is the one its log ends with. -/
structure InStep (initialState : StateVector R) (system : QuantumFoundationSystem R ω κ) :
    Prop where
  wellFormed : system.timeline.WellFormed
  tells : Tells initialState system.timeline.events system.stateEngine.deltaLog
    system.collapseEngine.collapseLog
  state_eq : system.stateEngine.state
    = tip StateDelta.nextState initialState system.stateEngine.deltaLog

namespace InStep

variable {system : QuantumFoundationSystem R ω κ}

lemma init (initialState : StateVector R) (name : String) :
    InStep initialState (new initialState name : QuantumFoundationSystem R ω κ) := by
  have hwf : CausalTimeline.WellFormed (CausalTimeline.new : CausalTimeline (Payload R ω κ)) :=
    CausalTimeline.WellFormed.init
  obtain ⟨event, htimeline, hnext, htype, hcomp⟩ := timeline_new (ω := ω) (κ := κ) initialState name
  have hevents : (new initialState name : QuantumFoundationSystem R ω κ).timeline.events
      = [] ++ [event] := congrArg CausalTimeline.events htimeline
  refine ⟨by rw [htimeline]; exact hwf.append hnext, ⟨?_, ?_, ?_, ?_⟩, rfl⟩
  · rw [hevents, payloadsOf, EventLog.ofKind_append_of_ne (by rw [htype]; decide)]
    rfl
  · rw [hevents, payloadsOf, EventLog.ofKind_append_of_ne (by rw [htype]; decide)]
    rfl
  · rw [hevents, List.nil_append, List.countP_singleton, hcomp]
    rfl
  · rw [hevents]
    refine EventLog.eachAfter_append_singleton.mpr ⟨EventLog.eachAfter_nil, fun h => ?_⟩
    exact absurd (htype.symm.trans h) (by decide)

/-- **Step lemma.**  Every call keeps the logs in step, and appends a compensation exactly if it is
one that returns. -/
theorem perform (h : InStep initialState system) (c : SystemCall R ω κ) :
    InStep initialState (system.perform c) ∧
      (system.perform c).timeline.events.countP (·.isCompensation)
        = system.timeline.events.countP (·.isCompensation) + (system.compensates c).toNat := by
  cases c with
  | registerTransitionRule obsType rule description =>
    refine ⟨?_, rfl⟩
    rw [QuantumFoundationSystem.perform, registerTransitionRule]
    rcases system.stateEngine.registerRule_cases obsType rule description with
      ⟨exc, hr⟩ | ⟨-, hr⟩ <;> rw [hr] <;> exact ⟨h.wellFormed, h.tells, h.state_eq⟩
  | evolve observation =>
    rw [QuantumFoundationSystem.perform, evolve]
    rcases system.stateEngine.observe_cases observation with ⟨exc, hr, -⟩ | ⟨delta, hr, -, -⟩
    · rw [hr]
      exact ⟨⟨h.wellFormed, h.tells, h.state_eq⟩, rfl⟩
    · -- the state engine has committed, and the timeline takes every event that has a type
      rw [hr]
      obtain ⟨event, hrec, hnext, htype, hpayload, hcomp⟩ := system.timeline.record_of_ne
        "STATE_DELTA" (by decide) (.delta delta) false
      simp only [hrec]
      have htells := h.tells.delta htype hpayload hcomp
      have htip : tip StateDelta.nextState initialState (system.stateEngine.deltaLog ++ [delta])
          = delta.nextState := tip_append_singleton
      refine ⟨⟨h.wellFormed.append hnext, htells, htip.symm⟩, ?_⟩
      simp [CausalTimeline.append, hcomp, compensates]
  | registerMeasurementPolicy policy =>
    refine ⟨?_, rfl⟩
    rw [QuantumFoundationSystem.perform, registerMeasurementPolicy]
    rcases system.collapseEngine.registerPolicy_cases policy with
      ⟨exc, hr⟩ | ⟨-, hr⟩ <;> rw [hr] <;> exact ⟨h.wellFormed, h.tells, h.state_eq⟩
  | issueCollapseToken policyName tokenId => exact ⟨h, rfl⟩
  | measure token seed =>
    rw [QuantumFoundationSystem.perform, measure]
    rcases system.collapseEngine.collapse_cases system.stateEngine.currentState token seed with
      ⟨exc, hr, -⟩ | ⟨collapse, hr, -, hrecords⟩
    · simp only [hr]
      exact ⟨⟨h.wellFormed, h.tells, h.state_eq⟩, rfl⟩
    · simp only [hr]
      obtain ⟨event, hrec, hnext, htype, hpayload, hcomp⟩ := system.timeline.record_of_ne
        "COLLAPSE" (by decide) (.collapse collapse) false
      simp only [hrec]
      -- what was collapsed is the state of the state engine, so the state its log ends with
      have hpre := hrecords.preCollapseState_eq.trans h.state_eq
      have htells := h.tells.collapse htype hpayload hcomp hpre
      refine ⟨⟨h.wellFormed.append hnext, htells, h.state_eq⟩, ?_⟩
      simp [CausalTimeline.append, hcomp, compensates]
  | compensate target payload reason =>
    have hwf := h.wellFormed.perform (.compensate target payload reason)
    rw [CausalTimeline.perform] at hwf
    simp only [QuantumFoundationSystem.perform, compensates, compensate]
    rcases system.timeline.compensate_cases h.wellFormed.le_clock target payload reason with
      ⟨exc, hr⟩ | ⟨event, link, -, -, hr, -, htype, -, hcomp, -⟩
    · rw [hr]
      exact ⟨⟨h.wellFormed, h.tells, h.state_eq⟩, rfl⟩
    · -- a compensation is on the timeline only
      rw [hr] at hwf ⊢
      refine ⟨⟨hwf, h.tells.compensation htype hcomp, h.state_eq⟩, ?_⟩
      simp [CausalTimeline.appendLinked, CausalTimeline.append, hcomp, Except.isOk, Except.toBool]
  | sealTimeline reason =>
    rw [QuantumFoundationSystem.perform, sealTimeline]
    cases hlast : system.timeline.events.getLast? with
    | none => exact ⟨h, rfl⟩
    | some last =>
      have hwf := h.wellFormed.perform (.sealUpTo last.causalId reason)
      rw [CausalTimeline.perform] at hwf
      simp only [compensates]
      rcases system.timeline.sealUpTo_cases last.causalId reason with
        ⟨exc, hr⟩ | ⟨ponr, -, -, -, hr⟩ <;> rw [hr] at hwf ⊢ <;>
        exact ⟨⟨hwf, h.tells, h.state_eq⟩, rfl⟩

/-- **Run lemma.** -/
theorem exec (h : InStep initialState system) (calls : List (SystemCall R ω κ)) :
    InStep initialState (Run.exec QuantumFoundationSystem.perform system calls) ∧
      (Run.exec QuantumFoundationSystem.perform system calls).timeline.events.countP
          (·.isCompensation)
        = system.timeline.events.countP (·.isCompensation) + system.compensations calls := by
  induction calls generalizing system with
  | nil => exact ⟨h, rfl⟩
  | cons c calls ih =>
    obtain ⟨hnext, hcount⟩ := h.perform c
    obtain ⟨hlast, hrest⟩ := ih hnext
    refine ⟨hlast, ?_⟩
    rw [Run.exec_cons, hrest, hcount, compensations, Nat.add_assoc]

end InStep

/-- **The logs stay in step.**  Over every run, the payloads of the `STATE_DELTA` events are the
delta log, those of the `COLLAPSE` events are the collapse log, the timeline has one event for
the genesis, one for each delta and each collapse, and one for each compensation that returned,
and the state collapsed by a `COLLAPSE` event is the next state of the last `STATE_DELTA` before
it, or the initial state. -/
theorem logs_in_step (initialState : StateVector R) (name : String)
    (calls : List (SystemCall R ω κ)) :
    let start : QuantumFoundationSystem R ω κ := new initialState name
    let system := Run.exec perform start calls
    payloadsOf "STATE_DELTA" system.timeline.events = system.stateEngine.deltaLog.map .delta ∧
      payloadsOf "COLLAPSE" system.timeline.events
        = system.collapseEngine.collapseLog.map .collapse ∧
      system.timeline.length = 1 + system.stateEngine.deltaLog.length
        + system.collapseEngine.collapseLog.length + start.compensations calls ∧
      EventLog.EachAfter (CollapsesLast initialState) system.timeline.events := by
  intro start system
  obtain ⟨hstep, hcount⟩ := (InStep.init (κ := κ) (ω := ω) initialState name).exec calls
  refine ⟨hstep.tells.deltas_eq, hstep.tells.collapses_eq, ?_, hstep.tells.collapsesLast⟩
  have hgenesis : start.timeline.events.countP (·.isCompensation) = 0 := by
    have hlen := (InStep.init (κ := κ) (ω := ω) initialState name).tells.length_eq
    have hone : start.timeline.events.length = 1 := rfl
    simp only [start] at hone ⊢
    omega
  have hlen := hstep.tells.length_eq
  rw [hcount, hgenesis, Nat.zero_add] at hlen
  exact hlen

end QuantumFoundationSystem

end QuantumFoundation
