import QuantumFoundation.Quantum.HarnessSteps
import QuantumFoundation.Quantum.TokenHistory

/-!
# The ledger of a harness

What the evolutions and measurements of a harness read and write: the current state, the collapse
engine, the timeline and the error model, without the fresh ids of the references.  Each of the two
operations is a function of the ledger and the rules, so that harnesses with the same rules and the
same ledger return and raise together, and have the same ledger afterwards.
-/

namespace QuantumFoundation

variable {R ω κ : Type*} [PyFloat R]

/-! ### What is unique -/

/-- The next event of a timeline is fixed by its type, its payload and its kind. -/
lemma CausalTimeline.IsNext.unique {π : Type*} {t : CausalTimeline π} {e e' : CausalEvent π}
    (h : t.IsNext e) (h' : t.IsNext e') (htype : e.eventType = e'.eventType)
    (hpayload : e.payload = e'.payload) (hcomp : e.isCompensation = e'.isCompensation) :
    e = e' := by
  have hid : e.causalId = e'.causalId := h.causalId.trans h'.causalId.symm
  have hpred : e.predecessorId = e'.predecessorId := by
    rw [h.predecessorId, h'.predecessorId, hid]
  cases e
  cases e'
  cases hid
  cases htype
  cases hpayload
  cases hpred
  cases hcomp
  rfl

/-- The record of a collapse is fixed by the engine, the state, the token and the seed. -/
lemma CollapseEngine.Records.unique {engine : CollapseEngine R} {state : StateVector R}
    {token : CollapseToken} {seed : ℤ} {e e' : IrreversibleCollapseEvent R}
    (h : engine.Records state token seed e) (h' : engine.Records state token seed e') : e = e' := by
  have hid : e.eventId = e'.eventId := h.eventId_eq.trans h'.eventId_eq.symm
  have hstate : e.preCollapseState = e'.preCollapseState :=
    h.preCollapseState_eq.trans h'.preCollapseState_eq.symm
  have htoken : e.tokenId = e'.tokenId := h.tokenId_eq.trans h'.tokenId_eq.symm
  have hresult : e.result = e'.result := by
    obtain ⟨policy, hpolicy, hmeasure⟩ := h.result_eq
    obtain ⟨policy', hpolicy', hmeasure'⟩ := h'.result_eq
    obtain rfl := Option.some.inj (hpolicy.symm.trans hpolicy')
    exact Except.ok.inj (hmeasure.symm.trans hmeasure')
  cases e
  cases e'
  cases hid
  cases hstate
  cases htoken
  cases hresult
  rfl

/-! ### The ledger -/

/-- The ledger. -/
structure Ledger (R ω κ : Type*) [PyFloat R] where
  state : StateVector R
  collapseEngine : CollapseEngine R
  timeline : CausalTimeline (Payload R ω κ)
  errorModel : ErrorModel R

namespace Ledger

/-- The ledger after an evolution, if the rule is not refused. -/
def evolve (ruleOf : String → Option (TransitionRule R ω)) (ruleName : String)
    (l : Ledger R ω κ) : Option (Ledger R ω κ) :=
  if h : ruleName = "" then none
  else (evolvedBy ruleOf ruleName l.state).map fun s =>
    { l with
      state := s
      timeline :=
        (l.timeline.record "STRICT_EVOLUTION" (.evolution ⟨ruleName, [], h⟩ 1) false).1 }

/-- The collapse that a measurement commits, if it commits one. -/
def collapse (tokenId : String) (seed : ℤ) (l : Ledger R ω κ) :
    Option (IrreversibleCollapseEvent R) :=
  (l.collapseEngine.issueToken "ProjectiveMeasurement" tokenId).toOption.bind fun token =>
    (l.collapseEngine.collapse l.state token seed).2.toOption

/-- The ledger after a measurement, if it commits a collapse. -/
def measure (tokenId : String) (seed : ℤ) (l : Ledger R ω κ) : Option (Ledger R ω κ) :=
  (l.collapse tokenId seed).map fun c =>
    { l with
      collapseEngine := l.collapseEngine.commit c
      timeline := (l.timeline.record "STRICT_COLLAPSE" (.collapse c) false).1
      errorModel := ⟨l.errorModel.totalInfoLoss + c.result.informationLossDeclared⟩ }

/-- The clock of the timeline is in step, and the collapse engine has kept its books. -/
structure Sound (l : Ledger R ω κ) : Prop where
  timeline : l.timeline.InStep
  tokens : l.collapseEngine.TokenHistory

variable {l l' : Ledger R ω κ}

lemma collapse_eq_some {tokenId : String} {seed : ℤ} {c : IrreversibleCollapseEvent R}
    (h : l.collapse tokenId seed = some c) : ∃ token,
      l.collapseEngine.issueToken "ProjectiveMeasurement" tokenId = .ok token ∧
        l.collapseEngine.Records l.state token seed c := by
  obtain ⟨token, htoken, hcollapse⟩ := Option.bind_eq_some_iff.mp h
  refine ⟨token, ?_, ?_⟩
  · cases hissued : l.collapseEngine.issueToken "ProjectiveMeasurement" tokenId with
    | error exc => simp [hissued, Except.toOption] at htoken
    | ok token' =>
      rw [hissued] at htoken
      rw [Option.some.inj htoken]
  · rcases l.collapseEngine.collapse_cases l.state token seed with
      ⟨exc, hr, -⟩ | ⟨event, hr, -, hrecords⟩
    · simp [hr, Except.toOption] at hcollapse
    · rw [hr] at hcollapse
      rwa [Option.some.inj hcollapse] at hrecords

/-- An evolution adds its event to the timeline. -/
lemma evolve_eq_some {ruleOf : String → Option (TransitionRule R ω)} {ruleName : String}
    (h : l.evolve ruleOf ruleName = some l') : ∃ event, l'.timeline = l.timeline.append event ∧
      l.timeline.IsNext event ∧ l'.collapseEngine = l.collapseEngine ∧
      ∃ observation, event.payload = .evolution observation 1 ∧
        observation.observationType = ruleName := by
  rw [evolve] at h
  split at h
  · exact absurd h.symm (Option.some_ne_none l')
  · next hname =>
    obtain ⟨s, -, rfl⟩ := Option.map_eq_some_iff.mp h
    obtain ⟨event, hrec, hnext, -, hpayload, -⟩ := l.timeline.record_of_ne "STRICT_EVOLUTION"
      (by decide) (.evolution ⟨ruleName, [], hname⟩ 1) false
    exact ⟨event, congrArg Prod.fst hrec, hnext, rfl, _, hpayload, rfl⟩

/-- A measurement adds its collapse to the log, and the event of the collapse to the timeline. -/
lemma measure_eq_some {tokenId : String} {seed : ℤ} (h : l.measure tokenId seed = some l') :
    ∃ event c, l'.timeline = l.timeline.append event ∧ l.timeline.IsNext event ∧
      event.payload = .collapse c ∧ l.collapse tokenId seed = some c ∧
      l'.collapseEngine = l.collapseEngine.commit c := by
  obtain ⟨c, hc, rfl⟩ := Option.map_eq_some_iff.mp h
  obtain ⟨event, hrec, hnext, -, hpayload, -⟩ := l.timeline.record_of_ne "STRICT_COLLAPSE"
    (by decide) (.collapse c) false
  exact ⟨event, c, congrArg Prod.fst hrec, hnext, hpayload, hc, rfl⟩

lemma Sound.evolve (h : l.Sound) {ruleOf : String → Option (TransitionRule R ω)}
    {ruleName : String} (hl : l.evolve ruleOf ruleName = some l') : l'.Sound := by
  obtain ⟨event, htimeline, hnext, hengine, -⟩ := evolve_eq_some hl
  refine ⟨?_, ?_⟩
  · rw [htimeline]
    exact h.timeline.append hnext
  · rw [hengine]
    exact h.tokens

lemma Sound.measure (h : l.Sound) {tokenId : String} {seed : ℤ}
    (hl : l.measure tokenId seed = some l') : l'.Sound := by
  obtain ⟨event, c, htimeline, hnext, -, hc, hengine⟩ := measure_eq_some hl
  obtain ⟨token, -, hrecords⟩ := collapse_eq_some hc
  refine ⟨?_, ?_⟩
  · rw [htimeline]
    exact h.timeline.append hnext
  · rw [hengine]
    exact h.tokens.commit hrecords

/-- A collapse carries the token and the seed that it was asked for. -/
lemma Sound.collapse_tokenId (h : l.Sound) {tokenId : String} {seed : ℤ}
    {c : IrreversibleCollapseEvent R} (hc : l.collapse tokenId seed = some c) :
    c.tokenId = tokenId ∧ c.result.seedUsed = seed := by
  obtain ⟨token, htoken, hrecords⟩ := collapse_eq_some hc
  obtain ⟨policy, hpolicy, hmeasure⟩ := hrecords.result_eq
  refine ⟨hrecords.tokenId_eq.trans (CollapseEngine.issueToken_ok htoken).1, ?_⟩
  exact ((h.tokens.signs _ _ hpolicy).2 _ _ _ hmeasure).2

end Ledger

/-- The ledger of a new harness that starts in the state. -/
def Ledger.initial (c1State : StateVector R) : Ledger R ω κ :=
  ⟨c1State, (CollapseEngine.new.registerPolicy ProjectiveMeasurementPolicy.policy).1,
    (CausalTimeline.new.record "GENESIS"
      (.genesis "FullStackDeterministicHarness" c1State.repr) false).1, .new⟩

lemma Ledger.initial_events (c1State : StateVector R) :
    ∃ genesis, (Ledger.initial c1State : Ledger R ω κ).timeline.events = [genesis] := by
  obtain ⟨event, hr, -⟩ := CausalTimeline.record_of_ne "GENESIS" (by decide)
    (.genesis "FullStackDeterministicHarness" c1State.repr) false
    (CausalTimeline.new : CausalTimeline (Payload R ω κ))
  refine ⟨event, ?_⟩
  rw [Ledger.initial, hr]
  rfl

lemma Ledger.Sound.initial (c1State : StateVector R) :
    (Ledger.initial c1State : Ledger R ω κ).Sound := by
  obtain ⟨event, hr, hnext, -⟩ := CausalTimeline.record_of_ne "GENESIS" (by decide)
    (.genesis "FullStackDeterministicHarness" c1State.repr) false
    (CausalTimeline.new : CausalTimeline (Payload R ω κ))
  refine ⟨?_, CollapseEngine.TokenHistory.init.registerPolicy
    ProjectiveMeasurementPolicy.policy_signs⟩
  rw [Ledger.initial, hr]
  exact CausalTimeline.InStep.init.append hnext

/-! ### The harness keeps the ledger -/

namespace FullStackHarness

/-- The ledger of a harness. -/
def ledger (harness : FullStackHarness R ω κ) : Ledger R ω κ :=
  ⟨harness.nogoLayer.stateEngine.state, harness.nogoLayer.collapseEngine,
    harness.nogoLayer.timeline, harness.nogoLayer.errorModel⟩

variable {initialState : StateVector R} {harness : FullStackHarness R ω κ}
  {ruleOf : String → Option (TransitionRule R ω)}

lemma ledger_of_new {O : SetOrder} {initialAmplitudes : Dict String (PyComplex R)}
    {rootId : String} (hnew : new O initialAmplitudes rootId = .ok harness) :
    harness.ledger = .initial harness.c1State := by
  obtain ⟨-, hlayer, -⟩ := new_ok hnew
  rw [ledger, hlayer]
  rfl

/-- Giving a rule is not entered in the ledger. -/
lemma defineUnitaryOperation_ledger (O : SetOrder) (ruleName : String)
    (matrix : Dict (String × String) (PyComplex R)) (description : String)
    (harness : FullStackHarness R ω κ) :
    (harness.defineUnitaryOperation O ruleName matrix description).1.ledger = harness.ledger := by
  rw [defineUnitaryOperation]
  cases UnitaryOperator.new O matrix with
  | error exc => rfl
  | ok u =>
    have hrule := harness.system.stateEngine.registerRule_cases ruleName (verifiedRule O matrix)
      description
    rcases hrule with ⟨exc, hr⟩ | ⟨-, hr⟩
    · simp only [QuantumFoundationSystem.registerTransitionRule, hr]
      rfl
    · simp only [QuantumFoundationSystem.registerTransitionRule, hr]
      rfl

/-- **Refinement.**  An evolution returns exactly if the ledger has one, and leaves its ledger
behind. -/
theorem evolveDeterministic_ledger (hone : ¬(1 : R) < 1) (h : harness.Governed initialState ruleOf)
    (ruleName : String) :
    (harness.evolveDeterministic ruleName).2.isOk
        = (harness.ledger.evolve ruleOf ruleName).isSome ∧
      (harness.evolveDeterministic ruleName).1.ledger
        = (harness.ledger.evolve ruleOf ruleName).getD harness.ledger := by
  have hevolved := h.evolved_eq ruleName
  rw [evolved] at hevolved
  rw [evolveDeterministic, Observation.new, Ledger.evolve]
  by_cases hname : ruleName = ""
  · rw [dif_pos hname, dif_pos hname]
    exact ⟨rfl, rfl⟩
  · rw [dif_neg hname] at hevolved
    rw [dif_neg hname, dif_neg hname]
    -- neither the reference nor the timeline nor the log can be what refuses
    have hevolution : harness.nogoLayer.evolution harness.stateReference ⟨ruleName, [], hname⟩
        = evolvedBy ruleOf ruleName harness.ledger.state := by
      rw [NoGoEnforcementEngine.evolution, if_pos ⟨h.tracked, h.linear⟩,
        SovereignStateEngine.evolution, if_pos h.states.accepts]
      exact hevolved
    rcases harness.nogoLayer.evolveStrictly_cases harness.stateReference ⟨ruleName, [], hname⟩ 1
      with ⟨exc, hr, hnone⟩ |
        ⟨delta, hsome, hrecords, ⟨hnoise, -⟩ | ⟨-, event, hr, hnext, htype, hpayload, hcomp⟩⟩
    · rw [← hevolution, hnone]
      simp only [hr]
      exact ⟨rfl, rfl⟩
    · exact absurd hnoise hone
    · obtain ⟨event', hrec, hnext', htype', hpayload', hcomp'⟩ :=
        harness.ledger.timeline.record_of_ne "STRICT_EVOLUTION" (by decide)
          (.evolution ⟨ruleName, [], hname⟩ 1) false
      obtain rfl := hnext.unique hnext' (htype.trans htype'.symm) (hpayload.trans hpayload'.symm)
        (hcomp.trans hcomp'.symm)
      rw [← hevolution, hsome]
      simp only [hr, hrec, Option.map_some, Option.getD_some]
      exact ⟨rfl, rfl⟩

/-- **Refinement.**  A measurement whose collapse disturbs the state returns exactly if the ledger
has one, and leaves its ledger behind. -/
theorem measureDeterministic_ledger (h : harness.Ready initialState) (tokenId : String) (seed : ℤ)
    (hdisturbs : ∀ c, harness.ledger.collapse tokenId seed = some c →
      NoGoEnforcementEngine.Disturbs c.result) :
    (harness.measureDeterministic tokenId seed).2.isOk
        = (harness.ledger.measure tokenId seed).isSome ∧
      (harness.measureDeterministic tokenId seed).1.ledger
        = (harness.ledger.measure tokenId seed).getD harness.ledger := by
  rw [Ledger.measure]
  have hcollapse : harness.ledger.collapse tokenId seed
      = (harness.system.issueCollapseToken "ProjectiveMeasurement" tokenId).toOption.bind
          fun token => (harness.ledger.collapseEngine.collapse harness.ledger.state token
            seed).2.toOption := rfl
  rw [measureDeterministic]
  cases htoken : harness.system.issueCollapseToken "ProjectiveMeasurement" tokenId with
  | error exc =>
    rw [htoken] at hcollapse
    rw [hcollapse]
    exact ⟨rfl, rfl⟩
  | ok token =>
    rw [htoken] at hcollapse
    have hresult : harness.nogoLayer.collapseResult harness.stateReference token seed
        = harness.ledger.collapseEngine.collapseResult harness.ledger.state token seed :=
      if_pos h.tracked
    rcases harness.ledger.collapseEngine.collapse_cases harness.ledger.state token seed with
      ⟨exc, hr, hnone⟩ | ⟨collapse, hr, hsome, hrecords⟩
    · -- what the collapse engine refuses, the layer refuses
      have hrefused : harness.ledger.collapse tokenId seed = none := by
        rw [hcollapse]
        simp only [Except.toOption, Option.bind_some, hr]
      rcases harness.nogoLayer.measureStrictly_cases harness.stateReference token seed with
        ⟨exc', hr', -⟩ | ⟨collapse, hsome, -⟩
      · rw [hrefused]
        simp only [hr']
        exact ⟨rfl, rfl⟩
      · rw [hresult, hnone] at hsome
        exact absurd hsome.symm (Option.some_ne_none _)
    · have hcommits : harness.ledger.collapse tokenId seed = some collapse := by
        rw [hcollapse]
        simp only [Except.toOption, Option.bind_some, hr]
      rcases harness.nogoLayer.measureStrictly_cases harness.stateReference token seed with
        ⟨exc', -, hnone⟩ | ⟨collapse', -, hrecords', hend⟩
      · rw [hresult, hsome] at hnone
        exact absurd hnone (Option.some_ne_none _)
      · obtain rfl : collapse' = collapse := hrecords'.unique hrecords
        rcases hend with ⟨hno, -⟩ | ⟨-, event, hr', hnext, htype, hpayload, hcomp⟩
        · exact absurd (hdisturbs _ hcommits) hno
        · obtain ⟨event', hrec, hnext', htype', hpayload', hcomp'⟩ :=
            harness.ledger.timeline.record_of_ne "STRICT_COLLAPSE" (by decide)
              (.collapse collapse') false
          obtain rfl := hnext.unique hnext' (htype.trans htype'.symm)
            (hpayload.trans hpayload'.symm) (hcomp.trans hcomp'.symm)
          rw [hcommits]
          simp only [hr', hrec, Option.map_some, Option.getD_some]
          exact ⟨rfl, rfl⟩

end FullStackHarness

end QuantumFoundation
