import QuantumFoundation.Lib.Run
import QuantumFoundation.Quantum.Persistence
import QuantumFoundation.Quantum.WeakCollapse

/-!
# Noise that makes no difference

Noise changes the phase of one amplitude, and the policies see the absolute values only.  So two
runs of the error layer that differ in the noise make the same collapses, whatever corrections
succeed in one and fail in the other: as long as no rule makes a state with an empty label, the
physical and the ideal states of both have the same probabilities.  For such a state the physical
one cannot be built, when the ideal one has already been overwritten.
-/

namespace QuantumFoundation

section Definitions

variable {R ω κ : Type*} [PyFloat R]

/-- Two results with the same outcome, confidence and loss, and with states of the same
probabilities. -/
structure MeasurementResult.Alike (result result' : MeasurementResult R) : Prop where
  outcome_eq : result.outcome = result'.outcome
  confidence_eq : result.confidence = result'.confidence
  loss_eq : result.informationLossDeclared = result'.informationLossDeclared
  distribution_eq : result.postState.distribution = result'.postState.distribution

/-- The policy sees the probabilities only: of two states that have the same it makes results that
are alike, or raises for both. -/
def MeasurementPolicy.Blind (policy : MeasurementPolicy R) : Prop :=
  ∀ s t seed, s.distribution = t.distribution →
    Option.Rel MeasurementResult.Alike (policy.measure s seed).toOption
      (policy.measure t seed).toOption

/-- Two events with the same number and token, and with results that are alike. -/
structure IrreversibleCollapseEvent.Alike (event event' : IrreversibleCollapseEvent R) : Prop where
  eventId_eq : event.eventId = event'.eventId
  tokenId_eq : event.tokenId = event'.tokenId
  result_alike : event.result.Alike event'.result

/-- The same call, but for the noise. -/
inductive ErrorCall.SameButNoise : ErrorCall R ω → ErrorCall R ω → Prop
  | evolveWithNoise (observation : Observation ω) (noiseFidelity noiseFidelity' : R) :
    SameButNoise (.evolveWithNoise observation noiseFidelity)
      (.evolveWithNoise observation noiseFidelity')
  | same (c : ErrorCall R ω) : SameButNoise c c

namespace ErrorEnforcementEngine

/-- The call does not evolve to a state with an empty label, and does not register a policy that
sees more than the probabilities. -/
def Admits (engine : ErrorEnforcementEngine R ω κ) : ErrorCall R ω → Prop
  | .evolveWithNoise observation _ => ∀ s, engine.stateEngine.ruleResult observation = some s →
    "" ∉ s.amplitudes.map (·.basisLabel)
  | .registerPolicy policy => policy.Blind
  | _ => True

/-- The invariant of two runs: they have the same rules and policies and have made the same
collapses, and their four states have the same probabilities. -/
structure Alike (x y : ErrorEnforcementEngine R ω κ) : Prop where
  stateEngine_eq : x.stateEngine = y.stateEngine
  policies_eq : x.collapseEngine.policies = y.collapseEngine.policies
  blind : ∀ name policy, x.collapseEngine.policies.get? name = some policy → policy.Blind
  consumedTokens_eq : x.collapseEngine.consumedTokens = y.collapseEngine.consumedTokens
  eventCounter_eq : x.collapseEngine.eventCounter = y.collapseEngine.eventCounter
  events_alike : List.Forall₂ IrreversibleCollapseEvent.Alike x.collapseEngine.log.events
    y.collapseEngine.log.events
  idealState_eq : x.idealState.distribution = y.idealState.distribution
  physicalState_eq : x.physicalState.distribution = x.idealState.distribution
  physicalState_eq' : y.physicalState.distribution = y.idealState.distribution

end ErrorEnforcementEngine

/-! ### What depends on the probabilities only -/

lemma vonNeumannEntropy_congr {s t : StateVector R} (h : s.distribution = t.distribution) :
    vonNeumannEntropy s = vonNeumannEntropy t := by
  have hfold : ∀ u : StateVector R, vonNeumannEntropy u = u.distribution.foldl
      (fun entropy p => if p.2 > 1e-15 then entropy - p.2 * PyFloat.log2 p.2 else entropy) 0 :=
    fun u => by
      rw [StateVector.distribution, List.foldl_map]
      rfl
  rw [hfold, hfold, h]

lemma informationLossAfterCollapse_congr {s t u v : StateVector R}
    (hpre : s.distribution = t.distribution) (hpost : u.distribution = v.distribution) :
    informationLossAfterCollapse s u = informationLossAfterCollapse t v := by
  rw [informationLossAfterCollapse, informationLossAfterCollapse, vonNeumannEntropy_congr hpre,
    vonNeumannEntropy_congr hpost]

namespace StateVector

variable {s t : StateVector R}

lemma labels_congr (h : s.distribution = t.distribution) :
    s.amplitudes.map (·.basisLabel) = t.amplitudes.map (·.basisLabel) := by
  have hlabels := congrArg (List.map Prod.fst) h
  rwa [distribution, distribution, List.map_map, List.map_map] at hlabels

lemma probabilities_congr (h : s.distribution = t.distribution) :
    s.probabilities = t.probabilities := by
  have hprobabilities := congrArg (List.map Prod.snd) h
  rwa [map_snd_distribution, map_snd_distribution] at hprobabilities

/-- The draw falls on the same label. -/
lemma FallsOn.congr {seed : ℤ} {a : Amplitude R} (ha : s.FallsOn seed a)
    (h : s.distribution = t.distribution) :
    ∃ b, t.FallsOn seed b ∧ b.basisLabel = a.basisLabel ∧ b.probability = a.probability := by
  obtain ⟨j, hj, hat⟩ := ha
  have hentry : t.distribution[j]? = some (a.basisLabel, a.probability) := by
    rw [← h, distribution, List.getElem?_map, hj]
    rfl
  rw [distribution, List.getElem?_map] at hentry
  obtain ⟨b, hb, heq⟩ := Option.map_eq_some_iff.mp hentry
  obtain ⟨hlabel, hprobability⟩ := Prod.mk.inj heq
  exact ⟨b, ⟨j, hb, probabilities_congr h ▸ hat⟩, hlabel, hprobability⟩

end StateVector

/-! ### The calls that do not evolve -/

namespace ErrorEnforcementEngine

variable {x y : ErrorEnforcementEngine R ω κ}

/-- A run is alike to itself at its start. -/
lemma alike_new (baseState : StateVector R) (stateEngine : SovereignStateEngine R ω)
    {collapseEngine : CollapseEngine R} (timeline timeline' : CausalTimeline (Payload R ω κ))
    (hblind : ∀ name policy, collapseEngine.policies.get? name = some policy → policy.Blind) :
    Alike (new baseState stateEngine collapseEngine timeline)
      (new baseState stateEngine collapseEngine timeline') where
  stateEngine_eq := rfl
  policies_eq := rfl
  blind := hblind
  consumedTokens_eq := rfl
  eventCounter_eq := rfl
  events_alike := List.forall₂_same.mpr fun _ _ => ⟨rfl, rfl, rfl, rfl, rfl, rfl⟩
  idealState_eq := rfl
  physicalState_eq := rfl
  physicalState_eq' := rfl

lemma keys_noisyAmplitudes (s : StateVector R) (errorPhase : R) :
    (noisyAmplitudes s errorPhase).keys = s.amplitudes.map (·.basisLabel) := by
  have hkeys : s.asDict.keys = s.amplitudes.map (·.basisLabel) := by
    rw [Dict.keys, StateVector.asDict, List.map_map]
    rfl
  rw [← hkeys, noisyAmplitudes]
  split
  · next hnil =>
    rw [Dict.keys, Dict.keys, hnil]
    rfl
  · next hcons =>
    dsimp only [Dict.keys]
    rw [hcons]
    rfl

/-- **The defect.**  An evolution to a state with an empty label raises, when the ideal state has
already been overwritten, and the physical one has not. -/
theorem evolveWithNoise_of_empty {observation : Observation ω} {s : StateVector R}
    (h : x.stateEngine.evolution observation = some s)
    (hempty : "" ∈ s.amplitudes.map (·.basisLabel)) (noiseFidelity : R) :
    (x.evolveWithNoise observation noiseFidelity).1
      = { x with stateEngine := (x.stateEngine.observe observation).1, idealState := s } := by
  rw [evolveWithNoise]
  rcases x.stateEngine.observe_cases observation with ⟨exc, -, hnone⟩ | ⟨delta, hr, hsome, -⟩
  · exact absurd (h.symm.trans hnone) (by simp)
  · obtain rfl := Option.some.inj (hsome.symm.trans h)
    have hstate : (x.stateEngine.commit delta).currentState = delta.nextState := rfl
    simp only [hr, hstate]
    cases hnoisy : StateVector.new (noisyAmplitudes delta.nextState (1 - noiseFidelity)) with
    | error exc => rfl
    | ok physicalState =>
      have hlabels := (StateVector.exists_new_iff.mp ⟨physicalState, hnoisy⟩).2.1
      rw [keys_noisyAmplitudes] at hlabels
      exact absurd hempty hlabels

/-- A measurement: it is refused, and nothing changes; or both states are what it leaves. -/
lemma measureWithDisturbance_effect (token : CollapseToken) (seed : ℤ)
    (x : ErrorEnforcementEngine R ω κ) :
    (x.collapseEngine.collapseResult x.physicalState token seed = none ∧
        (x.measureWithDisturbance token seed).1 = x) ∨
      ∃ collapse errorModel timeline,
        x.collapseEngine.collapseResult x.physicalState token seed = some collapse.result ∧
        x.collapseEngine.Records x.physicalState token seed collapse ∧
        (x.measureWithDisturbance token seed).1
          = { x.settle collapse with errorModel := errorModel, timeline := timeline } := by
  rcases x.measureWithDisturbance_cases token seed with
    ⟨exc, hr, hnone⟩ | ⟨collapse, hsome, hrecords, ⟨-, exc, hr⟩ | ⟨errorModel, event, hr⟩⟩
  · exact Or.inl ⟨hnone, congrArg Prod.fst hr⟩
  · exact Or.inr ⟨collapse, _, _, hsome, hrecords, congrArg Prod.fst hr⟩
  · exact Or.inr ⟨collapse, errorModel, _, hsome, hrecords, congrArg Prod.fst hr⟩

/-- The collapse engines of both runs refuse, or have results that are alike. -/
lemma Alike.collapseResult (h : Alike x y) (token : CollapseToken) (seed : ℤ) :
    Option.Rel MeasurementResult.Alike
      (x.collapseEngine.collapseResult x.physicalState token seed)
      (y.collapseEngine.collapseResult y.physicalState token seed) := by
  have hstates : x.physicalState.distribution = y.physicalState.distribution := by
    rw [h.physicalState_eq, h.idealState_eq, h.physicalState_eq']
  have hids : x.collapseEngine.log.events.map IrreversibleCollapseEvent.eventId
      = y.collapseEngine.log.events.map IrreversibleCollapseEvent.eventId := by
    rw [← List.forall₂_eq_eq_eq, List.forall₂_map_left_iff, List.forall₂_map_right_iff]
    exact h.events_alike.imp fun _ _ hevents => hevents.eventId_eq
  have haccepts : ∀ log : CollapseEventLog R, ∀ id : ℤ, log.accepts id
      = (log.events.map IrreversibleCollapseEvent.eventId).getLast?.all (· < id) :=
    fun log id => by
      rw [CollapseEventLog.accepts, List.getLast?_map]
      cases log.events.getLast? with
      | none => rfl
      | some last => rfl
  rw [CollapseEngine.collapseResult, CollapseEngine.collapseResult, haccepts, haccepts, hids,
    h.consumedTokens_eq, h.eventCounter_eq, h.policies_eq]
  split
  · cases hpolicy : y.collapseEngine.policies.get? token.authorizedPolicy with
    | none => exact Option.Rel.none
    | some policy =>
      exact h.blind _ policy (h.policies_eq ▸ hpolicy) _ _ seed hstates
  · exact Option.Rel.none

lemma Alike.measureWithDisturbance (h : Alike x y) (token : CollapseToken) (seed : ℤ) :
    Alike (x.measureWithDisturbance token seed).1 (y.measureWithDisturbance token seed).1 := by
  have hresults := h.collapseResult token seed
  rcases x.measureWithDisturbance_effect token seed with
    ⟨hnone, hr⟩ | ⟨collapse, errorModel, timeline, hsome, hrecords, hr⟩
  · rcases y.measureWithDisturbance_effect token seed with
      ⟨-, hr'⟩ | ⟨collapse', -, -, hsome', -, -⟩
    · rw [hr, hr']
      exact h
    · rw [hnone, hsome'] at hresults
      exact absurd hresults (by simp)
  · rcases y.measureWithDisturbance_effect token seed with
      ⟨hnone', -⟩ | ⟨collapse', errorModel', timeline', hsome', hrecords', hr'⟩
    · rw [hsome, hnone'] at hresults
      exact absurd hresults (by simp)
    · rw [hsome, hsome'] at hresults
      have hresult : collapse.result.Alike collapse'.result := by
        cases hresults with
        | some hresult => exact hresult
      have hevent : collapse.Alike collapse' := by
        refine ⟨?_, ?_, hresult⟩
        · rw [hrecords.eventId_eq, hrecords'.eventId_eq, h.eventCounter_eq]
        · rw [hrecords.tokenId_eq, hrecords'.tokenId_eq]
      rw [hr, hr']
      -- both states are now the state that the collapse leaves
      exact { h with
        consumedTokens_eq := congrArg₂ insert hevent.tokenId_eq h.consumedTokens_eq
        eventCounter_eq := congrArg (· + 1) h.eventCounter_eq
        events_alike := List.rel_append h.events_alike (.cons hevent .nil)
        idealState_eq := hresult.distribution_eq
        physicalState_eq := rfl
        physicalState_eq' := rfl }

/-- A correction may succeed in one run only. -/
lemma Alike.applySyndromeCorrection (h : Alike x y) (O O' : SetOrder)
    (syndrome : SyndromeToken R) :
    Alike (x.applySyndromeCorrection O syndrome).1 (y.applySyndromeCorrection O' syndrome).1 := by
  obtain ⟨physical, timeline, hr, hcases⟩ := x.applySyndromeCorrection_cases O syndrome
  obtain ⟨physical', timeline', hr', hcases'⟩ := y.applySyndromeCorrection_cases O' syndrome
  have hphysical : physical.distribution = x.idealState.distribution := by
    rcases hcases with rfl | rfl
    · exact h.physicalState_eq
    · rfl
  have hphysical' : physical'.distribution = y.idealState.distribution := by
    rcases hcases' with rfl | rfl
    · exact h.physicalState_eq'
    · rfl
  rw [hr, hr']
  exact { h with physicalState_eq := hphysical, physicalState_eq' := hphysical' }

/-- What a confident correction makes of the physical state. -/
lemma applySyndromeCorrection_effect (O : SetOrder) (syndrome : SyndromeToken R)
    (hconfident : ¬syndrome.confidence < 0.5) (x : ErrorEnforcementEngine R ω κ) :
    ∃ timeline, (x.applySyndromeCorrection O syndrome).1
      = { x with
          physicalState := if calculateFidelity O x.physicalState x.idealState == 0 then
            x.physicalState else x.idealState
          timeline := timeline } := by
  rw [applySyndromeCorrection, attemptCorrection, if_neg hconfident]
  cases calculateFidelity O x.physicalState x.idealState == 0 with
  | true => exact ⟨_, rfl⟩
  | false => exact ⟨_, rfl⟩

lemma Alike.registerPolicy (h : Alike x y) {policy : MeasurementPolicy R} (hc : policy.Blind) :
    Alike { x with collapseEngine := (x.collapseEngine.registerPolicy policy).1 }
      { y with collapseEngine := (y.collapseEngine.registerPolicy policy).1 } := by
  rw [CollapseEngine.registerPolicy, CollapseEngine.registerPolicy, ← h.policies_eq]
  split
  · exact h
  · refine { h with policies_eq := rfl, blind := ?_ }
    intro name registered hget
    rw [Dict.get?_set] at hget
    split at hget
    · exact Option.some.inj hget ▸ hc
    · exact h.blind name registered hget

end ErrorEnforcementEngine

end Definitions

section Exact

variable {R ω κ : Type*} [Field R] [LinearOrder R] [MathLibrary R] [ExactMathLibrary R]

/-! ### The policies -/

section Policies

variable [IsStrictOrderedRing R]

/-- What is concluded depends on the probabilities only. -/
lemma conclude_alike {post post' : Dict String (PyComplex R)}
    (hborn : (post.entries.map fun p => (p.1, p.2.born))
      = post'.entries.map fun p => (p.1, p.2.born)) (hne : post.entries ≠ [])
    (htotal : totalProbability (post.entries.map fun p => (⟨p.1, p.2⟩ : Amplitude R)) = 1)
    {loss loss' : StateVector R → R} (hloss : ∀ t, 0 ≤ loss t) (hloss' : ∀ t, 0 ≤ loss' t)
    (hcongr : ∀ t t', t.distribution = t'.distribution → loss t = loss' t') {a b : Amplitude R}
    (hlabel : b.basisLabel = a.basisLabel) (hprobability : b.probability = a.probability)
    (seed : ℤ) (policyName : String) :
    Option.Rel MeasurementResult.Alike (conclude post loss a seed policyName).toOption
      (conclude post' loss' b seed policyName).toOption := by
  have hkeys : post.keys = post'.keys := by
    have hfst := congrArg (List.map Prod.fst) hborn
    rwa [List.map_map, List.map_map] at hfst
  have htotal' : totalProbability (post'.entries.map fun p => (⟨p.1, p.2⟩ : Amplitude R)) = 1 := by
    have hsnd := congrArg (fun l => (l.map Prod.snd).sum) hborn
    simp only [List.map_map] at hsnd
    rw [totalProbability, List.map_map] at htotal ⊢
    exact hsnd.symm.trans htotal
  rcases conclude_both hkeys hne htotal htotal' hloss hloss' hprobability seed policyName
      policyName with
    ⟨-, exc, hraised, hraised'⟩ | ⟨-, result, result', hok, hok',
      ⟨hpost, houtcome, hconfidence, hdeclared⟩, hpost', houtcome', hconfidence', hdeclared'⟩
  · rw [hraised, hraised']
    exact Option.Rel.none
  · have hdistribution : result.postState.distribution = result'.postState.distribution := by
      rw [StateVector.distribution_eq, StateVector.distribution_eq, hpost, hpost', hborn]
    rw [hok, hok']
    refine Option.Rel.some ⟨?_, ?_, ?_, hdistribution⟩
    · rw [houtcome, houtcome', hlabel]
    · rw [hconfidence, hconfidence', hprobability]
    · rw [hdeclared, hdeclared', hcongr _ _ hdistribution]

lemma ProjectiveMeasurementPolicy.policy_blind : (policy : MeasurementPolicy R).Blind := by
  intro s t seed h
  show Option.Rel _ (measure s seed).toOption (measure t seed).toOption
  by_cases hseed : Fits64 seed
  · obtain ⟨a, ha⟩ := s.exists_fallsOn hseed
    obtain ⟨b, hb, hlabel, hprobability⟩ := ha.congr h
    rw [measure_of_fallsOn hseed ha, measure_of_fallsOn hseed hb, ← StateVector.labels_congr h,
      hlabel]
    refine conclude_alike rfl (s.entries_collapsedAmplitudes_ne _)
      (StateVector.totalProbability_collapsedAmplitudes ha.mem) (fun _ => pyMax_zero_nonneg _)
      (fun _ => pyMax_zero_nonneg _) (fun u u' hu => ?_) hlabel hprobability seed name
    rw [informationLossAfterCollapse_congr h hu]
  · rw [measure_of_not_fits64 hseed, measure_of_not_fits64 hseed]
    exact Option.Rel.none

lemma WeakMeasurementPolicy.policy_blind (w : WeakMeasurementPolicy R) : w.policy.Blind := by
  intro s t seed h
  show Option.Rel _ (w.measure s seed).toOption (w.measure t seed).toOption
  by_cases hseed : Fits64 seed
  · obtain ⟨a, ha⟩ := s.exists_fallsOn hseed
    obtain ⟨b, hb, hlabel, hprobability⟩ := ha.congr h
    have hboosted : w.boosted b = w.boosted a := by
      rw [boosted, boosted, PyComplex.abs_eq_of_born_eq hprobability]
    have hraw : w.rawTotal t b = w.rawTotal s a := by
      have htotal : totalProbability s.amplitudes = totalProbability t.amplitudes :=
        congrArg List.sum (StateVector.probabilities_congr h)
      rw [StateVector.totalProbability_eq_add ha.mem, StateVector.totalProbability_eq_add hb.mem,
        hprobability] at htotal
      rw [rawTotal, rawTotal, hboosted, add_left_cancel htotal]
    have hborn : ((w.postAmplitudes s a).entries.map fun p => (p.1, p.2.born))
        = (w.postAmplitudes t b).entries.map fun p => (p.1, p.2.born) := by
      have hmapped := congrArg (List.map fun p : String × R =>
        (p.1, if p.1 = a.basisLabel then w.raised s a else w.damping s a * p.2)) h
      rw [StateVector.distribution, StateVector.distribution, List.map_map, List.map_map] at hmapped
      rw [map_born_postAmplitudes ha.mem, map_born_postAmplitudes hb.mem, hlabel]
      simp only [raised, damping, hboosted, hraw]
      exact hmapped
    rw [measure_of_fallsOn hseed ha, measure_of_fallsOn hseed hb]
    refine conclude_alike hborn entries_postAmplitudes_ne (totalProbability_postAmplitudes ha.mem)
      (fun _ => pyMax_zero_nonneg _) (fun _ => pyMax_zero_nonneg _) (fun u u' hu => ?_) hlabel
      hprobability seed w.name
    rw [informationLossAfterCollapse_congr h hu]
  · rw [measure_of_not_fits64 hseed, measure_of_not_fits64 hseed]
    exact Option.Rel.none

/-- The policies that come with the module see the probabilities only. -/
lemma BuiltInPolicy.policy_blind (p : BuiltInPolicy R) : p.policy.Blind := by
  cases p with
  | projective => exact ProjectiveMeasurementPolicy.policy_blind
  | weak w => exact w.policy_blind

end Policies

/-! ### The evolutions -/

namespace ErrorEnforcementEngine

variable {x y : ErrorEnforcementEngine R ω κ}

/-- The physical state can be built if no label is empty: the noise keeps the norm. -/
lemma exists_noisy {s : StateVector R} (hempty : "" ∉ s.amplitudes.map (·.basisLabel))
    (errorPhase : R) :
    ∃ physicalState, StateVector.new (noisyAmplitudes s errorPhase) = .ok physicalState := by
  have hborn := map_born_noisyAmplitudes s errorPhase
  have hkeys := keys_noisyAmplitudes s errorPhase
  have htotal : totalProbability ((noisyAmplitudes s errorPhase).entries.map fun p =>
      (⟨p.1, p.2⟩ : Amplitude R)) = totalProbability s.amplitudes := by
    have hsnd := congrArg (fun l => (l.map Prod.snd).sum) hborn
    simp only [StateVector.distribution, List.map_map] at hsnd
    rw [totalProbability, List.map_map]
    exact hsnd
  refine StateVector.exists_new_iff.mpr ⟨fun hnil => ?_, hkeys ▸ hempty, ?_⟩
  · rw [Dict.keys, hnil] at hkeys
    exact s.amplitudes_ne (List.map_eq_nil_iff.mp hkeys.symm)
  · rw [computeNorm_eq, htotal, ← computeNorm_eq]
    exact s.norm_near

/-- An evolution that is admitted: the state engine refuses, and the states are as they were; or it
evolves, and the physical state is the new one with a phase. -/
lemma evolveWithNoise_effect {observation : Observation ω} {noiseFidelity : R}
    (h : x.Admits (.evolveWithNoise observation noiseFidelity)) :
    ∃ idealState physicalState timeline, (x.evolveWithNoise observation noiseFidelity).1
        = { x with
            stateEngine := (x.stateEngine.observe observation).1
            idealState := idealState
            physicalState := physicalState
            timeline := timeline } ∧
      ((x.stateEngine.evolution observation = none ∧ idealState = x.idealState ∧
          physicalState = x.physicalState) ∨
        x.stateEngine.evolution observation = some idealState ∧
          StateVector.new (noisyAmplitudes idealState (1 - noiseFidelity))
            = .ok physicalState) := by
  rw [evolveWithNoise]
  rcases x.stateEngine.observe_cases observation with
    ⟨exc, hr, hnone⟩ | ⟨delta, hr, hsome, hrecords⟩
  · rw [hr]
    exact ⟨_, _, _, rfl, Or.inl ⟨hnone, rfl, rfl⟩⟩
  · obtain ⟨physicalState, hnoisy⟩ := exists_noisy (h delta.nextState hrecords.nextState_eq)
      (1 - noiseFidelity)
    have hstate : (x.stateEngine.commit delta).currentState = delta.nextState := rfl
    obtain ⟨event, hrec, -⟩ := x.timeline.record_of_ne "NOISY_EVOLUTION" (by decide)
      (.noisyEvolution observation noiseFidelity) false
    refine ⟨delta.nextState, physicalState, x.timeline.append event, ?_,
      Or.inr ⟨hsome, hnoisy⟩⟩
    simp only [hr, hstate, hnoisy, hrec]

lemma Alike.evolveWithNoise (h : Alike x y) {observation : Observation ω}
    {noiseFidelity noiseFidelity' : R}
    (hc : x.Admits (.evolveWithNoise observation noiseFidelity)) :
    Alike (x.evolveWithNoise observation noiseFidelity).1
      (y.evolveWithNoise observation noiseFidelity').1 := by
  have hc' : y.Admits (.evolveWithNoise observation noiseFidelity') := by
    rwa [Admits, ← h.stateEngine_eq]
  obtain ⟨ideal, physical, timeline, hr, heffect⟩ := evolveWithNoise_effect hc
  obtain ⟨ideal', physical', timeline', hr', heffect'⟩ := evolveWithNoise_effect hc'
  have hobserve : (x.stateEngine.observe observation).1 = (y.stateEngine.observe observation).1 :=
    congrArg (fun e => (e.observe observation).1) h.stateEngine_eq
  rw [← h.stateEngine_eq] at heffect'
  rw [hr, hr']
  rcases heffect with ⟨hnone, rfl, rfl⟩ | ⟨hsome, hnoisy⟩
  · rcases heffect' with ⟨-, rfl, rfl⟩ | ⟨hsome', -⟩
    · exact { h with stateEngine_eq := hobserve }
    · exact absurd (hnone.symm.trans hsome') (by simp)
  · rcases heffect' with ⟨hnone', -⟩ | ⟨hsome', hnoisy'⟩
    · exact absurd (hnone'.symm.trans hsome) (by simp)
    · obtain rfl := Option.some.inj (hsome.symm.trans hsome')
      exact { h with
        stateEngine_eq := hobserve
        idealState_eq := rfl
        physicalState_eq := distribution_noisy hnoisy
        physicalState_eq' := distribution_noisy hnoisy' }

/-! ### Runs -/

/-- **Step lemma.**  Two runs stay alike when both make the same call, but for the noise. -/
theorem Alike.perform (h : Alike x y) (O O' : SetOrder) {c d : ErrorCall R ω}
    (hsame : c.SameButNoise d) (hc : x.Admits c) : Alike (x.perform O c) (y.perform O' d) := by
  cases hsame with
  | evolveWithNoise observation noiseFidelity noiseFidelity' => exact h.evolveWithNoise hc
  | same c =>
    cases c with
    | evolveWithNoise observation noiseFidelity => exact h.evolveWithNoise hc
    | measureWithDisturbance token seed => exact h.measureWithDisturbance token seed
    | applySyndromeCorrection syndrome => exact h.applySyndromeCorrection O O' syndrome
    | registerRule observationType rule description =>
      exact { h with
        stateEngine_eq :=
          congrArg (fun e => (e.registerRule observationType rule description).1)
            h.stateEngine_eq }
    | registerPolicy policy => exact h.registerPolicy hc

/-- **Noise makes no difference.**  Two runs of the same calls, but for the noise, in which no
evolution leads to a state with an empty label, make the same collapses, and their physical and
ideal states have the same probabilities. -/
theorem same_collapses (O O' : SetOrder) (baseState : StateVector R)
    (stateEngine : SovereignStateEngine R ω) (collapseEngine : CollapseEngine R)
    (timeline : CausalTimeline (Payload R ω κ)) {calls calls' : List (ErrorCall R ω)}
    (hblind : ∀ name policy, collapseEngine.policies.get? name = some policy → policy.Blind)
    (hcalls : List.Forall₂ ErrorCall.SameButNoise calls calls')
    (hadmits : Run.Along (perform O) Admits (new baseState stateEngine collapseEngine timeline)
      calls) :
    let engine := Run.exec (perform O) (new baseState stateEngine collapseEngine timeline) calls
    let engine' := Run.exec (perform O') (new baseState stateEngine collapseEngine timeline) calls'
    List.Forall₂ IrreversibleCollapseEvent.Alike engine.collapseEngine.log.events
        engine'.collapseEngine.log.events ∧
      engine.physicalState.distribution = engine.idealState.distribution ∧
      engine'.physicalState.distribution = engine'.idealState.distribution ∧
      engine.idealState.distribution = engine'.idealState.distribution := by
  have halike := Run.rel_exec_of_forall₂ (P := ErrorCall.SameButNoise) (R := Alike)
    (fun _ _ _ _ h hsame hc => h.perform O O' hsame hc)
    (alike_new baseState stateEngine timeline timeline hblind) hcalls hadmits
  exact ⟨halike.events_alike, halike.physicalState_eq, halike.physicalState_eq',
    halike.idealState_eq⟩

end ErrorEnforcementEngine

end Exact

/-! ### A run that noise does not change, and one that it does -/

open ProjectiveMeasurementPolicy (threeFour) in
/-- An error layer in a superposition, with a rule that leaves the state as it is, and the
projective policy. -/
noncomputable def realLayer : ErrorEnforcementEngine ℝ Unit Unit :=
  .new threeFour
    ((SovereignStateEngine.new threeFour).registerRule "hold" (fun s _ => .ok s) "").1
    (CollapseEngine.new.registerPolicy ProjectiveMeasurementPolicy.policy).1 CausalTimeline.new

/-- An evolution, a correction and a measurement. -/
def holdAndMeasure {R : Type*} [PyFloat R] (noiseFidelity : R) : List (ErrorCall R Unit) :=
  [.evolveWithNoise ⟨"hold", [], by decide⟩ noiseFidelity,
    .applySyndromeCorrection ⟨"phase", 1⟩,
    .measureWithDisturbance (projectiveToken "m1" (by decide)) 0]

open ProjectiveMeasurementPolicy (threeFour) in
theorem same_collapses_hold :
    let layer := Run.exec (ErrorEnforcementEngine.perform .lastInsertion) realLayer
      (holdAndMeasure 1)
    let layer' := Run.exec (ErrorEnforcementEngine.perform .lastInsertion) realLayer
      (holdAndMeasure 0)
    List.Forall₂ IrreversibleCollapseEvent.Alike layer.collapseEngine.log.events
        layer'.collapseEngine.log.events ∧
      layer.physicalState.distribution = layer.idealState.distribution ∧
      layer'.physicalState.distribution = layer'.idealState.distribution ∧
      layer.idealState.distribution = layer'.idealState.distribution := by
  refine ErrorEnforcementEngine.same_collapses .lastInsertion .lastInsertion threeFour _ _ _
    (fun name policy hget => ?_) ?_ ⟨fun s hs => ?_, trivial, trivial, trivial⟩
  · have hset : (Dict.empty.set "ProjectiveMeasurement"
        (ProjectiveMeasurementPolicy.policy : MeasurementPolicy ℝ)).get? name = some policy := hget
    rw [Dict.get?_set] at hset
    split at hset
    · exact Option.some.inj hset ▸ ProjectiveMeasurementPolicy.policy_blind
    · exact absurd hset (by simp)
  · exact .cons (.evolveWithNoise _ _ _) (.cons (.same _) (.cons (.same _) .nil))
  · have hstate : some threeFour = some s := hs
    rw [← Option.some.inj hstate]
    simp [threeFour]

/-- A state whose labels are not empty. -/
noncomputable def labelled : StateVector ℝ where
  amplitudes := [⟨"0", .ofReal (3 / 5)⟩, ⟨"1", .ofReal (4 / 5)⟩, ⟨"2", .ofReal 0⟩]
  amplitudes_ne := List.cons_ne_nil _ _
  labels_nodup := by simp
  norm_near := norm_near_of_totalProbability (by
    norm_num [totalProbability, Amplitude.probability_ofReal])

/-- A state with an empty label, orthogonal to the other one. -/
noncomputable def unlabelled : StateVector ℝ where
  amplitudes := [⟨"0", .ofReal (4 / 5)⟩, ⟨"1", .ofReal (-3 / 5)⟩, ⟨"", .ofReal 0⟩]
  amplitudes_ne := List.cons_ne_nil _ _
  labels_nodup := by simp
  norm_near := norm_near_of_totalProbability (by
    norm_num [totalProbability, Amplitude.probability_ofReal])

/-- An error layer with rules for both states. -/
noncomputable def unlabellingLayer : ErrorEnforcementEngine ℝ Unit Unit :=
  .new labelled ((((SovereignStateEngine.new labelled).registerRule "keep" (fun s _ => .ok s)
    "").1).registerRule "unlabel" (fun _ _ => .ok unlabelled) "").1
    (CollapseEngine.new.registerPolicy ProjectiveMeasurementPolicy.policy).1 CausalTimeline.new

/-- An evolution to the one state, and one to the other. -/
def unlabel (noiseFidelity : ℝ) : List (ErrorCall ℝ Unit) :=
  [.evolveWithNoise ⟨"keep", [], by decide⟩ noiseFidelity,
    .evolveWithNoise ⟨"unlabel", [], by decide⟩ noiseFidelity]

/-- Then a correction and a measurement. -/
def unlabelAndMeasure (noiseFidelity : ℝ) : List (ErrorCall ℝ Unit) :=
  unlabel noiseFidelity ++ [.applySyndromeCorrection ⟨"phase", 1⟩,
    .measureWithDisturbance (projectiveToken "m1" (by decide)) 0]

open ErrorEnforcementEngine

lemma inner_labelled {phase : ℝ} {physicalState : StateVector ℝ}
    (h : StateVector.new (noisyAmplitudes labelled phase) = .ok physicalState) :
    (SetOrder.lastInsertion.iter (physicalState.asDict.keys
      ++ unlabelled.asDict.keys)).foldl (fun inner k =>
        inner + ((physicalState.asDict.get? k).getD (.ofReal 0)).conjugate
          * (unlabelled.asDict.get? k).getD (.ofReal 0)) (PyComplex.ofReal 0)
      = ⟨12 / 25 * (Real.cos phase - 1), -(12 / 25 * Real.sin phase)⟩ := by
  have hentries : physicalState.asDict.entries = [("0", .ofReal (3 / 5) * .expI phase),
      ("1", .ofReal (4 / 5)), ("2", .ofReal 0)] := by
    rw [StateVector.asDict_of_new h]
    rfl
  have hentries' : unlabelled.asDict.entries
      = [("0", .ofReal (4 / 5)), ("1", .ofReal (-3 / 5)), ("", .ofReal 0)] := rfl
  have hiter : SetOrder.lastInsertion.iter (physicalState.asDict.keys ++ unlabelled.asDict.keys)
      = ["2", "0", "1", ""] := by
    rw [Dict.keys, hentries]
    show List.dedup ["0", "1", "2", "0", "1", ""] = _
    decide
  have hexp : PyComplex.expI phase = ⟨Real.cos phase, Real.sin phase⟩ := rfl
  rw [hiter]
  simp only [List.foldl_cons, List.foldl_nil, Dict.get?, hentries, hentries']
  apply PyComplex.ext
  · simp [PyComplex.ofReal, PyComplex.conjugate, hexp]
    ring
  · simp [PyComplex.ofReal, PyComplex.conjugate, hexp]
    ring

/-- With a phase the two states are not orthogonal. -/
lemma fidelity_labelled {phase : ℝ} {physicalState : StateVector ℝ}
    (h : StateVector.new (noisyAmplitudes labelled phase) = .ok physicalState) :
    calculateFidelity .lastInsertion physicalState unlabelled = 0 ↔ Real.cos phase = 1 := by
  have hborn : PyComplex.born (⟨12 / 25 * (Real.cos phase - 1), -(12 / 25 * Real.sin phase)⟩
      : PyComplex ℝ) = 288 / 625 * (1 - Real.cos phase) := by
    rw [PyComplex.born_eq]
    dsimp only
    linear_combination 144 / 625 * Real.sin_sq_add_cos_sq phase
  have hle := Real.cos_le_one phase
  rw [calculateFidelity]
  simp only [inner_labelled h, PyComplex.abs_mul_self, hborn]
  split
  · next hlarge =>
    refine iff_of_false one_ne_zero fun hone => ?_
    rw [hone] at hlarge
    norm_num at hlarge
  · rw [if_neg (not_lt.mpr (by linarith))]
    constructor
    · intro hzero
      linarith
    · intro hone
      rw [hone]
      norm_num

/-- The second evolution raises, and leaves the physical state where the first one has put it. -/
lemma exec_unlabel (noiseFidelity : ℝ) : ∃ stateEngine physicalState timeline,
    StateVector.new (noisyAmplitudes labelled (1 - noiseFidelity)) = .ok physicalState ∧
      Run.exec (perform .lastInsertion) unlabellingLayer (unlabel noiseFidelity)
        = { unlabellingLayer with
            stateEngine := stateEngine
            idealState := unlabelled
            physicalState := physicalState
            timeline := timeline } := by
  have hkept : unlabellingLayer.stateEngine.evolution ⟨"keep", [], by decide⟩ = some labelled :=
    rfl
  have hadmits : unlabellingLayer.Admits
      (.evolveWithNoise ⟨"keep", [], by decide⟩ noiseFidelity) := by
    intro s hs
    have hstate : some labelled = some s := hs
    rw [← Option.some.inj hstate]
    simp [labelled]
  obtain ⟨idealState, physicalState, timeline, hr, ⟨hnone, -⟩ | ⟨hsome, hnoisy⟩⟩ :=
    evolveWithNoise_effect hadmits
  · exact absurd (hkept.symm.trans hnone) (by simp)
  · obtain rfl := Option.some.inj (hkept.symm.trans hsome)
    have hexec : Run.exec (perform .lastInsertion) unlabellingLayer (unlabel noiseFidelity)
        = ((unlabellingLayer.evolveWithNoise ⟨"keep", [], by decide⟩
          noiseFidelity).1.evolveWithNoise ⟨"unlabel", [], by decide⟩ noiseFidelity).1 := rfl
    rw [hr, evolveWithNoise_of_empty (s := unlabelled) rfl (by simp [unlabelled])] at hexec
    exact ⟨_, physicalState, timeline, hnoisy, hexec⟩

lemma measure_noisy {phase : ℝ} {physicalState : StateVector ℝ}
    (h : StateVector.new (noisyAmplitudes labelled phase) = .ok physicalState) :
    ∃ result, ProjectiveMeasurementPolicy.measure physicalState 0 = .ok result := by
  have hdistribution := distribution_noisy h
  obtain ⟨a, hfalls⟩ := physicalState.exists_fallsOn (show Fits64 0 by decide)
  have hlabels : "" ∉ physicalState.amplitudes.map (·.basisLabel) := by
    rw [StateVector.labels_congr hdistribution]
    simp [labelled]
  have hprobability : a.probability ∈ labelled.probabilities := by
    rw [← StateVector.probabilities_congr hdistribution]
    exact List.mem_map_of_mem hfalls.mem
  have hle : a.probability ≤ 1 + 1e-10 := by
    simp only [StateVector.probabilities, labelled, List.map_cons, List.map_nil,
      Amplitude.probability_ofReal, List.mem_cons, List.not_mem_nil, or_false] at hprobability
    rcases hprobability with h | h | h <;> rw [h] <;> norm_num
  obtain ⟨result, hresult, -⟩ := ProjectiveMeasurementPolicy.measure_ok (by decide) hfalls
    ((StateVector.accepts_iff hfalls.mem).mpr ⟨hlabels, hle⟩)
  exact ⟨result, hresult⟩

lemma measure_unlabelled (result : MeasurementResult ℝ) :
    ProjectiveMeasurementPolicy.measure unlabelled 0 ≠ .ok result := fun h => by
  obtain ⟨-, a, hfalls, haccepts, -⟩ := ProjectiveMeasurementPolicy.of_measure_ok h
  have hlabels := ((StateVector.accepts_iff hfalls.mem).mp haccepts).1
  simp [unlabelled] at hlabels

/-- The first measurement is logged if the policy does not raise. -/
lemma length_events_measure (layer : ErrorEnforcementEngine ℝ Unit Unit)
    (h : layer.collapseEngine = unlabellingLayer.collapseEngine) :
    (layer.measureWithDisturbance (projectiveToken "m1" (by decide))
        0).1.collapseEngine.log.events.length
      = if (ProjectiveMeasurementPolicy.measure layer.physicalState 0).toOption.isSome then 1
        else 0 := by
  have hresult : layer.collapseEngine.collapseResult layer.physicalState
      (projectiveToken "m1" (by decide)) 0
        = (ProjectiveMeasurementPolicy.measure layer.physicalState 0).toOption := by
    rw [h]
    rfl
  rcases layer.measureWithDisturbance_effect (projectiveToken "m1" (by decide)) 0 with
    ⟨hnone, hr⟩ | ⟨collapse, errorModel, timeline, hsome, -, hr⟩
  · rw [← hresult, hnone, hr, h]
    rfl
  · rw [← hresult, hsome, hr]
    show (layer.collapseEngine.log.events ++ [collapse]).length = _
    rw [h]
    rfl

/-- Without a phase the correction fails, and the measurement finds the labelled state; with one it
succeeds, and the state that it puts in place cannot be measured. -/
lemma length_events_unlabelAndMeasure (noiseFidelity : ℝ) :
    (Run.exec (perform .lastInsertion) unlabellingLayer
      (unlabelAndMeasure noiseFidelity)).collapseEngine.log.events.length
        = if Real.cos (1 - noiseFidelity) = 1 then 1 else 0 := by
  obtain ⟨stateEngine, physicalState, timeline, hnoisy, hexec⟩ := exec_unlabel noiseFidelity
  obtain ⟨timeline', hcorrected⟩ := applySyndromeCorrection_effect .lastInsertion
    ⟨"phase", 1⟩ (by norm_num) (Run.exec (perform .lastInsertion) unlabellingLayer
      (unlabel noiseFidelity))
  have hmeasured := length_events_measure ((Run.exec (perform .lastInsertion)
    unlabellingLayer (unlabel noiseFidelity)).applySyndromeCorrection .lastInsertion
      ⟨"phase", 1⟩).1 (by rw [hcorrected, hexec])
  have hfidelity : (calculateFidelity .lastInsertion physicalState unlabelled == 0) = true ↔
      Real.cos (1 - noiseFidelity) = 1 := decide_eq_true_iff.trans (fidelity_labelled hnoisy)
  rw [unlabelAndMeasure, Run.exec_append]
  refine Eq.trans hmeasured ?_
  rw [hcorrected, hexec]
  dsimp only
  by_cases hcos : Real.cos (1 - noiseFidelity) = 1
  · obtain ⟨result, hresult⟩ := measure_noisy hnoisy
    rw [if_pos hcos, if_pos (hfidelity.mpr hcos), hresult]
    rfl
  · rw [if_neg hcos, if_neg (mt hfidelity.mp hcos)]
    cases hresult : ProjectiveMeasurementPolicy.measure unlabelled 0 with
    | error exc => rfl
    | ok result => exact absurd hresult (measure_unlabelled result)

/-- With noise the collapse that is made without noise is not made, and after the evolutions the
probabilities of the physical state are not those of the ideal one, with whatever noise. -/
theorem noise_changes_collapses :
    let run := Run.exec (ErrorEnforcementEngine.perform .lastInsertion) unlabellingLayer
    List.Forall₂ ErrorCall.SameButNoise (unlabelAndMeasure 1) (unlabelAndMeasure 0) ∧
      (run (unlabelAndMeasure 1)).collapseEngine.log.events.length = 1 ∧
      (run (unlabelAndMeasure 0)).collapseEngine.log.events.length = 0 ∧
      ¬List.Forall₂ IrreversibleCollapseEvent.Alike
        (run (unlabelAndMeasure 1)).collapseEngine.log.events
        (run (unlabelAndMeasure 0)).collapseEngine.log.events ∧
      ∀ noiseFidelity, (run (unlabel noiseFidelity)).physicalState.distribution
        ≠ (run (unlabel noiseFidelity)).idealState.distribution := by
  intro run
  have hone : (run (unlabelAndMeasure 1)).collapseEngine.log.events.length = 1 := by
    rw [length_events_unlabelAndMeasure, sub_self, Real.cos_zero, if_pos rfl]
  have hnone : (run (unlabelAndMeasure 0)).collapseEngine.log.events.length = 0 := by
    have hcos : Real.cos 1 ≠ 1 := (Real.cos_one_le.trans_lt (by norm_num)).ne
    rw [length_events_unlabelAndMeasure, sub_zero, if_neg hcos]
  refine ⟨?_, hone, hnone, fun halike => ?_, fun noiseFidelity hdistribution => ?_⟩
  · exact .cons (.evolveWithNoise _ _ _) (.cons (.evolveWithNoise _ _ _)
      (.cons (.same _) (.cons (.same _) .nil)))
  · have hlength := halike.length_eq
    rw [hone, hnone] at hlength
    exact absurd hlength one_ne_zero
  · obtain ⟨stateEngine, physicalState, timeline, hnoisy, hexec⟩ := exec_unlabel noiseFidelity
    simp only [run, hexec] at hdistribution
    rw [distribution_noisy hnoisy] at hdistribution
    have hlabels := StateVector.labels_congr hdistribution
    simp [labelled, unlabelled] at hlabels

end QuantumFoundation
