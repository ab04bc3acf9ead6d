import QuantumFoundation.Lib.NumberedLog
import QuantumFoundation.Quantum.Measurement

/-!
# The history of a collapse engine

What a projective measurement results in, and what holds of the log of an engine that only makes
projective measurements: the events are numbered from zero, and each replays to its own result.
-/

namespace QuantumFoundation

variable {R : Type*} [PyFloat R]

/-- The fields of a result that the constructor accepts. -/
lemma MeasurementResult.new_ok {outcome : String} {confidence loss : R}
    {postState : StateVector R} {seed : ℤ} {policyName : String} {result : MeasurementResult R}
    (h : MeasurementResult.new outcome confidence loss postState seed policyName = .ok result) :
    result.outcome = outcome ∧ result.confidence = confidence ∧
      result.informationLossDeclared = loss ∧ result.postState = postState ∧
      result.seedUsed = seed ∧ result.policyName = policyName := by
  rw [MeasurementResult.new] at h
  split at h
  · split at h
    · exact absurd h (by simp)
    · rw [← Except.ok.inj h]
      exact ⟨rfl, rfl, rfl, rfl, rfl, rfl⟩
  · exact absurd h (by simp)

/-- The entries of the amplitudes of a state that is collapsed to a label. -/
lemma StateVector.entries_collapsedAmplitudes (s : StateVector R) (label : String) :
    (collapsedAmplitudes (s.amplitudes.map (·.basisLabel)) label
        : Dict String (PyComplex R)).entries
      = s.amplitudes.map fun a =>
        (a.basisLabel, if a.basisLabel = label then PyComplex.ofReal 1 else .ofReal 0) := by
  rw [collapsedAmplitudes, Dict.entries_ofList]
  · rw [List.map_map]
    rfl
  · rw [List.map_map, Function.comp_def, List.map_id']
    exact s.labels_nodup

namespace ProjectiveMeasurementPolicy

/-- What a projective measurement results in. -/
structure Projects (state : StateVector R) (seed : ℤ) (result : MeasurementResult R) : Prop where
  selected : ∃ idx a, seededSample (state.amplitudes.map Amplitude.probability) seed = .ok idx ∧
    state.amplitudes[idx]? = some a ∧ result.outcome = a.basisLabel ∧
    result.confidence = a.probability
  postState_eq : StateVector.new
    (collapsedAmplitudes (state.amplitudes.map (·.basisLabel)) result.outcome)
      = .ok result.postState
  informationLossDeclared_eq : result.informationLossDeclared
    = pyMax 0 (informationLossAfterCollapse state result.postState)
  seedUsed_eq : result.seedUsed = seed
  policyName_eq : result.policyName = name

/-- **Measuring.** -/
theorem projects_of_measure {state : StateVector R} {seed : ℤ} {result : MeasurementResult R}
    (h : measure state seed = .ok result) : Projects state seed result := by
  rw [measure] at h
  cases hidx : seededSample (state.amplitudes.map Amplitude.probability) seed with
  | error exc =>
    rw [hidx] at h
    exact absurd h (by simp)
  | ok idx =>
    simp only [hidx] at h
    cases ha : state.amplitudes[idx]? with
    | none => exact absurd h (by simp [ha])
    | some a =>
      simp only [ha] at h
      cases hpost : StateVector.new (collapsedAmplitudes (R := R)
          (state.amplitudes.map (·.basisLabel)) a.basisLabel) with
      | error exc => exact absurd h (by simp [hpost])
      | ok postState =>
        simp only [hpost] at h
        obtain ⟨houtcome, hconfidence, hloss, hstate, hseed, hname⟩ := MeasurementResult.new_ok h
        refine ⟨⟨idx, a, hidx, ha, houtcome, hconfidence⟩, ?_, ?_, hseed, hname⟩
        · rw [houtcome, hpost, hstate]
        · rw [hloss, hstate]

end ProjectiveMeasurementPolicy

namespace CollapseEngine

/-- The token that is issued. -/
lemma issueToken_ok {policyName tokenId : String} {engine : CollapseEngine R}
    {token : CollapseToken} (h : engine.issueToken policyName tokenId = .ok token) :
    token.tokenId = tokenId ∧ token.authorizedPolicy = policyName := by
  rw [issueToken] at h
  obtain ⟨-, h⟩ := guard_eq_ok h
  obtain ⟨-, h⟩ := guard_eq_ok h
  rw [CollapseToken.new] at h
  obtain ⟨_, h⟩ := dite_guard_eq_ok h
  obtain ⟨_, h⟩ := dite_guard_eq_ok h
  rw [← Except.ok.inj h]
  exact ⟨rfl, rfl⟩

/-- The token is for a projective measurement. -/
def Projective (engine : CollapseEngine R) (token : CollapseToken) : Prop :=
  engine.policies.get? token.authorizedPolicy = some ProjectiveMeasurementPolicy.policy

/-- The invariant of an engine that only makes projective measurements. -/
structure History (engine : CollapseEngine R) : Prop where
  counter_eq : engine.eventCounter = engine.log.events.length
  numbered : NumberedFrom IrreversibleCollapseEvent.eventId 0 engine.log.events
  registered : engine.policies.get? ProjectiveMeasurementPolicy.name
    = some ProjectiveMeasurementPolicy.policy
  measured : ∀ e ∈ engine.log.events, ProjectiveMeasurementPolicy.measure e.preCollapseState
    e.result.seedUsed = .ok e.result

variable {engine : CollapseEngine R} {state : StateVector R} {token : CollapseToken} {seed : ℤ}
  {event : IrreversibleCollapseEvent R}

/-- The event of a projective measurement. -/
lemma Records.measured (h : engine.Records state token seed event)
    (htoken : engine.Projective token) :
    ProjectiveMeasurementPolicy.measure state seed = .ok event.result := by
  obtain ⟨policy, hpolicy, hmeasure⟩ := h.result_eq
  rw [Projective, hpolicy] at htoken
  rwa [Option.some.inj htoken] at hmeasure

/-- A token that is issued for the projective policy is for a projective measurement. -/
lemma History.projective (h : History engine) {tokenId : String}
    (htoken : engine.issueToken ProjectiveMeasurementPolicy.name tokenId = .ok token) :
    engine.Projective token := by
  rw [Projective, (issueToken_ok htoken).2]
  exact h.registered

/-- **Step lemma.**  A projective measurement extends the history. -/
theorem History.commit (h : History engine) (hrecords : engine.Records state token seed event)
    (htoken : engine.Projective token) : History (engine.commit event) := by
  have hmeasured := hrecords.measured htoken
  have hseed := (ProjectiveMeasurementPolicy.projects_of_measure hmeasured).seedUsed_eq
  refine ⟨?_, NumberedFrom.append_singleton.mpr ⟨h.numbered, ?_⟩, h.registered, ?_⟩
  · show engine.eventCounter + 1 = (engine.log.events ++ [event]).length
    rw [h.counter_eq, List.length_append, List.length_singleton]
  · rw [hrecords.eventId_eq, h.counter_eq, zero_add]
  · intro e he
    rcases List.mem_append.mp he with he | he
    · exact h.measured e he
    · rw [List.mem_singleton.mp he, hrecords.preCollapseState_eq, hseed]
      exact hmeasured

/-- The check goes through the collapses that replay to their own results. -/
lemma integrityLoop_ok {L : List (IrreversibleCollapseEvent R)}
    (hreplay : ∀ e ∈ L, engine.replayCollapse e = .ok e.result) :
    engine.integrityLoop L = .ok true := by
  induction L with
  | nil => rfl
  | cons e L ih =>
    rw [integrityLoop, hreplay e List.mem_cons_self]
    simp only [ne_eq, not_true_eq_false, if_false]
    exact ih fun x hx => hreplay x (List.mem_cons_of_mem e hx)

/-- **Replay.**  Every collapse of the log replays to its own outcome. -/
theorem History.verifyCollapseIntegrity (h : History engine) :
    engine.verifyCollapseIntegrity = .ok true :=
  integrityLoop_ok fun e he => by
    have hmeasured := h.measured e he
    have hname := (ProjectiveMeasurementPolicy.projects_of_measure hmeasured).policyName_eq
    rw [replayCollapse, hname, h.registered]
    exact hmeasured

end CollapseEngine

end QuantumFoundation
