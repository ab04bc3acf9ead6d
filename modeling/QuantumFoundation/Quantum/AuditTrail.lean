import QuantumFoundation.Quantum.CausalHistory
import QuantumFoundation.Quantum.Persistence

/-!
# The audit trail of corrections

Two calls make events that are marked as compensations.  A compensation of the timeline comes with
a link to the event it compensates; a correction of the error layer is an event that is marked
afterwards, and has no link but the one to its predecessor.
-/

namespace QuantumFoundation

variable {R ω κ : Type*} [PyFloat R]

/-! ### One step of a timeline -/

namespace CausalTimeline

variable {π : Type*} {t t' : CausalTimeline π} {event : CausalEvent π}

/-- The event is new, and it comes with a link to an earlier event that is not sealed. -/
structure Compensates (t t' : CausalTimeline π) (event : CausalEvent π) (link : CausalLink) :
    Prop where
  new : ∀ e ∈ t.events, e.causalId < event.causalId
  recorded : event ∈ t'.events
  linked : link ∈ t'.links
  mechanism : link.Compensates
  effect : link.effectId = event.causalId
  cause : ∃ e ∈ t.events, e.causalId = link.causeId
  notSealed : t.sealedUpTo < link.causeId

/-- No link leads to an event that is still to come. -/
def LinksBehind (t : CausalTimeline π) : Prop := ∀ link ∈ t.links, link.effectId ≤ t.clock.value

/-- The event is the next one after all that are there. -/
lemma WellFormed.lt_of_isNext (h : WellFormed t) (hnext : t.IsNext event) :
    ∀ e ∈ t.events, e.causalId < event.causalId := by
  intro e he
  have hle := (h.bounds e he).2
  have hid := hnext.causalId
  omega

lemma mem_predecessorLink {link : CausalLink} (h : link ∈ predecessorLink event) :
    link.effectId = event.causalId ∧ link.mechanism = event.eventType := by
  rw [predecessorLink] at h
  split at h
  · exact absurd h List.not_mem_nil
  · rw [List.mem_singleton.mp h]
    exact ⟨rfl, rfl⟩

lemma LinksBehind.append (h : LinksBehind t) (hnext : t.IsNext event) :
    LinksBehind (t.append event) := by
  intro link hlink
  have hclock : (t.append event).clock.value = t.clock.value + 1 := rfl
  have hid := hnext.causalId
  rcases List.mem_append.mp hlink with hold | hnew
  · have hle := h link hold
    omega
  · have heffect := (mem_predecessorLink hnew).1
    omega

/-- **Step lemma.** -/
theorem LinksBehind.perform (h : LinksBehind t) (hwf : WellFormed t) (c : TimelineCall π) :
    LinksBehind (t.perform c) := by
  rcases perform_cases hwf.le_clock c with
    ⟨-, hr⟩ | ⟨-, hr⟩ | ⟨-, event, hnext, hr | ⟨link, heffect, hr⟩⟩ | ⟨-, ponr, -, -, hr⟩
  · rwa [hr]
  · rw [hr]
    exact fun link hlink => (h link hlink).trans (by simp [LogicalClock.tick])
  · rw [hr]
    exact h.append hnext
  · rw [hr]
    intro l hl
    rcases List.mem_append.mp hl with hl | hl
    · exact h.append hnext l hl
    · rw [List.mem_singleton.mp hl, heffect, hnext.causalId]
      exact le_refl _
  · rw [hr]
    exact h

/-- A call that records an event without marking it makes no compensation. -/
lemma mem_of_record_unmarked {eventType : String} {payload : π}
    (h : event ∈ (t.record eventType payload false).1.events)
    (hmark : event.isCompensation = true) :
    event ∈ t.events := by
  rcases record_cases eventType payload false t with
    ⟨-, exc, hr⟩ | ⟨-, event', hr, -, -, -, hmark'⟩
  · rwa [hr] at h
  · rw [hr] at h
    rcases List.mem_append.mp h with h | h
    · exact h
    · rw [List.mem_singleton.mp h, hmark'] at hmark
      exact absurd hmark Bool.false_ne_true

/-- A compensation is linked to the event it compensates. -/
lemma compensates_of_compensate (h : WellFormed t) {target : ℤ} {payload : π} {reason : String}
    (hevent : event ∈ (t.compensate target payload reason).1.events) :
    event ∈ t.events ∨
      ∃ link, Compensates t (t.compensate target payload reason).1 event link := by
  rcases compensate_cases h.le_clock target payload reason with
    ⟨exc, hr⟩ | ⟨event', link, hmem, hsealed, hr, hnext, -, -, -, hcause, heffect, hmechanism⟩
  · rw [hr] at hevent
    exact Or.inl hevent
  · rw [hr] at hevent ⊢
    rcases List.mem_append.mp hevent with hold | hnew
    · exact Or.inl hold
    · rw [List.mem_singleton.mp hnew]
      refine Or.inr ⟨link, h.lt_of_isNext hnext, List.mem_append_right _ List.mem_cons_self,
        List.mem_append_right _ List.mem_cons_self, ?_, heffect, ?_, hcause ▸ hsealed⟩
      · rw [CausalLink.Compensates, hmechanism, String.toList_append]
        exact List.prefix_append _ _
      · rw [hcause]
        exact h.contains_iff.mp hmem

/-- A correction is marked, and not linked to any event as its compensation. -/
lemma record_correction (hlinks : LinksBehind t) (payload : π) :
    ∃ event ∈ (t.record "CORRECTION" payload true).1.events, event.isCompensation = true ∧
      ∀ link ∈ (t.record "CORRECTION" payload true).1.links, link.Compensates →
        link.effectId ≠ event.causalId := by
  obtain ⟨event, hr, hnext, htype, -, hmark⟩ :=
    t.record_of_ne "CORRECTION" (by decide) payload true
  rw [hr]
  refine ⟨event, List.mem_append_right _ List.mem_cons_self, hmark, fun link hlink hcomp => ?_⟩
  rcases List.mem_append.mp hlink with hold | hnew
  · have hle := hlinks link hold
    have hid := hnext.causalId
    omega
  · rw [CausalLink.Compensates, (mem_predecessorLink hnew).2, htype] at hcomp
    exact absurd hcomp (by decide)

end CausalTimeline

/-! ### Runs -/

/-- A call of the error layer, or on its timeline directly: an event without a mark, a
compensation, or a seal. -/
inductive CorrectingCall (R ω κ : Type*) [PyFloat R]
  | error (c : ErrorCall R ω)
  | record (eventType : String) (payload : Payload R ω κ)
  | compensate (targetCausalId : ℤ) (compensationPayload : Payload R ω κ) (reason : String)
  | sealUpTo (upToCausalId : ℤ) (reason : String)

/-- The call is a correction of the error layer. -/
def CorrectingCall.IsCorrection : CorrectingCall R ω κ → Prop
  | .error (.applySyndromeCorrection _) => True
  | _ => False

namespace ErrorEnforcementEngine

/-- What a call leaves behind, whether it returns or raises. -/
def performCorrecting (O : SetOrder) (engine : ErrorEnforcementEngine R ω κ) :
    CorrectingCall R ω κ → ErrorEnforcementEngine R ω κ
  | .error c => engine.perform O c
  | .record eventType payload =>
    { engine with timeline := engine.timeline.perform (.record eventType payload false) }
  | .compensate targetCausalId compensationPayload reason =>
    { engine with
      timeline := engine.timeline.perform
        (.compensate targetCausalId compensationPayload reason) }
  | .sealUpTo upToCausalId reason =>
    { engine with timeline := engine.timeline.perform (.sealUpTo upToCausalId reason) }

/-- One of the calls has made the event, with a link that is still there to an event that was
recorded earlier and was not sealed then. -/
def Traced (O : SetOrder) (start : ErrorEnforcementEngine R ω κ)
    (calls : List (CorrectingCall R ω κ)) (engine : ErrorEnforcementEngine R ω κ)
    (event : CausalEvent (Payload R ω κ)) : Prop :=
  ∃ before c after, calls = before ++ c :: after ∧ ∃ link ∈ engine.timeline.links,
    (Run.exec (performCorrecting O) start before).timeline.Compensates
      ((Run.exec (performCorrecting O) start before).performCorrecting O c).timeline event link

/-- Every event that is marked as a compensation is traced. -/
def Audited (O : SetOrder) (start : ErrorEnforcementEngine R ω κ)
    (calls : List (CorrectingCall R ω κ)) (engine : ErrorEnforcementEngine R ω κ) : Prop :=
  ∀ event ∈ engine.timeline.events, event.isCompensation = true → Traced O start calls engine event

variable {O : SetOrder} {engine start : ErrorEnforcementEngine R ω κ}
  {calls : List (CorrectingCall R ω κ)}

lemma timeline_applySyndromeCorrection (O : SetOrder) (syndrome : SyndromeToken R)
    (engine : ErrorEnforcementEngine R ω κ) :
    ∃ payload, (engine.applySyndromeCorrection O syndrome).1.timeline
      = engine.timeline.perform (.record "CORRECTION" payload true) := by
  rw [applySyndromeCorrection]
  rcases attemptCorrection_cases O engine.physicalState engine.idealState syndrome with hr | hr
  · rw [hr]
    exact ⟨_, rfl⟩
  · rw [hr]
    exact ⟨_, rfl⟩

/-- A call of the error layer records one event at most, without a mark if it is not a
correction. -/
lemma timeline_perform (c : ErrorCall R ω) :
    (engine.perform O c).timeline = engine.timeline ∨
      ∃ eventType payload isCompensation, (engine.perform O c).timeline
          = engine.timeline.perform (.record eventType payload isCompensation) ∧
        (isCompensation = true → (.error c : CorrectingCall R ω κ).IsCorrection) := by
  cases c with
  | evolveWithNoise observation noiseFidelity =>
    rw [perform, evolveWithNoise]
    split
    · exact Or.inl rfl
    · dsimp only
      split
      · exact Or.inl rfl
      · refine Or.inr ⟨"NOISY_EVOLUTION", .noisyEvolution observation noiseFidelity, false, ?_,
          fun h => absurd h Bool.false_ne_true⟩
        rw [CausalTimeline.perform]
        split <;> next h => rw [h]
  | measureWithDisturbance token seed =>
    rw [perform, measureWithDisturbance]
    split
    · exact Or.inl rfl
    · next collapse _ =>
      dsimp only
      split
      · exact Or.inl rfl
      · refine Or.inr ⟨"MEASUREMENT_COLLAPSE", .collapse collapse, false, ?_,
          fun h => absurd h Bool.false_ne_true⟩
        rw [CausalTimeline.perform]
        split <;> next h => rw [h]
  | applySyndromeCorrection syndrome =>
    obtain ⟨payload, hr⟩ := engine.timeline_applySyndromeCorrection O syndrome
    exact Or.inr ⟨"CORRECTION", payload, true, hr, fun _ => trivial⟩
  | registerRule observationType rule description => exact Or.inl rfl
  | registerPolicy policy => exact Or.inl rfl

/-- Every call is, to the timeline, a call on it, or nothing. -/
lemma timeline_performCorrecting (c : CorrectingCall R ω κ) :
    (engine.performCorrecting O c).timeline = engine.timeline ∨
      ∃ d, (engine.performCorrecting O c).timeline = engine.timeline.perform d := by
  cases c with
  | error c =>
    rcases engine.timeline_perform (O := O) c with hr | ⟨eventType, payload, isCompensation, hr, -⟩
    · exact Or.inl hr
    · exact Or.inr ⟨_, hr⟩
  | record eventType payload => exact Or.inr ⟨.record eventType payload false, rfl⟩
  | compensate target payload reason => exact Or.inr ⟨.compensate target payload reason, rfl⟩
  | sealUpTo upTo reason => exact Or.inr ⟨.sealUpTo upTo reason, rfl⟩

/-- A call that is not a correction links every event that it marks. -/
lemma compensates_performCorrecting (h : engine.timeline.WellFormed) {c : CorrectingCall R ω κ}
    (hc : ¬c.IsCorrection) {event : CausalEvent (Payload R ω κ)}
    (hevent : event ∈ (engine.performCorrecting O c).timeline.events)
    (hmark : event.isCompensation = true) :
    event ∈ engine.timeline.events ∨
      ∃ link, engine.timeline.Compensates (engine.performCorrecting O c).timeline event link := by
  cases c with
  | error c =>
    rw [performCorrecting] at hevent
    rcases engine.timeline_perform (O := O) c with hr | ⟨eventType, payload, marked, hr, himp⟩
    · exact Or.inl (hr ▸ hevent)
    · have hunmarked : marked = false := Bool.eq_false_iff.mpr fun htrue => hc (himp htrue)
      rw [hr, hunmarked] at hevent
      exact Or.inl (CausalTimeline.mem_of_record_unmarked hevent hmark)
  | record eventType payload =>
    exact Or.inl (CausalTimeline.mem_of_record_unmarked hevent hmark)
  | compensate target payload reason => exact CausalTimeline.compensates_of_compensate h hevent
  | sealUpTo upTo reason =>
    rw [performCorrecting, CausalTimeline.perform] at hevent
    rcases engine.timeline.sealUpTo_cases upTo reason with ⟨exc, hr⟩ | ⟨ponr, -, -, -, hr⟩
    · rw [hr] at hevent
      exact Or.inl hevent
    · rw [hr] at hevent
      exact Or.inl hevent

/-- What holds after the calls, whatever they are. -/
structure Kept (O : SetOrder) (start : ErrorEnforcementEngine R ω κ)
    (calls : List (CorrectingCall R ω κ)) (engine : ErrorEnforcementEngine R ω κ) : Prop where
  reached : engine = Run.exec (performCorrecting O) start calls
  wellFormed : engine.timeline.WellFormed
  linksBehind : engine.timeline.LinksBehind

/-- **Step lemma.** -/
theorem Kept.performCorrecting (h : Kept O start calls engine) (c : CorrectingCall R ω κ) :
    Kept O start (calls ++ [c]) (engine.performCorrecting O c) := by
  have hreached : engine.performCorrecting O c
      = Run.exec (ErrorEnforcementEngine.performCorrecting O) start (calls ++ [c]) := by
    rw [Run.exec_append, ← h.reached]
    rfl
  rcases engine.timeline_performCorrecting (O := O) c with hr | ⟨d, hr⟩
  · exact ⟨hreached, hr ▸ h.wellFormed, hr ▸ h.linksBehind⟩
  · refine ⟨hreached, ?_, ?_⟩
    · rw [hr]
      exact h.wellFormed.perform d
    · rw [hr]
      exact h.linksBehind.perform h.wellFormed d

lemma Kept.links_subset (h : Kept O start calls engine) (c : CorrectingCall R ω κ) :
    engine.timeline.links ⊆ (engine.performCorrecting O c).timeline.links := by
  rcases engine.timeline_performCorrecting (O := O) c with hr | ⟨d, hr⟩
  · rw [hr]
    exact List.Subset.refl _
  · rw [hr]
    exact (CausalTimeline.Grows.perform h.wellFormed d).links.subset

/-- **One call.**  After a call every marked event is still traced exactly if the call is not a
correction. -/
theorem audited_performCorrecting_iff (h : Kept O start calls engine) (c : CorrectingCall R ω κ)
    (hbefore : Audited O start calls engine) :
    Audited O start (calls ++ [c]) (engine.performCorrecting O c) ↔ ¬c.IsCorrection := by
  constructor
  · intro hafter hc
    match c, hc with
    | .error (.applySyndromeCorrection syndrome), _ =>
      obtain ⟨payload, hr⟩ := engine.timeline_applySyndromeCorrection O syndrome
      have htimeline : (engine.performCorrecting O (.error (.applySyndromeCorrection syndrome))
          ).timeline = engine.timeline.perform (.record "CORRECTION" payload true) := hr
      obtain ⟨event, hevent, hmark, hunlinked⟩ :=
        CausalTimeline.record_correction h.linksBehind payload
      obtain ⟨_, _, _, _, link, hlink, hcomp⟩ := hafter event (htimeline ▸ hevent) hmark
      rw [htimeline] at hlink
      exact hunlinked link hlink hcomp.mechanism hcomp.effect
  · intro hc event hevent hmark
    rcases compensates_performCorrecting h.wellFormed hc hevent hmark with hold | ⟨link, hcomp⟩
    · obtain ⟨before, d, after, rfl, link, hlink, hcomp⟩ := hbefore event hold hmark
      exact ⟨before, d, after ++ [c], by simp, link, h.links_subset c hlink, hcomp⟩
    · rw [h.reached] at hcomp
      exact ⟨calls, c, [], rfl, link, h.reached ▸ hcomp.linked, hcomp⟩

/-- **The audit trail.**  In a run from an empty timeline, every event that is marked as a
compensation is traced at every point exactly if no call is a correction of the error layer. -/
theorem audited_iff (O : SetOrder) (baseState : StateVector R)
    (stateEngine : SovereignStateEngine R ω) (collapseEngine : CollapseEngine R)
    (calls : List (CorrectingCall R ω κ)) :
    let start : ErrorEnforcementEngine R ω κ := new baseState stateEngine collapseEngine .new
    (∀ before, before <+: calls →
        Audited O start before (Run.exec (performCorrecting O) start before)) ↔
      ∀ c ∈ calls, ¬c.IsCorrection := by
  intro start
  have halong : Run.Along (performCorrecting O) (fun _ c => ¬c.IsCorrection) start calls ↔
      ∀ c ∈ calls, ¬c.IsCorrection := Run.along_iff_forall_mem
  rw [← halong]
  refine Run.forall_prefix_iff_along (I := Kept O start) (Q := Audited O start)
    ⟨rfl, CausalTimeline.WellFormed.init, ?_⟩ ?_ (fun _ c _ h => h.performCorrecting c)
    (fun _ c _ h hbefore => audited_performCorrecting_iff h c hbefore) calls
  · exact fun link hlink => absurd hlink List.not_mem_nil
  · exact fun event hevent => absurd hevent List.not_mem_nil

/-- A correction on an empty timeline is marked as a compensation, and there is no link at all. -/
theorem correction_untraced :
    let start : ErrorEnforcementEngine ℚ Unit Unit :=
      new ketZero (SovereignStateEngine.new ketZero) CollapseEngine.new .new
    let correction : CorrectingCall ℚ Unit Unit := .error (.applySyndromeCorrection ⟨"flip", 1⟩)
    let after := start.performCorrecting .lastInsertion correction
    after.timeline.events.map (fun event => (event.causalId, event.isCompensation)) = [(1, true)] ∧
      after.timeline.links = [] ∧ ¬Audited .lastInsertion start [correction] after := by
  intro start correction after
  have hevents : after.timeline.events.map (fun event => (event.causalId, event.isCompensation))
      = [(1, true)] := by decide +kernel
  have hlinks : after.timeline.links = [] := by decide +kernel
  refine ⟨hevents, hlinks, fun haudited => ?_⟩
  have hmem : ((1, true) : ℤ × Bool) ∈ after.timeline.events.map
      fun event => (event.causalId, event.isCompensation) := by simp [hevents]
  obtain ⟨event, hevent, hpair⟩ := List.mem_map.mp hmem
  obtain ⟨-, -, -, -, link, hlink, -⟩ := haudited event hevent (congrArg Prod.snd hpair)
  rw [hlinks] at hlink
  exact absurd hlink List.not_mem_nil

end ErrorEnforcementEngine

end QuantumFoundation
