import Mathlib.Data.Fintype.EquivFin
import QuantumFoundation.Quantum.CausalHistory
import QuantumFoundation.Quantum.StrictCalls

/-!
# Branches of the history

The no-go layer counts the events of the timeline, and refuses to evolve when there is one that it
has not recorded itself.  A strict measurement does not look at the count, and sets it anew: once
one has got through, an event from outside is not seen any more.
-/

namespace QuantumFoundation

variable {R ω κ : Type*} [PyFloat R]

/-- A call on the layer, or on its timeline directly. -/
inductive MixedCall (R ω κ : Type*) [PyFloat R]
  | strict (c : StrictCall R ω)
  | direct (c : TimelineCall (Payload R ω κ))

namespace NoGoEnforcementEngine

/-- What a call leaves behind, whether it returns or raises. -/
def performMixed (engine : NoGoEnforcementEngine R ω κ) :
    MixedCall R ω κ → NoGoEnforcementEngine R ω κ
  | .strict c => engine.perform c
  | .direct c => { engine with timeline := engine.timeline.perform c }

/-- The call records an event, and not through the layer. -/
def Branches (engine : NoGoEnforcementEngine R ω κ) : MixedCall R ω κ → Prop
  | .strict _ => False
  | .direct c => (engine.timeline.perform c).length ≠ engine.timeline.length

/-- One of the calls has recorded an event, and not through the layer. -/
def Branched (engine : NoGoEnforcementEngine R ω κ) (calls : List (MixedCall R ω κ)) : Prop :=
  ∃ before c after, calls = before ++ c :: after ∧ (Run.exec performMixed engine before).Branches c

/-- Whatever evolution is asked for, it is refused as a cloning. -/
def Detects (engine : NoGoEnforcementEngine R ω κ) : Prop :=
  ∀ observation noiseFidelity, ∃ exc,
    (engine.evolveStrictly engine.rootRef observation noiseFidelity).2 = .error exc ∧
      exc.cls = .noCloningViolation

/-- The timeline has as many events as the layer expects. -/
def Linear (engine : NoGoEnforcementEngine R ω κ) : Prop :=
  engine.timeline.length + 1 = engine.expectedNextEventId

/-- The call is not a measurement that gets through while the timeline has other events than the
layer expects. -/
def KeepsCount (engine : NoGoEnforcementEngine R ω κ) : MixedCall R ω κ → Prop
  | .strict (.measureStrictly ref token seed) =>
    ∀ result, engine.collapseResult ref token seed = some result → Disturbs result → engine.Linear
  | _ => True

/-- As long as the timeline has the events that the layer expects, every call keeps the count. -/
lemma keepsCount_of_linear {engine : NoGoEnforcementEngine R ω κ} (h : engine.Linear)
    (c : MixedCall R ω κ) : engine.KeepsCount c := by
  unfold KeepsCount
  split
  · exact fun _ _ _ => h
  · trivial

/-! ### Detection -/

/-- There is an observation for which no rule is registered. -/
lemma exists_unregistered (engine : NoGoEnforcementEngine R ω κ) :
    ∃ observation : Observation ω,
      engine.stateEngine.rules.get? observation.observationType = none := by
  obtain ⟨name, hname⟩ :=
    Infinite.exists_notMem_finset (insert "" engine.stateEngine.rules.keys.toFinset)
  rw [Finset.mem_insert, not_or, List.mem_toFinset] at hname
  exact ⟨⟨name, [], hname.1⟩, Dict.get?_eq_none.mpr hname.2⟩

variable {engine : NoGoEnforcementEngine R ω κ}

/-- **Detection.**  A layer that tracks its root reference refuses every evolution as a cloning
exactly if the timeline has other events than it expects. -/
theorem detects_iff
    (hroot : engine.activeReferences.contains engine.rootRef.referenceId = true) :
    engine.Detects ↔ ¬engine.Linear := by
  constructor
  · intro h hlinear
    -- an observation without a rule is refused as a wrong value instead
    obtain ⟨observation, hrule⟩ := engine.exists_unregistered
    obtain ⟨exc, hraised, hcls⟩ := h observation 1
    have hcount : ¬engine.timeline.length + 1 ≠ engine.expectedNextEventId := not_not.mpr hlinear
    rw [evolveStrictly, if_neg (by simp [hroot]), if_neg hcount] at hraised
    simp only [SovereignStateEngine.observe, hrule] at hraised
    rw [← Except.error.inj hraised] at hcls
    exact absurd hcls (by simp)
  · intro hbranched observation noiseFidelity
    have hcount : engine.timeline.length + 1 ≠ engine.expectedNextEventId := hbranched
    rw [evolveStrictly, if_neg (by simp [hroot]), if_pos hcount]
    exact ⟨_, rfl, rfl⟩

/-! ### Steps -/

/-- The timeline only grows. -/
lemma length_le_perform {π : Type*} (t : CausalTimeline π) (c : TimelineCall π) :
    t.length ≤ (t.perform c).length := by
  have hrecord : ∀ eventType payload isCompensation,
      t.length ≤ (t.record eventType payload isCompensation).1.length := by
    intro eventType payload isCompensation
    rcases t.record_cases eventType payload isCompensation with
      ⟨-, exc, hr⟩ | ⟨-, event, hr, -⟩
    · rw [hr]
      exact le_refl _
    · rw [hr]
      exact (List.prefix_append t.events [event]).length_le
  cases c with
  | record eventType payload isCompensation => exact hrecord eventType payload isCompensation
  | compensate target payload reason =>
    have hcompensation := hrecord "COMPENSATION" payload true
    rw [CausalTimeline.perform, CausalTimeline.compensate]
    split
    · exact le_refl _
    · split
      · exact le_refl _
      · cases hr : t.record "COMPENSATION" payload true with
        | mk t' result =>
          rw [hr] at hcompensation
          cases result with
          | error exc => exact hcompensation
          | ok event =>
            -- the link is made after the event has been recorded
            dsimp only
            split <;> exact hcompensation
  | sealUpTo upTo reason =>
    rw [CausalTimeline.perform]
    rcases t.sealUpTo_cases upTo reason with ⟨exc, hr⟩ | ⟨ponr, -, -, -, hr⟩
    · rw [hr]
    · rw [hr]
      exact le_refl _

/-- **Strict calls.**  A strict call leaves the references as they are.  It leaves the timeline and
the count as they are too; or the count is right after it, and it was right before, unless the call
is a measurement that gets through. -/
theorem perform_cases (c : StrictCall R ω) :
    (engine.perform c).activeReferences = engine.activeReferences ∧
    (engine.perform c).rootRef = engine.rootRef ∧
    ((engine.perform c).timeline = engine.timeline ∧
        (engine.perform c).expectedNextEventId = engine.expectedNextEventId ∧
        engine.KeepsCount (.strict c : MixedCall R ω κ) ∨
      (engine.perform c).Linear ∧
        (engine.KeepsCount (.strict c : MixedCall R ω κ) → engine.Linear)) := by
  cases c with
  | evolveStrictly ref observation noiseFidelity =>
    rw [perform, call]
    rcases engine.evolveStrictly_cases ref observation noiseFidelity with
      ⟨exc, hr, -⟩ | ⟨delta, hsome, -, ⟨-, exc, hr⟩ | ⟨-, event, hr, -⟩⟩
    · rw [hr]
      exact ⟨rfl, rfl, Or.inl ⟨rfl, rfl, trivial⟩⟩
    · rw [hr]
      exact ⟨rfl, rfl, Or.inl ⟨rfl, rfl, trivial⟩⟩
    · rw [hr]
      refine ⟨rfl, rfl, Or.inr ⟨rfl, fun _ => ?_⟩⟩
      rw [evolution] at hsome
      split at hsome
      · next h => exact h.2
      · exact absurd hsome (by simp)
  | measureStrictly ref token seed =>
    rw [perform, call, KeepsCount]
    rcases engine.measureStrictly_cases ref token seed with
      ⟨exc, hr, hnone⟩ | ⟨collapse, hsome, -, ⟨hquiet, exc, hr⟩ | ⟨hdisturbs, event, hr, -⟩⟩
    · rw [hr, hnone]
      exact ⟨rfl, rfl, Or.inl ⟨rfl, rfl, by simp⟩⟩
    · rw [hr, hsome]
      refine ⟨rfl, rfl, Or.inl ⟨rfl, rfl, fun result hresult hdisturbs => ?_⟩⟩
      rw [← Option.some.inj hresult] at hdisturbs
      exact absurd hdisturbs hquiet
    · rw [hr, hsome]
      exact ⟨rfl, rfl, Or.inr ⟨rfl, fun h => h _ rfl hdisturbs⟩⟩
  | checkIndependentCopy refA refB => exact ⟨rfl, rfl, Or.inl ⟨rfl, rfl, trivial⟩⟩
  | registerRule observationType rule description => exact ⟨rfl, rfl, Or.inl ⟨rfl, rfl, trivial⟩⟩
  | registerPolicy policy => exact ⟨rfl, rfl, Or.inl ⟨rfl, rfl, trivial⟩⟩

/-! ### Runs -/

/-- What holds after the calls: the root reference is tracked, no more events are expected than
there are, and if fewer are, then one of them has come from outside. -/
structure Counts (engine start : NoGoEnforcementEngine R ω κ) (calls : List (MixedCall R ω κ)) :
    Prop where
  reached : engine = Run.exec performMixed start calls
  tracked : engine.activeReferences.contains engine.rootRef.referenceId = true
  expected_le : engine.expectedNextEventId ≤ engine.timeline.length + 1
  branched : ¬engine.Linear → start.Branched calls

variable {start : NoGoEnforcementEngine R ω κ} {calls : List (MixedCall R ω κ)}

lemma branched_append_singleton {c : MixedCall R ω κ} :
    start.Branched (calls ++ [c]) ↔
      start.Branched calls ∨ (Run.exec performMixed start calls).Branches c := by
  constructor
  · rintro ⟨before, d, after, hcalls, hd⟩
    rcases List.eq_nil_or_concat after with rfl | ⟨after, e, rfl⟩
    · obtain ⟨rfl, hcd⟩ := List.append_inj' hcalls rfl
      exact Or.inr ((List.singleton_inj.mp hcd) ▸ hd)
    · rw [List.concat_eq_append, ← List.cons_append, ← List.append_assoc] at hcalls
      exact Or.inl ⟨before, d, after, (List.append_inj' hcalls rfl).1, hd⟩
  · rintro (⟨before, d, after, rfl, hd⟩ | hc)
    · exact ⟨before, d, after ++ [c], by simp, hd⟩
    · exact ⟨calls, c, [], rfl, hc⟩

lemma counts_new (stateEngine : SovereignStateEngine R ω) (collapseEngine : CollapseEngine R)
    (timeline : CausalTimeline (Payload R ω κ)) (errorModel : ErrorModel R) (rootId : String) :
    (new stateEngine collapseEngine timeline errorModel rootId).Counts
      (new stateEngine collapseEngine timeline errorModel rootId) [] where
  reached := rfl
  tracked := by
    rw [Dict.contains_eq_true]
    exact Dict.mem_keys_set.mpr (Or.inl rfl)
  expected_le := le_refl _
  branched h := absurd rfl h

/-- After an event from outside the count is too small. -/
lemma Counts.not_linear (h : engine.Counts start calls) {c : MixedCall R ω κ}
    (hc : engine.Branches c) : ¬(engine.performMixed c).Linear := by
  cases c with
  | strict c => exact absurd hc id
  | direct c =>
    have hle := length_le_perform engine.timeline c
    have hne : (engine.timeline.perform c).length ≠ engine.timeline.length := hc
    have hexpected := h.expected_le
    show ¬(engine.timeline.perform c).length + 1 = engine.expectedNextEventId
    omega

/-- **One call.**  If no event comes from outside, the count is right after the call exactly if it
was right before, or if the call is a measurement that gets through. -/
theorem linear_performMixed {c : MixedCall R ω κ} (hc : ¬engine.Branches c) :
    (engine.performMixed c).Linear ↔ (engine.KeepsCount c → engine.Linear) := by
  cases c with
  | strict c =>
    obtain ⟨-, -, ⟨htimeline, hexpected, hkeeps⟩ | ⟨hlinear, hbefore⟩⟩ :=
      engine.perform_cases (κ := κ) c
    · rw [performMixed, Linear, htimeline, hexpected]
      exact ⟨fun h _ => h, fun h => h hkeeps⟩
    · exact iff_of_true hlinear hbefore
  | direct c =>
    have hlength : (engine.timeline.perform c).length = engine.timeline.length := not_not.mp hc
    rw [performMixed, Linear, hlength]
    exact ⟨fun h _ => h, fun h => h trivial⟩

/-- **Step lemma.** -/
theorem Counts.performMixed (h : engine.Counts start calls) (c : MixedCall R ω κ) :
    (engine.performMixed c).Counts start (calls ++ [c]) where
  reached := by
    rw [Run.exec_append, ← h.reached]
    rfl
  tracked := by
    cases c with
    | strict c =>
      obtain ⟨href, hroot, -⟩ := engine.perform_cases (κ := κ) c
      rw [NoGoEnforcementEngine.performMixed, href, hroot]
      exact h.tracked
    | direct c => exact h.tracked
  expected_le := by
    cases c with
    | strict c =>
      obtain ⟨-, -, ⟨htimeline, hexpected, -⟩ | ⟨hlinear, -⟩⟩ := engine.perform_cases (κ := κ) c
      · rw [NoGoEnforcementEngine.performMixed, htimeline, hexpected]
        exact h.expected_le
      · exact hlinear.ge
    | direct c => exact h.expected_le.trans (Nat.succ_le_succ (length_le_perform _ c))
  branched := by
    intro hlinear
    rw [branched_append_singleton, ← h.reached]
    by_cases hc : engine.Branches c
    · exact Or.inr hc
    · rw [linear_performMixed hc, Classical.not_imp] at hlinear
      exact Or.inl (h.branched hlinear.2)

/-- **Branches are not forgotten.**  In a run that starts with a new layer, the layer refuses every
evolution at every point after an event has come from outside exactly if no measurement gets
through while the timeline has other events than the layer expects. -/
theorem branch_not_forgotten_iff (stateEngine : SovereignStateEngine R ω)
    (collapseEngine : CollapseEngine R) (timeline : CausalTimeline (Payload R ω κ))
    (errorModel : ErrorModel R) (rootId : String) (calls : List (MixedCall R ω κ)) :
    let start := new stateEngine collapseEngine timeline errorModel rootId
    (∀ before, before <+: calls → start.Branched before →
        (Run.exec NoGoEnforcementEngine.performMixed start before).Detects) ↔
      Run.Along NoGoEnforcementEngine.performMixed KeepsCount start calls := by
  intro start
  refine Run.forall_prefix_iff_along (I := fun calls engine => Counts engine start calls)
    (Q := fun calls engine => start.Branched calls → Detects engine)
    (counts_new stateEngine collapseEngine timeline errorModel rootId) ?start
    (fun calls c engine h => h.performMixed c) ?step calls
  case start =>
    rintro ⟨before, c, after, hcalls, -⟩
    exact absurd hcalls (by simp)
  case step =>
    intro calls c engine h hbefore
    rw [branched_append_singleton, ← h.reached, detects_iff (h.performMixed c).tracked]
    rw [detects_iff h.tracked] at hbefore
    by_cases hc : engine.Branches c
    · -- an event that comes from outside is always seen at once
      refine iff_of_true (fun _ => h.not_linear hc) ?_
      cases c with
      | strict c => exact absurd hc id
      | direct c => trivial
    · rw [linear_performMixed hc, Classical.not_imp, or_iff_left hc]
      constructor
      · intro hafter
        by_cases hbranched : start.Branched calls
        · exact (hafter hbranched).1
        · exact keepsCount_of_linear (not_not.mp fun hlinear => hbranched (h.branched hlinear)) c
      · exact fun hkeeps hbranched => ⟨hkeeps, hbefore hbranched⟩

/-- An engine in a superposition, with a rule that leaves the state as it is, and the projective
policy. -/
def watching : NoGoEnforcementEngine ℚ Unit Unit :=
  new ((SovereignStateEngine.new ketPlus).registerRule "hold" (fun state _ => .ok state) "").1
    (CollapseEngine.new.registerPolicy ProjectiveMeasurementPolicy.policy).1
    CausalTimeline.new ErrorModel.new "root"

/-- An event from outside is seen, but after a measurement the next evolution returns. -/
theorem branch_forgotten :
    let foreign : MixedCall ℚ Unit Unit := .direct (.record "FOREIGN" (.other ()) false)
    let measured : MixedCall ℚ Unit Unit :=
      .strict (.measureStrictly ⟨"root"⟩ ⟨"m1", "ProjectiveMeasurement", by decide, by decide⟩ 0)
    let after := Run.exec performMixed watching [foreign, measured]
    watching.Branched [foreign, measured] ∧
      (Run.exec performMixed watching [foreign]).Detects ∧
      (after.evolveStrictly watching.rootRef ⟨"hold", [], by decide⟩ 1).2.isOk = true ∧
      ¬after.Detects := by
  intro foreign measured after
  have hok : (after.evolveStrictly watching.rootRef ⟨"hold", [], by decide⟩ 1).2.isOk = true := by
    decide +kernel
  have hroot : after.rootRef = watching.rootRef := by decide +kernel
  have hforeign : watching.Branches foreign := Nat.one_ne_zero
  refine ⟨⟨[], foreign, [measured], rfl, hforeign⟩, ?_, hok, fun h => ?_⟩
  · exact (detects_iff (by decide)).mpr (show ¬1 + 1 = 1 by decide)
  · obtain ⟨exc, hraised, -⟩ := h ⟨"hold", [], by decide⟩ 1
    rw [hroot] at hraised
    rw [hraised] at hok
    exact absurd hok Bool.false_ne_true

end NoGoEnforcementEngine

end QuantumFoundation
