import Mathlib.Algebra.Order.Field.Basic
import Mathlib.Tactic.NormNum.OfScientific
import Mathlib.Tactic.Linarith
import QuantumFoundation.Enforcement.Decisions

/-!
# Nothing more makes a decision milder

A request that says all that another one says against itself, and possibly more, is never treated
more mildly, also not under a stricter configuration.
-/

namespace QuantumFoundation

namespace Enforcement

variable {F : Type}

/-- How severe a decision is. -/
def LiveDecision.severity : LiveDecision → Nat
  | allow => 0
  | rewrite => 1
  | block => 2

lemma LiveDecision.severity_le_block (decision : LiveDecision) :
    decision.severity ≤ LiveDecision.block.severity := by
  cases decision <;> decide

section Preorder

variable [Preorder F] [DecidableLT F] [OfScientific F]

/-- The second input says all that the first one says against itself. -/
structure EnforcementInput.AtLeast (input input' : EnforcementInput F) : Prop where
  readable : input'.Readable → input.Readable
  age : input.ageGateStatus = "BLOCKED" → input'.ageGateStatus = "BLOCKED"
  region : input'.regionPolicy = input.regionPolicy ∨ input'.regionPolicy = "RESTRICTED"
  flags : ∀ flag, input.Flagged flag → input'.Flagged flag
  dependency : input.dependency = .ok true → input'.dependency = .ok true
  karma : input'.karmaScore ≤ input.karmaScore

lemma EnforcementInput.AtLeast.callsForBlock {input input' : EnforcementInput F}
    (h : input.AtLeast input') (hcalls : input.CallsForBlock) : input'.CallsForBlock := by
  obtain hage | hregion | hrisk | hescalation := hcalls
  · exact .inl (h.age hage)
  · obtain heq | hrestricted := h.region
    · exact .inr (.inl (heq.trans hregion))
    · exact .inr (.inl hrestricted)
  · exact .inr (.inr (.inl (h.flags _ hrisk)))
  · exact .inr (.inr (.inr (h.flags _ hescalation)))

variable [Neg F]

/-- The second configuration is as strict as the first one. -/
structure RuntimeConfig.AtLeast (config config' : RuntimeConfig F) : Prop where
  killSwitch : config.killSwitch = true → config'.killSwitch = true
  threshold : ∀ region, karmaThreshold config region ≤ karmaThreshold config' region

variable {config config' : RuntimeConfig F} {input input' : EnforcementInput F}

/-- In another region than before, an input is blocked. -/
lemma EnforcementInput.AtLeast.callsForRewrite (h : input.AtLeast input')
    (hconfig : config.AtLeast config') (hcalls : input.CallsForRewrite config) :
    input'.CallsForBlock ∨ input'.CallsForRewrite config' := by
  obtain hplatform | hdependency | hmanipulation | hkarma := hcalls
  · exact .inr (.inl (h.flags _ hplatform))
  · exact .inr (.inr (.inl (h.dependency hdependency)))
  · exact .inr (.inr (.inr (.inl (h.flags _ hmanipulation))))
  · obtain heq | hrestricted := h.region
    · refine .inr (.inr (.inr (.inr ?_)))
      calc
        input'.karmaScore ≤ input.karmaScore := h.karma
        _ < karmaThreshold config input.regionPolicy := hkarma
        _ = karmaThreshold config input'.regionPolicy := by rw [heq]
        _ ≤ karmaThreshold config' input'.regionPolicy := hconfig.threshold _
    · exact .inl (.inr (.inl hrestricted))

lemma EnforcementInput.AtLeast.decision (h : input.AtLeast input')
    (hconfig : config.AtLeast config') :
    (decisionMap (input.decision config)).severity
      ≤ (decisionMap (input'.decision config')).severity := by
  by_cases hblock' : input'.CallsForBlock
  · have hdecision' : input'.decision config' = .block := if_pos hblock'
    rw [hdecision']
    exact LiveDecision.severity_le_block _
  have hblock : ¬input.CallsForBlock := mt h.callsForBlock hblock'
  by_cases hrewrite : input.CallsForRewrite config
  · have hrewrite' : input'.CallsForRewrite config' :=
      (h.callsForRewrite hconfig hrewrite).resolve_left hblock'
    simp only [EnforcementInput.decision, if_neg hblock, if_pos hrewrite, if_neg hblock',
      if_pos hrewrite', le_refl]
  · simp only [EnforcementInput.decision, if_neg hblock, if_neg hrewrite]
    exact Nat.zero_le _

/-- **Severity.**  A request that says all that another one says against itself is treated at least
as severely, under a configuration that is at least as strict, whatever the logs are and whether
they can be written. -/
theorem severity_mono {payload payload' : EnforcementRequest F} (hconfig : config.AtLeast config')
    (h : payload.toInput.AtLeast payload'.toInput) (id traceId id' traceId' : String)
    (engineWritten gatewayWritten engineWritten' gatewayWritten' : Bool)
    (log log' : List (LogRecord F)) :
    (liveEnforce config id traceId engineWritten gatewayWritten payload log).2.decision.severity
      ≤ (liveEnforce config' id' traceId' engineWritten' gatewayWritten' payload'
        log').2.decision.severity := by
  cases hkill' : config'.killSwitch with
  | true =>
    rw [liveEnforce_of_killSwitch hkill' id' traceId']
    exact LiveDecision.severity_le_block _
  | false =>
    have hkill : config.killSwitch = false := by
      refine Bool.eq_false_iff.mpr fun hkill => ?_
      cases hkill'.symm.trans (hconfig.killSwitch hkill)
    by_cases hreadable' : payload'.toInput.Readable
    · rw [liveEnforce_of_readable hkill' hreadable',
        liveEnforce_of_readable hkill (h.readable hreadable')]
      exact h.decision hconfig
    · rw [liveEnforce_of_not_readable hkill' hreadable']
      exact LiveDecision.severity_le_block _

/-- A flag more and less karma. -/
theorem severity_of_violation :
    (liveEnforce (F := Rat) ⟨false, none, .empty, "", .empty⟩ "1" "t" true true
      ⟨"Hello", .empty, "ALLOWED", "IN", "SAFE", some 0.5⟩ []).2.decision.severity
    ≤ (liveEnforce (F := Rat) ⟨false, none, .empty, "", .empty⟩ "2" "u" true false
      ⟨"Hello", .ofList [("risk_flags", .list [.str "PLATFORM_VIOLATION"])], "ALLOWED", "IN",
        "SAFE", some 0.25⟩ []).2.decision.severity := by
  refine severity_mono ⟨id, fun _ => le_refl _⟩ ?_ _ _ _ _ _ _ _ _ _ _
  exact
    { readable := fun _ => ⟨fun _ => ⟨_, rfl⟩, _, rfl⟩
      age := id
      region := .inl rfl
      flags := by
        intro flag h
        cases h
      dependency := by
        intro h
        cases h
      karma := by
        show (0.25 : Rat) ≤ 0.5
        norm_num }

end Preorder

/-! ### Karma -/

section Karma

variable [Field F] [LinearOrder F] [IsStrictOrderedRing F]

lemma karmaThreshold_mem (config : RuntimeConfig F) (region : String) :
    -1 ≤ karmaThreshold config region ∧ karmaThreshold config region ≤ 1 := by
  have hclamp : ∀ t : F, -1 ≤ (if (1.0 : F) < if t < -1.0 then -1.0 else t then 1.0
      else if t < -1.0 then -1.0 else t) ∧
      (if (1.0 : F) < if t < -1.0 then -1.0 else t then 1.0
        else if t < -1.0 then -1.0 else t) ≤ 1 := by
    intro t
    have hone : (1.0 : F) = 1 := by norm_num
    rw [hone]
    rcases lt_or_ge t (-1) with hlow | hlow
    · have hneg : ¬(1 : F) < -1 := by linarith
      rw [if_pos hlow, if_neg hneg]
      exact ⟨le_refl _, by linarith⟩
    · rw [if_neg (not_lt.mpr hlow)]
      split
      · exact ⟨by linarith, le_refl _⟩
      · rename_i hhigh
        exact ⟨hlow, not_lt.mp hhigh⟩
  exact hclamp _

/-- Whatever the configuration, karma below -1 is never enough, and karma from 1 on never calls for
a rewrite. -/
theorem karma_bounds (config : RuntimeConfig F) (input : EnforcementInput F) :
    (input.karmaScore < -1 → input.decision config ≠ .execute) ∧
    (1 ≤ input.karmaScore → ¬input.karmaScore < karmaThreshold config input.regionPolicy) := by
  obtain ⟨hlow, hhigh⟩ := karmaThreshold_mem config input.regionPolicy
  refine ⟨fun hkarma hdecision => ?_, fun hkarma => not_lt.mpr (hhigh.trans hkarma)⟩
  exact (decision_eq_execute.mp hdecision).2 (.inr (.inr (.inr (hkarma.trans_le hlow))))

end Karma

end Enforcement

end QuantumFoundation
