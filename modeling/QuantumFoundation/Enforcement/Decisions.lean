import Mathlib.Order.Basic
import QuantumFoundation.Enforcement.Engine

/-!
# What is decided

The decision of the engine in terms of the input: an input is blocked, rewritten or let through by
what it says about itself, and an input that the evaluators cannot read is refused.  The gateway
fails closed, and what can be written to the log makes no difference to it.
-/

namespace QuantumFoundation

namespace Enforcement

variable {F : Type}

/-! ### The signals of an input -/

namespace EnforcementInput

variable (config : RuntimeConfig F) (input : EnforcementInput F)

/-- The input carries the flag. -/
def Flagged (flag : String) : Prop := input.riskFlags.hasMember flag = .ok true

/-- Something in the input calls for a block. -/
def CallsForBlock : Prop :=
  input.ageGateStatus = "BLOCKED" ∨ input.regionPolicy = "RESTRICTED" ∨
    input.Flagged "HIGH_RISK" ∨ input.Flagged "SEXUAL_ESCALATION"

variable [LT F] [DecidableLT F] [OfScientific F]

/-- The comparison that `DependencyToneEvaluator` makes. -/
def dependency : Except Raised Bool :=
  (input.emotionalOutput.get "dependency_score" (.int 0)).bind Json.exceedsLimit

/-- The evaluators can read the input. -/
structure Readable : Prop where
  flags : ∀ flag, ∃ b, input.riskFlags.hasMember flag = .ok b
  dependency : ∃ b, input.dependency = .ok b

/-- Something in the input calls for a rewrite. -/
def CallsForRewrite [Neg F] : Prop :=
  input.Flagged "PLATFORM_VIOLATION" ∨ input.dependency = .ok true ∨
    input.Flagged "EMOTIONAL_MANIPULATION" ∨
    input.karmaScore < karmaThreshold config input.regionPolicy

instance decidableFlagged (flag : String) : Decidable (input.Flagged flag) :=
  inferInstanceAs (Decidable (_ = _))

instance decidableCallsForBlock : Decidable input.CallsForBlock :=
  inferInstanceAs (Decidable (_ ∨ _))

instance decidableCallsForRewrite [Neg F] : Decidable (input.CallsForRewrite config) :=
  inferInstanceAs (Decidable (_ ∨ _))

/-- What is to be done with an input. -/
def decision [Neg F] : ActionType :=
  if input.CallsForBlock then .block
  else if input.CallsForRewrite config then .rewrite else .execute

/-- How the input is to be rewritten.  The order is that of the evaluators; that of
`enforcement.yaml` is read by nothing. -/
def rewriteClass : String :=
  if input.Flagged "PLATFORM_VIOLATION" then "PLATFORM_SAFE_REWRITE"
  else if input.dependency = .ok true then "REDUCE_EMOTIONAL_DEPENDENCY"
  else if input.Flagged "EMOTIONAL_MANIPULATION" then "REMOVE_MANIPULATION"
  else "CONFIDENCE_SUPPORTIVE_TONE"

/-- The class that is told to the outside. -/
def toldClass [Neg F] : Option String :=
  if input.decision config = .rewrite then some input.rewriteClass else none

end EnforcementInput

/-! ### The evaluators -/

section Evaluators

variable {config : RuntimeConfig F} {input : EnforcementInput F}

/-- Whether a value can be searched does not depend on what is searched for. -/
lemma hasMember_ok {v : Json F} {s : String} {b : Bool} (h : v.hasMember s = .ok b)
    (s' : String) : ∃ b', v.hasMember s' = .ok b' := by
  cases v with
  | list items => exact ⟨_, rfl⟩
  | dict entries => exact ⟨_, rfl⟩
  | str t => exact ⟨_, rfl⟩
  | _ => cases h

/-- An evaluator says one of two things. -/
def verdict (b : Bool) (name : String) (action : ActionType) (code : String) : EvaluatorResult :=
  if b then ⟨name, true, action, code⟩ else passed name

lemma action_verdict {b : Bool} {name code : String} {action asked : ActionType}
    (h : asked ≠ .execute) :
    (verdict b name action code).action = asked ↔ b = true ∧ action = asked := by
  cases b <;> simp [verdict, passed, h.symm]

lemma guidance_verdict (b : Bool) (name : String) (action : ActionType) (code : String) :
    (if (verdict b name action code).triggered then
      rewriteMap.get? (verdict b name action code).code else none)
      = if b then rewriteMap.get? code else none := by
  cases b <;> rfl

lemma ageCompliance_eq (input : EnforcementInput F) : ageCompliance input = .ok (verdict
    (input.ageGateStatus = "BLOCKED") "age_compliance" .block "AGE_RESTRICTION_VIOLATION") := by
  by_cases h : input.ageGateStatus = "BLOCKED" <;> simp [ageCompliance, verdict, h]

lemma regionRestriction_eq (input : EnforcementInput F) : regionRestriction input = .ok (verdict
    (input.regionPolicy = "RESTRICTED") "region_restriction" .block "REGION_POLICY_BLOCK") := by
  by_cases h : input.regionPolicy = "RESTRICTED" <;> simp [regionRestriction, verdict, h]

lemma flagEvaluator_eq (name flag : String) (action : ActionType) (code : String)
    (input : EnforcementInput F) : flagEvaluator name flag action code input
      = (input.riskFlags.hasMember flag).map fun b => verdict b name action code := by
  rw [flagEvaluator]
  cases input.riskFlags.hasMember flag with
  | error exc => rfl
  | ok b => cases b <;> rfl

variable [LT F] [DecidableLT F] [OfScientific F]

lemma dependencyTone_eq (input : EnforcementInput F) : dependencyTone input
    = input.dependency.map fun b =>
        verdict b "dependency_tone" .rewrite "EMOTIONAL_DEPENDENCY_RISK" := by
  rw [dependencyTone, EnforcementInput.dependency]
  cases input.emotionalOutput.get "dependency_score" (.int 0) with
  | error exc => rfl
  | ok score =>
    show _ = score.exceedsLimit.map _
    simp only [bind, Except.bind]
    cases score.exceedsLimit with
    | error exc => rfl
    | ok b => cases b <;> rfl

variable [Neg F]

lemma karmaConfidence_eq (config : RuntimeConfig F) (input : EnforcementInput F) :
    karmaConfidence config input = .ok (verdict
      (input.karmaScore < karmaThreshold config input.regionPolicy)
      "karma_confidence" .rewrite "LOW_KARMA_CONFIDENCE") := by
  by_cases h : input.karmaScore < karmaThreshold config input.regionPolicy <;>
    simp [karmaConfidence, verdict, h]

/-- What the evaluators say, given what they find in the parts that come from outside. -/
def verdicts (config : RuntimeConfig F) (input : EnforcementInput F)
    (platform safety dependency sexual manipulation : Bool) : List EvaluatorResult :=
  [verdict (input.ageGateStatus = "BLOCKED") "age_compliance" .block "AGE_RESTRICTION_VIOLATION",
    verdict (input.regionPolicy = "RESTRICTED") "region_restriction" .block "REGION_POLICY_BLOCK",
    verdict platform "platform_policy" .rewrite "PLATFORM_POLICY_REWRITE",
    verdict safety "safety_risk" .block "CRITICAL_SAFETY_RISK",
    verdict dependency "dependency_tone" .rewrite "EMOTIONAL_DEPENDENCY_RISK",
    verdict sexual "sexual_escalation" .block "SEXUAL_CONTENT_ESCALATION",
    verdict manipulation "emotional_manipulation" .rewrite "MANIPULATIVE_BEHAVIOR_DETECTED",
    verdict (input.karmaScore < karmaThreshold config input.regionPolicy) "karma_confidence"
      .rewrite "LOW_KARMA_CONFIDENCE"]

/-- The evaluators return what they say of an input that they can read. -/
lemma evaluateAll_of_readable (config : RuntimeConfig F) (h : input.Readable) :
    ∃ platform safety dependency sexual manipulation,
      input.riskFlags.hasMember "PLATFORM_VIOLATION" = .ok platform ∧
      input.riskFlags.hasMember "HIGH_RISK" = .ok safety ∧ input.dependency = .ok dependency ∧
      input.riskFlags.hasMember "SEXUAL_ESCALATION" = .ok sexual ∧
      input.riskFlags.hasMember "EMOTIONAL_MANIPULATION" = .ok manipulation ∧
      evaluateAll input (allEvaluators config)
        = .ok (verdicts config input platform safety dependency sexual manipulation) := by
  obtain ⟨platform, hplatform⟩ := h.flags "PLATFORM_VIOLATION"
  obtain ⟨safety, hsafety⟩ := h.flags "HIGH_RISK"
  obtain ⟨dependency, hdependency⟩ := h.dependency
  obtain ⟨sexual, hsexual⟩ := h.flags "SEXUAL_ESCALATION"
  obtain ⟨manipulation, hmanipulation⟩ := h.flags "EMOTIONAL_MANIPULATION"
  refine ⟨platform, safety, dependency, sexual, manipulation, hplatform, hsafety, hdependency,
    hsexual, hmanipulation, ?_⟩
  simp only [allEvaluators, evaluateAll, ageCompliance_eq, regionRestriction_eq, platformPolicy,
    safetyRisk, dependencyTone_eq, sexualEscalation, emotionalManipulation, flagEvaluator_eq,
    karmaConfidence_eq, hplatform, hsafety, hdependency, hsexual, hmanipulation, Except.map,
    verdicts]

/-- One of the evaluators raises on an input that they cannot read. -/
lemma evaluateAll_of_not_readable (config : RuntimeConfig F) (h : ¬input.Readable) :
    ∃ exc, evaluateAll input (allEvaluators config) = .error exc := by
  simp only [allEvaluators, evaluateAll, ageCompliance_eq, regionRestriction_eq, platformPolicy,
    safetyRisk, dependencyTone_eq, flagEvaluator_eq]
  cases hplatform : input.riskFlags.hasMember "PLATFORM_VIOLATION" with
  | error exc => exact ⟨exc, rfl⟩
  | ok platform =>
    obtain ⟨safety, hsafety⟩ := hasMember_ok hplatform "HIGH_RISK"
    cases hdependency : input.dependency with
    | error exc =>
      rw [hsafety]
      exact ⟨exc, rfl⟩
    | ok dependency => exact absurd ⟨hasMember_ok hplatform, dependency, hdependency⟩ h

/-- **Priority.**  A block goes before a rewrite, and a rewrite before everything else. -/
theorem resolveDecision_eq (results : List EvaluatorResult) : resolveDecision results =
    if ∃ result ∈ results, result.action = .block then .block
    else if ∃ result ∈ results, result.action = .rewrite then .rewrite else .execute := by
  have hany : ∀ action, (∃ result ∈ results, result.action = action) ↔
      (results.any fun result => result.action = action) = true := by
    intro action
    simp
  simp only [resolveDecision, List.find?, hany]
  cases (results.any fun result => result.action = .block) with
  | true => rfl
  | false =>
    cases (results.any fun result => result.action = .rewrite) with
    | true => rfl
    | false => cases (results.any fun result => result.action = .execute) <;> rfl

section Verdicts

variable {platform safety dependency sexual manipulation : Bool}

lemma exists_block_verdicts :
    (∃ result ∈ verdicts config input platform safety dependency sexual manipulation,
      result.action = .block) ↔ input.ageGateStatus = "BLOCKED" ∨
        input.regionPolicy = "RESTRICTED" ∨ safety = true ∨ sexual = true := by
  simp [verdicts, action_verdict]

lemma exists_rewrite_verdicts :
    (∃ result ∈ verdicts config input platform safety dependency sexual manipulation,
      result.action = .rewrite) ↔ platform = true ∨ dependency = true ∨ manipulation = true ∨
        input.karmaScore < karmaThreshold config input.regionPolicy := by
  simp [verdicts, action_verdict]

/-- The guidance is that of the first evaluator that asks for a rewrite. -/
lemma guidance_verdicts
    (h : platform = true ∨ dependency = true ∨ manipulation = true ∨
      input.karmaScore < karmaThreshold config input.regionPolicy) :
    (generateRewriteGuidance (verdicts config input platform safety dependency sexual
      manipulation)).map RewriteGuidance.rewriteClass = some
        (if platform then "PLATFORM_SAFE_REWRITE"
        else if dependency then "REDUCE_EMOTIONAL_DEPENDENCY"
        else if manipulation then "REMOVE_MANIPULATION" else "CONFIDENCE_SUPPORTIVE_TONE") := by
  -- the codes of the evaluators that block are not in the map
  have hage : rewriteMap.get? "AGE_RESTRICTION_VIOLATION" = none := rfl
  have hregion : rewriteMap.get? "REGION_POLICY_BLOCK" = none := rfl
  have hsafety : rewriteMap.get? "CRITICAL_SAFETY_RISK" = none := rfl
  have hsexual : rewriteMap.get? "SEXUAL_CONTENT_ESCALATION" = none := rfl
  simp only [generateRewriteGuidance, verdicts, List.findSome?, guidance_verdict, hage, hregion,
    hsafety, hsexual, ite_self]
  cases platform with
  | true => rfl
  | false =>
    cases dependency with
    | true => rfl
    | false =>
      cases manipulation with
      | true => rfl
      | false =>
        have hkarma : input.karmaScore < karmaThreshold config input.regionPolicy := by
          simpa using h
        simp only [hkarma, decide_true]
        rfl

end Verdicts

lemma calls_of_rewrite (h : input.decision config = .rewrite) : input.CallsForRewrite config := by
  rw [EnforcementInput.decision] at h
  split at h
  · cases h
  · split at h
    · assumption
    · cases h

/-- **The engine.**  With the kill switch off the engine decides on an input that can be read, and
logs its decision if it can; on another input it raises. -/
theorem enforce_of_readable (hkill : config.killSwitch = false) (h : input.Readable)
    (traceId : String) (written : Bool) (log : List (LogRecord F)) :
    ∃ results guidance,
      guidance.map RewriteGuidance.rewriteClass = input.toldClass config ∧
      enforce config traceId written input log =
        (logEnforcement written
            ⟨traceId, "1.0.0", input, results, (input.decision config).text⟩ log,
          .ok ⟨input.decision config, traceId, guidance⟩) := by
  obtain ⟨platform, safety, dependency, sexual, manipulation, hplatform, hsafety, hdependency,
    hsexual, hmanipulation, hresults⟩ := evaluateAll_of_readable config h
  have hdecision : resolveDecision
      (verdicts config input platform safety dependency sexual manipulation)
        = input.decision config := by
    simp only [resolveDecision_eq, exists_block_verdicts, exists_rewrite_verdicts,
      EnforcementInput.decision, EnforcementInput.CallsForBlock, EnforcementInput.CallsForRewrite,
      EnforcementInput.Flagged, hplatform, hsafety, hdependency, hsexual, hmanipulation,
      Except.ok.injEq]
  refine ⟨verdicts config input platform safety dependency sexual manipulation,
    if input.decision config = .rewrite then generateRewriteGuidance
      (verdicts config input platform safety dependency sexual manipulation) else none, ?_, ?_⟩
  · rw [EnforcementInput.toldClass]
    by_cases hrewrite : input.decision config = .rewrite
    · have hcalls := calls_of_rewrite hrewrite
      simp only [EnforcementInput.CallsForRewrite, EnforcementInput.Flagged, hplatform, hdependency,
        hmanipulation, Except.ok.injEq] at hcalls
      rw [if_pos hrewrite, if_pos hrewrite, guidance_verdicts hcalls]
      simp only [EnforcementInput.rewriteClass, EnforcementInput.Flagged, hplatform, hdependency,
        hmanipulation, Except.ok.injEq]
    · rw [if_neg hrewrite, if_neg hrewrite]
      rfl
  · simp only [enforce, hkill, hresults, hdecision, Bool.false_eq_true, if_false]

lemma enforce_of_not_readable (hkill : config.killSwitch = false) (h : ¬input.Readable)
    (traceId : String) (written : Bool) (log : List (LogRecord F)) :
    ∃ exc, enforce config traceId written input log = (log, .error exc) := by
  obtain ⟨exc, hexc⟩ := evaluateAll_of_not_readable config h
  exact ⟨exc, by simp only [enforce, hkill, hexc, Bool.false_eq_true, if_false]⟩

lemma enforce_of_killSwitch (hkill : config.killSwitch = true) (input : EnforcementInput F)
    (traceId : String) (written : Bool) (log : List (LogRecord F)) :
    enforce config traceId written input log
      = (log, .ok ⟨.block, "KILL_SWITCH_ACTIVE", none⟩) := by
  rw [enforce, if_pos hkill]

end Evaluators

/-! ### The gateways -/

section Gateways

variable [LT F] [DecidableLT F] [OfScientific F] [Neg F]

variable {config : RuntimeConfig F} {payload : EnforcementRequest F}

lemma liveEnforce_of_killSwitch (hkill : config.killSwitch = true) (id traceId : String)
    (engineWritten gatewayWritten : Bool) (log : List (LogRecord F)) :
    liveEnforce config id traceId engineWritten gatewayWritten payload log =
      (logEnforcement gatewayWritten
          ⟨"KILL_SWITCH_ACTIVE", "1.0.0", payload.toInput, [], "BLOCK"⟩ log,
        ⟨.block, "DETERMINISTIC_ENFORCEMENT_APPLIED", [(.block, none)], id⟩) := by
  simp only [liveEnforce, enforce_of_killSwitch hkill]
  rfl

lemma liveEnforce_of_not_readable (hkill : config.killSwitch = false)
    (h : ¬payload.toInput.Readable) (id traceId : String) (engineWritten gatewayWritten : Bool)
    (log : List (LogRecord F)) :
    liveEnforce config id traceId engineWritten gatewayWritten payload log
      = (log, failClosed id) := by
  obtain ⟨exc, hexc⟩ := enforce_of_not_readable hkill h traceId engineWritten log
  simp only [liveEnforce, hexc]

/-- On a request that can be read the gateway never fails: what must not be handed off is not. -/
lemma liveEnforce_of_readable (hkill : config.killSwitch = false)
    (h : payload.toInput.Readable) (id traceId : String) (engineWritten gatewayWritten : Bool)
    (log : List (LogRecord F)) :
    liveEnforce config id traceId engineWritten gatewayWritten payload log =
      (logEnforcement gatewayWritten ⟨traceId, "1.0.0", payload.toInput, [],
          (decisionMap (payload.toInput.decision config)).text⟩
        (enforce config traceId engineWritten payload.toInput log).1,
        ⟨decisionMap (payload.toInput.decision config), "DETERMINISTIC_ENFORCEMENT_APPLIED",
          [(payload.toInput.decision config, payload.toInput.toldClass config)], id⟩) := by
  obtain ⟨results, guidance, hguidance, heq⟩ :=
    enforce_of_readable hkill h traceId engineWritten log
  simp only [liveEnforce, heq, hguidance, sendToAkanksha]
  cases payload.toInput.decision config <;> rfl

lemma decision_eq_execute {input : EnforcementInput F} : input.decision config = .execute ↔
    ¬input.CallsForBlock ∧ ¬input.CallsForRewrite config := by
  rw [EnforcementInput.decision]
  split
  · simp [*]
  · split <;> simp [*]

/-- **The gateways.**  Both decide on a request from what it says alone: neither the log, nor
whether it can be written, nor the ids make a difference.  They give the same decision and the same
rewrite class.  What the engine cannot read is blocked by the live gateway and raises in the other;
an answer is let through exactly if the kill switch is off and nothing in it calls for anything. -/
theorem gateways_decide (config : RuntimeConfig F) (payload : EnforcementRequest F)
    (id traceId : String) (engineWritten gatewayWritten : Bool) (log : List (LogRecord F)) :
    let input := payload.toInput
    let answer := (liveEnforce config id traceId engineWritten gatewayWritten payload log).2
    let response := (executionGateway config traceId engineWritten input log).2
    (config.killSwitch = true →
      answer = ⟨.block, "DETERMINISTIC_ENFORCEMENT_APPLIED", [(.block, none)], id⟩ ∧
      response = .ok ⟨.block, "KILL_SWITCH_ACTIVE", none⟩) ∧
    (config.killSwitch = false → input.Readable →
      answer = ⟨decisionMap (input.decision config), "DETERMINISTIC_ENFORCEMENT_APPLIED",
        [(input.decision config, input.toldClass config)], id⟩ ∧
      response = .ok ⟨input.decision config, traceId, input.toldClass config⟩) ∧
    (config.killSwitch = false → ¬input.Readable →
      answer = failClosed id ∧ ∃ exc, response = .error exc) ∧
    (answer.decision = .allow ↔ config.killSwitch = false ∧ input.Readable ∧
      ¬input.CallsForBlock ∧ ¬input.CallsForRewrite config) := by
  intro input answer response
  have hhalted : config.killSwitch = true →
      answer = ⟨.block, "DETERMINISTIC_ENFORCEMENT_APPLIED", [(.block, none)], id⟩ := by
    intro hkill
    exact congrArg Prod.snd (liveEnforce_of_killSwitch hkill id traceId _ _ log)
  have hdecided : config.killSwitch = false → input.Readable →
      answer = ⟨decisionMap (input.decision config), "DETERMINISTIC_ENFORCEMENT_APPLIED",
        [(input.decision config, input.toldClass config)], id⟩ := by
    intro hkill h
    exact congrArg Prod.snd (liveEnforce_of_readable hkill h id traceId _ _ log)
  have hfailed : config.killSwitch = false → ¬input.Readable → answer = failClosed id := by
    intro hkill h
    exact congrArg Prod.snd (liveEnforce_of_not_readable hkill h id traceId _ _ log)
  refine ⟨fun hkill => ⟨hhalted hkill, ?_⟩, fun hkill h => ⟨hdecided hkill h, ?_⟩,
    fun hkill h => ⟨hfailed hkill h, ?_⟩, ?_⟩
  · simp only [response, executionGateway, enforce_of_killSwitch hkill]
    rfl
  · obtain ⟨results, guidance, hguidance, heq⟩ :=
      enforce_of_readable hkill h traceId engineWritten log
    simp only [response, executionGateway, heq, hguidance]
    rw [EnforcementInput.toldClass]
    split <;> rfl
  · obtain ⟨exc, hexc⟩ := enforce_of_not_readable hkill h traceId engineWritten log
    exact ⟨exc, by simp only [response, executionGateway, hexc]⟩
  · rw [← decision_eq_execute]
    constructor
    · intro hallow
      cases hkill : config.killSwitch with
      | true => cases (congrArg EnforcementResponse.decision (hhalted hkill)).symm.trans hallow
      | false =>
        by_cases h : input.Readable
        · have hmap : decisionMap (input.decision config) = .allow :=
            (congrArg EnforcementResponse.decision (hdecided hkill h)).symm.trans hallow
          refine ⟨rfl, h, ?_⟩
          cases hdecision : input.decision config with
          | execute => rfl
          | rewrite => cases hdecision ▸ hmap
          | block => cases hdecision ▸ hmap
        · cases (congrArg EnforcementResponse.decision (hfailed hkill h)).symm.trans hallow
    · rintro ⟨hkill, h, hdecision⟩
      rw [hdecided hkill h, hdecision]
      rfl

end Gateways

end Enforcement

end QuantumFoundation
