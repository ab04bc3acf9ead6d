import Mathlib.Data.List.Infix
import QuantumFoundation.Json

/-!
# The enforcement engine

The engine that decides whether an answer is executed, rewritten or blocked: the evaluators, the
resolution of what they say, the log of the decisions, the two gateways, and the replay of a logged
decision.  What a request brings along comes from outside and may be of any shape; an evaluator that
cannot deal with it raises.
-/

namespace QuantumFoundation

variable {F : Type}

namespace Json

/-- `s in v`: a member of a list, a key of a dict, a part of a text. -/
def hasMember (v : Json F) (s : String) : Except Raised Bool :=
  match v with
  | list items => .ok (items.any fun item => match item with
    | str t => t = s
    | _ => false)
  | dict entries => .ok (entries.any fun p => p.1 = s)
  | str t => .ok (decide (s.toList <:+: t.toList))
  | v => .error ⟨.typeError, "argument of type '" ++ v.typeName ++ "' is not iterable"⟩

/-- `v > 0.7`.  An integer is greater exactly if it is positive. -/
def exceedsLimit [LT F] [DecidableLT F] [OfScientific F] (v : Json F) : Except Raised Bool :=
  match v with
  | float x => .ok (decide (0.7 < x))
  | int i => .ok (decide (0 < i))
  | bool b => .ok b
  | v => .error
    ⟨.typeError, "'>' not supported between instances of '" ++ v.typeName ++ "' and 'float'"⟩

end Json

namespace Enforcement

/-! ### Models -/

/-- `ActionType`. -/
inductive ActionType
  | execute
  | rewrite
  | block
deriving DecidableEq

/-- The text of an action. -/
def ActionType.text : ActionType → String
  | execute => "EXECUTE"
  | rewrite => "REWRITE"
  | block => "BLOCK"

/-- What is to be decided on. -/
structure EnforcementInput (F : Type) where
  intent : String
  emotionalOutput : Json F
  ageGateStatus : String
  regionPolicy : String
  platformPolicy : String
  karmaScore : F
  riskFlags : Json F

/-- What an evaluator says. -/
structure EvaluatorResult where
  name : String
  triggered : Bool
  action : ActionType
  code : String
deriving DecidableEq

/-- How a text is to be rewritten. -/
structure RewriteGuidance where
  rewriteClass : String
  rewriteHints : List String
deriving DecidableEq

/-- The decision of the engine. -/
structure EnforcementDecision where
  decision : ActionType
  traceId : String
  rewriteGuidance : Option RewriteGuidance
deriving DecidableEq

/-- What is read of `runtime.yaml`. -/
structure RuntimeConfig (F : Type) where
  killSwitch : Bool
  karmaConfidenceThreshold : Option F
  karmaConfidenceThresholds : Dict String F
  env : String
  karmaConfidenceThresholdOverlays : Dict String (Dict String F)

/-! ### The evaluators -/

/-- An evaluator that has nothing to say. -/
def passed (name : String) : EvaluatorResult := ⟨name, false, .execute, ""⟩

/-- An evaluator that looks for a flag. -/
def flagEvaluator (name flag : String) (action : ActionType) (code : String)
    (input : EnforcementInput F) : Except Raised EvaluatorResult := do
  if ← input.riskFlags.hasMember flag then return ⟨name, true, action, code⟩
  return passed name

/-- `AgeComplianceEvaluator`. -/
def ageCompliance (input : EnforcementInput F) : Except Raised EvaluatorResult :=
  if input.ageGateStatus = "BLOCKED" then
    .ok ⟨"age_compliance", true, .block, "AGE_RESTRICTION_VIOLATION"⟩
  else .ok (passed "age_compliance")

/-- `RegionRestrictionEvaluator`. -/
def regionRestriction (input : EnforcementInput F) : Except Raised EvaluatorResult :=
  if input.regionPolicy ∈ ["RESTRICTED"] then
    .ok ⟨"region_restriction", true, .block, "REGION_POLICY_BLOCK"⟩
  else .ok (passed "region_restriction")

/-- `PlatformPolicyEvaluator`. -/
def platformPolicy : EnforcementInput F → Except Raised EvaluatorResult :=
  flagEvaluator "platform_policy" "PLATFORM_VIOLATION" .rewrite "PLATFORM_POLICY_REWRITE"

/-- `SafetyRiskEvaluator`. -/
def safetyRisk : EnforcementInput F → Except Raised EvaluatorResult :=
  flagEvaluator "safety_risk" "HIGH_RISK" .block "CRITICAL_SAFETY_RISK"

/-- `SexualEscalationEvaluator`. -/
def sexualEscalation : EnforcementInput F → Except Raised EvaluatorResult :=
  flagEvaluator "sexual_escalation" "SEXUAL_ESCALATION" .block "SEXUAL_CONTENT_ESCALATION"

/-- `EmotionalManipulationEvaluator`. -/
def emotionalManipulation : EnforcementInput F → Except Raised EvaluatorResult :=
  flagEvaluator "emotional_manipulation" "EMOTIONAL_MANIPULATION" .rewrite
    "MANIPULATIVE_BEHAVIOR_DETECTED"

variable [LT F] [DecidableLT F] [OfScientific F]

/-- `DependencyToneEvaluator`. -/
def dependencyTone (input : EnforcementInput F) : Except Raised EvaluatorResult := do
  let score ← input.emotionalOutput.get "dependency_score" (.int 0)
  if ← score.exceedsLimit then
    return ⟨"dependency_tone", true, .rewrite, "EMOTIONAL_DEPENDENCY_RISK"⟩
  return passed "dependency_tone"

variable [Neg F]

/-- The threshold for a region, brought between -1 and 1. -/
def karmaThreshold (config : RuntimeConfig F) (region : String) : F :=
  let defaultThreshold := config.karmaConfidenceThreshold.getD (-0.5)
  let overlayThresholds := if config.env ≠ ""
    then (config.karmaConfidenceThresholdOverlays.get? config.env).getD .empty else .empty
  let threshold := (overlayThresholds.get? region).getD
    ((config.karmaConfidenceThresholds.get? region).getD defaultThreshold)
  let threshold := if threshold < -1.0 then -1.0 else threshold
  if 1.0 < threshold then 1.0 else threshold

/-- `KarmaConfidenceEvaluator`. -/
def karmaConfidence (config : RuntimeConfig F) (input : EnforcementInput F) :
    Except Raised EvaluatorResult :=
  if input.karmaScore < karmaThreshold config input.regionPolicy then
    .ok ⟨"karma_confidence", true, .rewrite, "LOW_KARMA_CONFIDENCE"⟩
  else .ok (passed "karma_confidence")

/-- `ALL_EVALUATORS`. -/
def allEvaluators (config : RuntimeConfig F) :
    List (EnforcementInput F → Except Raised EvaluatorResult) :=
  [ageCompliance, regionRestriction, platformPolicy, safetyRisk, dependencyTone, sexualEscalation,
    emotionalManipulation, karmaConfidence config]

/-- The loop over the evaluators. -/
def evaluateAll (input : EnforcementInput F) :
    List (EnforcementInput F → Except Raised EvaluatorResult) →
    Except Raised (List EvaluatorResult)
  | [] => .ok []
  | evaluator :: rest =>
    match evaluator input with
    | .error exc => .error exc
    | .ok result => match evaluateAll input rest with
      | .error exc => .error exc
      | .ok results => .ok (result :: results)

/-! ### The decision -/

/-- `_resolve_decision`. -/
def resolveDecision (evaluatorResults : List EvaluatorResult) : ActionType :=
  ([.block, .rewrite, .execute].find? fun decision =>
    evaluatorResults.any fun result => result.action = decision).getD .execute

/-- `REWRITE_MAP`. -/
def rewriteMap : Dict String RewriteGuidance :=
  .ofList
    [("EMOTIONAL_DEPENDENCY_RISK", ⟨"REDUCE_EMOTIONAL_DEPENDENCY",
        ["avoid exclusivity", "encourage autonomy", "neutral supportive tone"]⟩),
      ("MANIPULATIVE_BEHAVIOR_DETECTED", ⟨"REMOVE_MANIPULATION",
        ["remove pressure framing", "avoid guilt language"]⟩),
      ("PLATFORM_POLICY_REWRITE", ⟨"PLATFORM_SAFE_REWRITE",
        ["remove disallowed phrasing", "comply with platform norms"]⟩),
      ("LOW_KARMA_CONFIDENCE", ⟨"CONFIDENCE_SUPPORTIVE_TONE",
        ["use steady, non-hyped language", "affirm without dependency",
          "prefer clarity over persuasion"]⟩)]

/-- `generate_rewrite_guidance`. -/
def generateRewriteGuidance (evaluatorResults : List EvaluatorResult) : Option RewriteGuidance :=
  evaluatorResults.findSome? fun result =>
    if result.triggered then rewriteMap.get? result.code else none

/-- A line of the log. -/
structure LogRecord (F : Type) where
  traceId : String
  engineVersion : String
  inputSnapshot : EnforcementInput F
  evaluators : List EvaluatorResult
  finalDecision : String

/-- `log_enforcement`.  Whether the line can be written is up to the file; if it cannot, nothing
else happens. -/
def logEnforcement (written : Bool) (record : LogRecord F) (log : List (LogRecord F)) :
    List (LogRecord F) := if written then log ++ [record] else log

/-- `enforce`, with the trace id that is drawn. -/
def enforce (config : RuntimeConfig F) (traceId : String) (written : Bool)
    (input : EnforcementInput F) (log : List (LogRecord F)) :
    Attempt (List (LogRecord F)) EnforcementDecision :=
  if config.killSwitch then (log, .ok ⟨.block, "KILL_SWITCH_ACTIVE", none⟩)
  else
    match evaluateAll input (allEvaluators config) with
    | .error exc => (log, .error exc)
    | .ok evaluatorResults =>
      let finalDecision := resolveDecision evaluatorResults
      let rewriteGuidance :=
        if finalDecision = .rewrite then generateRewriteGuidance evaluatorResults else none
      (logEnforcement written
          ⟨traceId, "1.0.0", input, evaluatorResults, finalDecision.text⟩ log,
        .ok ⟨finalDecision, traceId, rewriteGuidance⟩)

/-! ### The gateways -/

/-- The decisions that are told to the outside. -/
inductive LiveDecision
  | allow
  | rewrite
  | block
deriving DecidableEq

/-- The text of a decision. -/
def LiveDecision.text : LiveDecision → String
  | allow => "ALLOW"
  | rewrite => "REWRITE"
  | block => "BLOCK"

/-- `DECISION_MAP`. -/
def decisionMap : ActionType → LiveDecision
  | .execute => .allow
  | .rewrite => .rewrite
  | .block => .block

/-- What Akanksha answers. -/
structure AkankshaReply where
  akankshaStatus : String
  validatedDecision : LiveDecision
  rewriteClass : Option String
  traceId : String
  enforcementDecisionId : String

/-- `send_to_akanksha`. -/
def sendToAkanksha (decision : LiveDecision) (rewriteClass : Option String)
    (traceId enforcementDecisionId : String) : Except Raised AkankshaReply :=
  if decision = .block then .error ⟨.runtimeError, "BLOCK decisions must not reach Akanksha"⟩
  else .ok ⟨"SAFE", decision, rewriteClass, traceId, enforcementDecisionId⟩

/-- The body of a request. -/
structure EnforcementRequest (F : Type) where
  text : String
  metadata : Dict String (Json F)
  ageState : String
  regionState : String
  platformPolicyState : String
  karmaSignal : Option F

/-- The body of an answer. -/
structure EnforcementResponse where
  decision : LiveDecision
  reason : String
  evaluatorTrace : List (ActionType × Option String)
  enforcementDecisionId : String
deriving DecidableEq

/-- The input that is made of a request. -/
def EnforcementRequest.toInput (payload : EnforcementRequest F) : EnforcementInput F where
  intent := payload.text
  emotionalOutput := (payload.metadata.get? "emotional_output").getD (.dict [])
  ageGateStatus := payload.ageState
  regionPolicy := payload.regionState
  platformPolicy := payload.platformPolicyState
  karmaScore := payload.karmaSignal.getD 0.0
  riskFlags := (payload.metadata.get? "risk_flags").getD (.list [])

/-- The answer when something has gone wrong. -/
def failClosed (enforcementDecisionId : String) : EnforcementResponse :=
  ⟨.block, "ENFORCEMENT_FAILURE_FAIL_CLOSED", [], enforcementDecisionId⟩

/-- `live_enforce`, with the ids that are drawn; the two flags say whether the lines of the engine
and of the gateway can be written. -/
def liveEnforce (config : RuntimeConfig F) (enforcementDecisionId traceId : String)
    (engineWritten gatewayWritten : Bool) (payload : EnforcementRequest F)
    (log : List (LogRecord F)) : List (LogRecord F) × EnforcementResponse :=
  let input := payload.toInput
  match enforce config traceId engineWritten input log with
  | (log, .error _) => (log, failClosed enforcementDecisionId)
  | (log, .ok result) =>
    let liveDecision := decisionMap result.decision
    let rewriteClass := result.rewriteGuidance.map (·.rewriteClass)
    let log := logEnforcement gatewayWritten
      ⟨result.traceId, "1.0.0", input, [], liveDecision.text⟩ log
    let handedOff :=
      if liveDecision ≠ .block then
        (sendToAkanksha liveDecision rewriteClass result.traceId enforcementDecisionId).map some
      else .ok none
    match handedOff with
    | .error _ => (log, failClosed enforcementDecisionId)
    | .ok _ =>
      (log, ⟨liveDecision, "DETERMINISTIC_ENFORCEMENT_APPLIED",
        [(result.decision, rewriteClass)], enforcementDecisionId⟩)

/-- What `execution_gateway` returns. -/
structure ExecutionResponse where
  decision : ActionType
  traceId : String
  rewriteClass : Option String
deriving DecidableEq

/-- `execution_gateway`. -/
def executionGateway (config : RuntimeConfig F) (traceId : String) (written : Bool)
    (input : EnforcementInput F) (log : List (LogRecord F)) :
    Attempt (List (LogRecord F)) ExecutionResponse :=
  match enforce config traceId written input log with
  | (log, .error exc) => (log, .error exc)
  | (log, .ok decision) =>
    (log, .ok ⟨decision.decision, decision.traceId,
      if decision.decision = .rewrite then decision.rewriteGuidance.map (·.rewriteClass)
      else none⟩)

/-! ### Replay -/

/-- What a replay reports. -/
structure ReplayResult where
  originalTraceId : String
  originalDecision : String
  replayedDecision : String
  deterministicMatch : Bool
deriving DecidableEq

/-- `_replay_record`.  The reconstructed input is the logged one. -/
def replayRecord (config : RuntimeConfig F) (newTraceId : String) (written : Bool)
    (record : LogRecord F) (log : List (LogRecord F)) :
    Attempt (List (LogRecord F)) ReplayResult :=
  match enforce config newTraceId written record.inputSnapshot log with
  | (log, .error exc) => (log, .error exc)
  | (log, .ok decision) =>
    (log, .ok ⟨record.traceId, record.finalDecision, decision.decision.text,
      decision.decision.text = record.finalDecision⟩)

/-- `replay`: the first line with the trace id.  There is a file once a line is written. -/
def replay (config : RuntimeConfig F) (newTraceId : String) (written : Bool) (traceId : String)
    (log : List (LogRecord F)) : Attempt (List (LogRecord F)) ReplayResult :=
  if log = [] then (log, .error ⟨.other "FileNotFoundError", "No enforcement logs found."⟩)
  else
    match log.find? fun record => record.traceId = traceId with
    | none => (log, .error ⟨.valueError, "Trace ID not found: " ++ traceId⟩)
    | some record => replayRecord config newTraceId written record log

end Enforcement

end QuantumFoundation
