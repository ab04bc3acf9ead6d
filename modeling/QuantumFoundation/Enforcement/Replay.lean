import QuantumFoundation.Enforcement.Decisions

/-!
# Replay of logged decisions

The log of a run of the two gateways and of replays, under one configuration, with lines lost as it
may happen.  What is logged was decided by the engine, so that a replay comes to the same decision
again.  It reports so unless the line it has found is that of the gateway for a decision to execute,
which is logged in other words.
-/

namespace QuantumFoundation

namespace Enforcement

variable {F : Type}

/-- A call, with the ids that are drawn in it and the lines that can be written. -/
inductive Call (F : Type)
  | live (id traceId : String) (engineWritten gatewayWritten : Bool)
      (payload : EnforcementRequest F)
  | execution (traceId : String) (written : Bool) (input : EnforcementInput F)
  | replay (newTraceId : String) (written : Bool) (traceId : String)

/-- The gateway does not write its line where the engine could not. -/
def Call.InOrder : Call F → Prop
  | live _ _ engineWritten gatewayWritten _ => gatewayWritten = true → engineWritten = true
  | _ => True

variable [LT F] [DecidableLT F] [OfScientific F] [Neg F]

/-- The log after a call. -/
def afterCall (config : RuntimeConfig F) (log : List (LogRecord F)) : Call F → List (LogRecord F)
  | .live id traceId engineWritten gatewayWritten payload =>
    (liveEnforce config id traceId engineWritten gatewayWritten payload log).1
  | .execution traceId written input => (executionGateway config traceId written input log).1
  | .replay newTraceId written traceId => (replay config newTraceId written traceId log).1

/-- The log after a run. -/
def afterCalls (config : RuntimeConfig F) (calls : List (Call F)) : List (LogRecord F) :=
  calls.foldl (afterCall config) []

/-- What the engine decides on an input, if it does. -/
def actionFor (config : RuntimeConfig F) (input : EnforcementInput F) : ActionType :=
  if config.killSwitch then .block else input.decision config

/-- The line is about a decision of the engine. -/
structure LogRecord.Decided (config : RuntimeConfig F) (record : LogRecord F) : Prop where
  readable : config.killSwitch = false → record.inputSnapshot.Readable
  decision : record.finalDecision = (actionFor config record.inputSnapshot).text ∨
    record.finalDecision = (decisionMap (actionFor config record.inputSnapshot)).text

variable {config : RuntimeConfig F} {input : EnforcementInput F} {log : List (LogRecord F)}

lemma actionFor_of_on (hkill : config.killSwitch = true) (input : EnforcementInput F) :
    actionFor config input = .block := if_pos hkill

lemma actionFor_of_off (hkill : config.killSwitch = false) (input : EnforcementInput F) :
    actionFor config input = input.decision config := by
  rw [actionFor, hkill]
  rfl

/-! ### What a call writes -/

/-- The engine writes a line about its decision, or none. -/
lemma enforce_log (config : RuntimeConfig F) (traceId : String) (written : Bool)
    (input : EnforcementInput F) (log : List (LogRecord F)) :
    (enforce config traceId written input log).1 = log ∨
      ∃ record : LogRecord F, record.Decided config ∧
        record.finalDecision = (actionFor config record.inputSnapshot).text ∧
        (enforce config traceId written input log).1 = log ++ [record] := by
  cases hkill : config.killSwitch with
  | true => exact .inl (by rw [enforce_of_killSwitch hkill])
  | false =>
    by_cases h : input.Readable
    · obtain ⟨results, guidance, -, heq⟩ := enforce_of_readable hkill h traceId written log
      rw [heq]
      cases written with
      | false => exact .inl rfl
      | true =>
        have hdecision := congrArg ActionType.text (actionFor_of_off hkill input).symm
        exact .inr ⟨_, ⟨fun _ => h, .inl hdecision⟩, hdecision, rfl⟩
    · obtain ⟨exc, hexc⟩ := enforce_of_not_readable hkill h traceId written log
      exact .inl (by rw [hexc])

/-- The live gateway writes what the engine writes, and then possibly a line of its own about the
same decision.  If the engine could write, then that line has the trace id of an earlier one, unless
the decision is to block. -/
lemma liveEnforce_log (config : RuntimeConfig F) (id traceId : String)
    (engineWritten gatewayWritten : Bool) (payload : EnforcementRequest F)
    (log : List (LogRecord F)) :
    let written := (enforce config traceId engineWritten payload.toInput log).1
    let action := actionFor config payload.toInput
    (liveEnforce config id traceId engineWritten gatewayWritten payload log).1 = written ∨
      ∃ lineId, (config.killSwitch = false → payload.toInput.Readable) ∧
        (engineWritten = true → action ≠ .block → ∃ earlier ∈ written, earlier.traceId = lineId) ∧
        (liveEnforce config id traceId engineWritten gatewayWritten payload log).1
          = logEnforcement gatewayWritten
            ⟨lineId, "1.0.0", payload.toInput, [], (decisionMap action).text⟩ written := by
  intro written action
  cases hkill : config.killSwitch with
  | true =>
    have haction : action = .block := actionFor_of_on hkill _
    refine .inr ⟨"KILL_SWITCH_ACTIVE", fun h => (nomatch h), fun _ h => absurd haction h, ?_⟩
    rw [liveEnforce_of_killSwitch hkill, haction]
    simp only [written, enforce_of_killSwitch hkill]
    rfl
  | false =>
    by_cases h : payload.toInput.Readable
    · have haction : action = payload.toInput.decision config := actionFor_of_off hkill _
      refine .inr ⟨traceId, fun _ => h, fun hengine _ => ?_, ?_⟩
      · subst hengine
        obtain ⟨results, guidance, -, heq⟩ := enforce_of_readable hkill h traceId true log
        have hwritten : written = log ++ [⟨traceId, "1.0.0", payload.toInput, results, _⟩] :=
          congrArg Prod.fst heq
        rw [hwritten]
        exact ⟨_, List.mem_append_right _ (List.mem_singleton_self _), rfl⟩
      · rw [liveEnforce_of_readable hkill h, haction]
    · obtain ⟨exc, hexc⟩ := enforce_of_not_readable hkill h traceId engineWritten log
      refine .inl ?_
      rw [liveEnforce_of_not_readable hkill h]
      simp only [written, hexc]

/-! ### What is in the log -/

lemma executionGateway_log (config : RuntimeConfig F) (traceId : String) (written : Bool)
    (input : EnforcementInput F) (log : List (LogRecord F)) :
    (executionGateway config traceId written input log).1
      = (enforce config traceId written input log).1 := by
  rw [executionGateway]
  split <;> simp only [*]

lemma replay_log (config : RuntimeConfig F) (newTraceId : String) (written : Bool)
    (traceId : String) (log : List (LogRecord F)) :
    (replay config newTraceId written traceId log).1 = log ∨
      ∃ input, (replay config newTraceId written traceId log).1
        = (enforce config newTraceId written input log).1 := by
  rw [replay]
  split
  · exact .inl rfl
  · cases log.find? fun record => record.traceId = traceId with
    | none => exact .inl rfl
    | some record =>
      refine .inr ⟨record.inputSnapshot, ?_⟩
      simp only [replayRecord]
      split <;> simp only [*]

/-- An invariant of the log that the lines of the engine and of the gateway keep. -/
lemma afterCall_invariant {P : List (LogRecord F) → Prop} {call : Call F} (hlog : P log)
    (hengine : ∀ log record, P log → record.Decided config →
      record.finalDecision = (actionFor config record.inputSnapshot).text → P (log ++ [record]))
    (hgateway : ∀ log record, P log → record.Decided config →
      (call.InOrder → record.finalDecision = "ALLOW" →
        ∃ earlier ∈ log, earlier.traceId = record.traceId) → P (log ++ [record])) :
    P (afterCall config log call) := by
  have henforce : ∀ traceId written input, P (enforce config traceId written input log).1 := by
    intro traceId written input
    obtain heq | ⟨record, hdecided, hfinal, heq⟩ := enforce_log config traceId written input log
    · rwa [heq]
    · rw [heq]
      exact hengine log record hlog hdecided hfinal
  cases call with
  | live id traceId engineWritten gatewayWritten payload =>
    obtain heq | ⟨lineId, hreadable, hearlier, heq⟩ :=
      liveEnforce_log config id traceId engineWritten gatewayWritten payload log
    · rw [afterCall, heq]
      exact henforce _ _ _
    · rw [afterCall, heq]
      cases hwritten : gatewayWritten with
      | false => exact henforce _ _ _
      | true =>
        refine hgateway _ _ (henforce _ _ _) ⟨hreadable, .inr rfl⟩ fun horder hallow => ?_
        refine hearlier (horder hwritten) fun hblock => ?_
        simp only [hblock] at hallow
        exact absurd hallow (by decide)
  | execution traceId written input =>
    rw [afterCall, executionGateway_log]
    exact henforce _ _ _
  | replay newTraceId written traceId =>
    obtain heq | ⟨input, heq⟩ := replay_log config newTraceId written traceId log
    · rwa [afterCall, heq]
    · rw [afterCall, heq]
      exact henforce _ _ _

/-- **What is logged was decided.** -/
theorem decided_of_run (config : RuntimeConfig F) (calls : List (Call F)) :
    ∀ record ∈ afterCalls config calls, record.Decided config := by
  have happend : ∀ (log : List (LogRecord F)) record, (∀ r ∈ log, r.Decided config) →
      record.Decided config → ∀ r ∈ log ++ [record], r.Decided config := by
    intro log record hlog hrecord r hr
    rcases List.mem_append.mp hr with hr | hr
    · exact hlog r hr
    · rwa [List.mem_singleton.mp hr]
  induction calls using List.reverseRecOn with
  | nil =>
    intro record hrecord
    cases hrecord
  | append_singleton calls call ih =>
    rw [afterCalls, List.foldl_append]
    exact afterCall_invariant ih (fun log record hlog hrecord _ => happend log record hlog hrecord)
      (fun log record hlog hrecord _ => happend log record hlog hrecord)

/-- The first line with a trace id is in the words of the engine. -/
def EngineFirst (log : List (LogRecord F)) : Prop :=
  ∀ traceId record, log.find? (fun r => r.traceId = traceId) = some record →
    record.finalDecision ≠ "ALLOW"

omit [LT F] [DecidableLT F] [OfScientific F] [Neg F] in
lemma EngineFirst.append {record : LogRecord F} (hlog : EngineFirst log)
    (h : record.finalDecision = "ALLOW" → ∃ earlier ∈ log, earlier.traceId = record.traceId) :
    EngineFirst (log ++ [record]) := by
  intro traceId r hr
  rw [List.find?_append] at hr
  cases hfind : log.find? fun r => r.traceId = traceId with
  | some first =>
    rw [hfind] at hr
    exact hlog traceId r (hfind.trans hr)
  | none =>
    rw [hfind, Option.none_or] at hr
    obtain rfl : r = record := by simpa using List.mem_of_find?_eq_some hr
    have hid : r.traceId = traceId := by simpa using List.find?_some hr
    intro hallow
    obtain ⟨earlier, hmem, heq⟩ := h hallow
    exact List.find?_eq_none.mp hfind earlier hmem (by simp [heq, hid])

lemma engineFirst_of_run (config : RuntimeConfig F) {calls : List (Call F)}
    (horder : ∀ call ∈ calls, call.InOrder) : EngineFirst (afterCalls config calls) := by
  induction calls using List.reverseRecOn with
  | nil =>
    intro traceId record hrecord
    cases hrecord
  | append_singleton calls call ih =>
    rw [afterCalls, List.foldl_append]
    refine afterCall_invariant (ih fun c hc => horder c (List.mem_append_left _ hc)) ?_ ?_
    · intro log record hlog _ hfinal
      refine hlog.append fun hallow => ?_
      rw [hfinal] at hallow
      cases haction : actionFor config record.inputSnapshot <;> rw [haction] at hallow <;>
        exact absurd hallow (by decide)
    · intro log record hlog _ hearlier
      have hcall := horder call (List.mem_append_right _ (List.mem_singleton_self _))
      exact hlog.append (hearlier hcall)

/-! ### Replay -/

lemma enforce_of_decided {record : LogRecord F} (h : record.Decided config) (traceId : String)
    (written : Bool) (log : List (LogRecord F)) :
    ∃ log' decision,
      enforce config traceId written record.inputSnapshot log = (log', .ok decision) ∧
        decision.decision = actionFor config record.inputSnapshot := by
  cases hkill : config.killSwitch with
  | true => exact ⟨_, _, enforce_of_killSwitch hkill _ _ _ _, (actionFor_of_on hkill _).symm⟩
  | false =>
    obtain ⟨results, guidance, -, heq⟩ :=
      enforce_of_readable hkill (h.readable hkill) traceId written log
    exact ⟨_, _, heq, (actionFor_of_off hkill _).symm⟩

/-- A replay matches unless the line is one of the gateway about a decision to execute. -/
lemma text_eq_iff {record : LogRecord F} (h : record.Decided config) :
    (actionFor config record.inputSnapshot).text = record.finalDecision ↔
      record.finalDecision ≠ "ALLOW" := by
  rcases h.decision with hdecision | hdecision <;> rw [hdecision] <;>
    cases actionFor config record.inputSnapshot <;> decide

lemma replay_of_find_none {traceId : String}
    (h : log.find? (fun record => record.traceId = traceId) = none) (newTraceId : String)
    (written : Bool) : ∃ exc, (replay config newTraceId written traceId log).2 = .error exc := by
  rw [replay]
  split
  · exact ⟨_, rfl⟩
  · rw [h]
    exact ⟨_, rfl⟩

lemma replay_of_find_some {traceId : String} {record : LogRecord F}
    (h : log.find? (fun record => record.traceId = traceId) = some record)
    (hdecided : record.Decided config) (newTraceId : String) (written : Bool) :
    (replay config newTraceId written traceId log).2 = .ok ⟨record.traceId, record.finalDecision,
      (actionFor config record.inputSnapshot).text,
      (actionFor config record.inputSnapshot).text = record.finalDecision⟩ := by
  have hne : log ≠ [] := List.ne_nil_of_mem (List.mem_of_find?_eq_some h)
  obtain ⟨log', decision, heq, hdecision⟩ := enforce_of_decided hdecided newTraceId written log
  rw [replay, if_neg hne, h]
  simp only [replayRecord, heq, hdecision]

/-- **Replay.**  After every run, under one configuration, of calls of the two gateways and of
replays, whatever lines could not be written, a replay of a trace id that is in the log never
raises, decides again on the input of the first line with that id, and says that the decision is
the same exactly if that line does not say `ALLOW`, the word of a gateway that logs what the engine
could not.  If the gateway never writes where the engine could not, every replay says so. -/
theorem replay_of_run (config : RuntimeConfig F) (calls : List (Call F))
    (newTraceId traceId : String) (written : Bool) :
    let log := afterCalls config calls
    (replay config newTraceId written traceId log).2.toBool = log.any (·.traceId = traceId) ∧
    ∀ result, (replay config newTraceId written traceId log).2 = .ok result →
      result.originalTraceId = traceId ∧
      (∃ record, log.find? (fun record => record.traceId = traceId) = some record ∧
        result.originalDecision = record.finalDecision ∧
        result.replayedDecision = (actionFor config record.inputSnapshot).text) ∧
      (result.deterministicMatch = true ↔ result.originalDecision ≠ "ALLOW") ∧
      ((∀ call ∈ calls, call.InOrder) → result.deterministicMatch = true) := by
  intro log
  cases hfind : log.find? fun record => record.traceId = traceId with
  | none =>
    obtain ⟨exc, hexc⟩ := replay_of_find_none hfind newTraceId written
    have hany : log.any (fun record => record.traceId = traceId) = false := by
      simpa using hfind
    rw [hexc, hany]
    refine ⟨rfl, fun result hresult => ?_⟩
    cases hresult
  | some record =>
    have hmem := List.mem_of_find?_eq_some hfind
    have hid : record.traceId = traceId := by simpa using List.find?_some hfind
    have hdecided := decided_of_run config calls record hmem
    have hany : log.any (fun record => record.traceId = traceId) = true :=
      List.any_eq_true.mpr ⟨record, hmem, by simpa using hid⟩
    have hmatch := text_eq_iff hdecided
    rw [replay_of_find_some hfind hdecided, hany]
    refine ⟨rfl, fun result hresult => ?_⟩
    cases hresult
    refine ⟨hid, ⟨record, rfl, rfl, rfl⟩, by simpa using hmatch, fun horder => ?_⟩
    have hfirst := engineFirst_of_run config horder traceId record hfind
    simpa using hmatch.mpr hfirst

end Enforcement

end QuantumFoundation
