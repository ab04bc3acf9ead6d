import Mathlib.Data.List.DropRight
import QuantumFoundation.Physical.FailStop
import QuantumFoundation.Physical.LatencyTracking

/-!
# Observability

The collector of `observability.py` beside the hub it reports on, driven as in
`full_execution_trace.py`: after every submission that returns, the collector is told of the
batch, of its transitions, of the receipt and of the times.  What it reports is then what the hub
has done, whatever else happens to the hub in between.
-/

namespace QuantumFoundation

section Definitions

variable {F : Type*} [LT F] [LE F] [OfScientific F]

/-- A snapshot of the health of the system. -/
structure SystemMetrics (F : Type*) where
  totalTransitions : ℕ
  totalBatches : ℕ
  throughputTransitionsPerSec : F
  throughputBatchesPerSec : F
  avgLatencyMs : F
  p50LatencyMs : F
  p99LatencyMs : F
  maxLatencyMs : F
  totalConsensusChecks : ℕ
  divergenceCount : ℕ
  divergenceRate : F
  activeZones : ℕ
  globalStateHash : String
  batchChainHash : String
  totalNodes : ℕ
  consensusStatus : Bool
  capturedAtMonotonic : F

/-- What the collector keeps; the hub it reads is an argument of `collect`. -/
structure ObservabilityCollector (F : Type*) where
  latencyTracker : LatencyTracker F
  startTime : F
  divergenceCount : ℕ
  consensusChecks : ℕ
  /-- Like `batchTimes` a `deque` of at most a thousand times. -/
  transitionTimes : List F
  batchTimes : List F

/-- `append` of a `deque` with `maxlen=1000`. -/
def pushTime (times : List F) (now : F) : List F := (times ++ [now]).rtake 1000

omit [LT F] [LE F] [OfScientific F] in
lemma length_pushTime {times : List F} {now : F} {n : ℕ} (h : times.length = min 1000 n) :
    (pushTime times now).length = min 1000 (n + 1) := by
  rw [pushTime, List.rtake, List.length_drop, List.length_append, List.length_singleton]
  omega

namespace PhysicalExecutionHub

/-- `node_hashes` of `check_full_consensus`, keyed by node id. -/
def nodeHashes (E : FloatEnv F) (hub : PhysicalExecutionHub F) : Dict String String :=
  .ofList (hub.nodes.map fun n => (n.nodeId, n.executor.globalHash E))

/-- The verdict of `check_full_consensus`. -/
def checkFullConsensus (E : FloatEnv F) (hub : PhysicalExecutionHub F) : Bool :=
  decide ((hub.nodeHashes E).values.dedup.length ≤ 1)

end PhysicalExecutionHub

namespace ObservabilityCollector

/-- A collector that has seen nothing. -/
def new (now : F) : ObservabilityCollector F := ⟨.new, now, 0, 0, [], []⟩

/-- `on_transition`. -/
def onTransition (now : F) (c : ObservabilityCollector F) : ObservabilityCollector F :=
  { c with transitionTimes := pushTime c.transitionTimes now }

/-- `on_batch`. -/
def onBatch (now : F) (c : ObservabilityCollector F) : ObservabilityCollector F :=
  { c with batchTimes := pushTime c.batchTimes now }

/-- `on_receipt`. -/
def onReceipt (receipt : PhysicalExecutionReceipt F) (c : ObservabilityCollector F) :
    ObservabilityCollector F :=
  { c with
    consensusChecks := c.consensusChecks + 1
    divergenceCount :=
      if receipt.consensus = false then c.divergenceCount + 1 else c.divergenceCount }

/-- `record_latency`. -/
def recordLatency [Sub F] [Mul F] (causalId : ℤ) (proposalId : String)
    (submittedAt sequencedAt executedAt ackedAt : F) (c : ObservabilityCollector F) :
    ObservabilityCollector F :=
  { c with
    latencyTracker :=
      (((c.latencyTracker.recordSubmission causalId proposalId submittedAt).recordSequencing
        causalId sequencedAt).recordExecution causalId executedAt).recordAck causalId ackedAt }

/-- `collect`, at the time `now`.  Neither hub nor executor has a truth value of its own, so that
one which is there counts as true. -/
def collect [Add F] [Sub F] [Div F] [Zero F] [NatCast F] [DecidableLT F] [DecidableLE F]
    (E : FloatEnv F) (now : F) (hub : Option (PhysicalExecutionHub F))
    (executor : Option (MultiZoneExecutor F)) (c : ObservabilityCollector F) : SystemMetrics F :=
  let elapsed := if now - c.startTime < 0.001 then 0.001 else now - c.startTime
  let executor := executor.or (hub.bind fun hub => hub.nodes.head?.map (·.executor))
  let latStats := c.latencyTracker.getLatencyStats
  { totalTransitions := c.transitionTimes.length
    totalBatches := c.batchTimes.length
    throughputTransitionsPerSec := c.transitionTimes.length / elapsed
    throughputBatchesPerSec := c.batchTimes.length / elapsed
    avgLatencyMs := latStats.avgMs
    p50LatencyMs := latStats.p50Ms
    p99LatencyMs := latStats.p99Ms
    maxLatencyMs := latStats.maxMs
    totalConsensusChecks := c.consensusChecks
    divergenceCount := c.divergenceCount
    divergenceRate := if 0 < c.consensusChecks then c.divergenceCount / c.consensusChecks else 0.0
    activeZones := (executor.map fun x => x.state.zones.size).getD 0
    globalStateHash := (executor.map fun x => x.globalHash E).getD ""
    batchChainHash := (executor.map fun x => x.batchChainHash).getD ""
    totalNodes := (hub.map fun hub => hub.nodes.length).getD 0
    consensusStatus := (hub.map fun hub => hub.checkFullConsensus E).getD true
    capturedAtMonotonic := now }

end ObservabilityCollector

/-! ## The watched hub -/

/-- The clock readings around one submission. -/
structure SubmissionTimes (F : Type*) where
  batchAt : F
  transitionAt : ℕ → F
  submittedAt : F
  sequencedAt : F
  executedAt : F
  ackedAt : F

/-- A hub and the collector that is told of its submissions. -/
structure WatchedHub (F : Type*) [LT F] [LE F] [OfScientific F] where
  hub : PhysicalExecutionHub F
  collector : ObservabilityCollector F

/-- What happens to a watched hub. -/
inductive WatchedOp (F : Type*) [LT F] [LE F] [OfScientific F]
  | registerNode (node : PhysicalStateNode F)
  | releaseHeldEvents (nodeId : String)
  | submit (proposal : PhysicalProposal F) (delayNodes : List String) (times : SubmissionTimes F)

/-- What the hub is given to do. -/
def WatchedOp.action : WatchedOp F → PhysicalStateNode F ⊕ PhysicalHubOp F
  | .registerNode node => .inl node
  | .releaseHeldEvents nodeId => .inr (.releaseHeldEvents nodeId)
  | .submit proposal delayNodes _ => .inr (.submit proposal delayNodes)

namespace WatchedHub

/-- What the collector is told after a submission, as in `full_execution_trace.py`. -/
def report [Sub F] [Mul F] (proposal : PhysicalProposal F) (times : SubmissionTimes F)
    (receipt : PhysicalExecutionReceipt F) (c : ObservabilityCollector F) :
    ObservabilityCollector F :=
  let batch := c.onBatch times.batchAt
  let transitions := (List.range proposal.zoneTransitions.size).foldl
    (fun c i => c.onTransition (times.transitionAt i)) batch
  (transitions.onReceipt receipt).recordLatency receipt.event.causalId receipt.event.proposalId
    times.submittedAt times.sequencedAt times.executedAt times.ackedAt

variable [Sub F] [Mul F] [DecidableLT F] [DecidableLE F]

/-- A step of a watched hub. -/
def perform (E : FloatEnv F) (w : WatchedHub F) : WatchedOp F → WatchedHub F
  | .registerNode node => { w with hub := w.hub.registerNode node }
  | .releaseHeldEvents nodeId => { w with hub := (w.hub.releaseHeldEvents E nodeId).1 }
  | .submit proposal delayNodes times =>
    match w.hub.submit E proposal delayNodes with
    | (hub, .error _) => { w with hub := hub }
    | (hub, .ok receipt) => ⟨hub, report proposal times receipt w.collector⟩

end WatchedHub

end Definitions

/-! ## The books of the collector -/

section Books

variable {F : Type*} [LT F] [LE F] [OfScientific F]

/-- A proposal that parses has an input for each of its zones. -/
lemma PhysicalExecutionHub.keys_of_parseLoop [DecidableLT F] [DecidableLE F] {E : FloatEnv F}
    {l : List (String × ZoneData F)} {d d' : Dict String (ZoneInput F)}
    (h : parseLoop E l d = .ok d') (hnodup : (d.keys ++ l.map Prod.fst).Nodup) :
    d'.keys = d.keys ++ l.map Prod.fst := by
  induction l generalizing d with
  | nil =>
    obtain rfl := Except.ok.inj h
    exact (List.append_nil _).symm
  | cons p l ih =>
    rw [parseLoop] at h
    cases hp : parseZone E p.1 p.2 with
    | error exc => simp only [hp, reduceCtorEq] at h
    | ok inp =>
      simp only [hp] at h
      rw [List.map_cons, List.append_cons] at hnodup ⊢
      have hnew : p.1 ∉ d.keys := fun hmem =>
        (List.nodup_append.mp (List.nodup_append.mp hnodup).1).2.2 _ hmem _
          (List.mem_singleton_self _) rfl
      have hset : (d.set p.1 inp).keys = d.keys ++ [p.1] := by
        rw [Dict.set, dif_neg hnew, Dict.keys, Dict.push, List.map_append]
        rfl
      rw [← hset] at hnodup ⊢
      exact ih h hnodup

namespace PhysicalExecutionHub

variable [DecidableLT F] [DecidableLE F] {E : FloatEnv F} {hub hub' : PhysicalExecutionHub F}
  {proposal : PhysicalProposal F} {de : List String}

/-- A submission that returns has added its receipt, for an event with the zones of the
proposal. -/
lemma submit_ok {receipt : PhysicalExecutionReceipt F}
    (h : hub.submit E proposal de = (hub', .ok receipt)) :
    hub'.receipts = hub.receipts ++ [receipt] ∧
      receipt.event.zoneTransitions.size = proposal.zoneTransitions.size := by
  have hrunning : hub.halted = false := by
    by_contra hh
    obtain ⟨exc, hr⟩ : ∃ exc, hub.submit E proposal de = (hub, .error exc) :=
      submit_halted (by simpa using hh)
    exact absurd (congrArg Prod.snd (hr.symm.trans h)) (by simp)
  have hfresh : proposal.proposalId ∉ hub.seenProposals := fun hs => by
    rw [submit_seen hrunning hs] at h
    exact absurd (congrArg Prod.snd h) (by simp)
  rw [submit_fresh hrunning hfresh] at h
  cases hloop : parseLoop E proposal.zoneTransitions.entries .empty with
  | error exc =>
    rw [hloop] at h
    exact absurd (congrArg Prod.snd h) (by simp)
  | ok zoneTransitions =>
    rw [hloop] at h
    have hkeys : zoneTransitions.keys = proposal.zoneTransitions.keys :=
      keys_of_parseLoop hloop proposal.zoneTransitions.nodup
    obtain ⟨rfl, hreceipt⟩ := Prod.mk.inj h
    obtain rfl := Except.ok.inj hreceipt
    refine ⟨rfl, ?_⟩
    have hlength := congrArg List.length hkeys
    rwa [Dict.keys, Dict.keys, List.length_map, List.length_map] at hlength

/-- One that raises has added none. -/
lemma submit_error {exc : PyError} (h : hub.submit E proposal de = (hub', .error exc)) :
    hub'.receipts = hub.receipts := by
  rcases submit_cases (E := E) hub proposal de with
    ⟨-, seen, exc', hr⟩ | ⟨event, seen, receipt, -, -, -, -, hr⟩
  · obtain ⟨rfl, -⟩ := Prod.mk.inj (hr.symm.trans h)
    rfl
  · rw [hr] at h
    exact absurd (congrArg Prod.snd h) (by simp)

omit [DecidableLT F] [DecidableLE F] in
lemma releaseHeldEvents_receipts (nodeId : String) :
    (hub.releaseHeldEvents E nodeId).1.receipts = hub.receipts := by
  rw [releaseHeldEvents]
  split
  · rfl
  · cases hub.findNode nodeId <;> rfl

end PhysicalExecutionHub

omit [LT F] [LE F] in
/-- An event that is recorded adds its latency. -/
lemma ObservabilityCollector.recordLatency_latenciesMs [Sub F] [Mul F] (causalId : ℤ)
    (proposalId : String) (submittedAt sequencedAt executedAt ackedAt : F)
    (c : ObservabilityCollector F) :
    (c.recordLatency causalId proposalId submittedAt sequencedAt executedAt
        ackedAt).latencyTracker.latenciesMs
      = c.latencyTracker.latenciesMs ++ [(ackedAt - submittedAt) * 1000.0] := by
  simp only [recordLatency, LatencyTracker.recordSubmission, LatencyTracker.recordSequencing,
    LatencyTracker.recordExecution, LatencyTracker.recordAck, LatencyTracker.amend,
    Dict.get?_set_self, EventTimestamps.endToEndMs, Option.map_some, Option.toList_some]

namespace WatchedHub

/-- The collector has counted what the hub has recorded. -/
structure Booked (c : ObservabilityCollector F) (receipts : List (PhysicalExecutionReceipt F)) :
    Prop where
  checks : c.consensusChecks = receipts.length
  divergences : c.divergenceCount = receipts.countP (·.consensus = false)
  transitions : c.transitionTimes.length
    = min 1000 (receipts.map fun r => r.event.zoneTransitions.size).sum
  batches : c.batchTimes.length = min 1000 receipts.length
  latencies : c.latencyTracker.latenciesMs.length = receipts.length

variable {c : ObservabilityCollector F} {receipts : List (PhysicalExecutionReceipt F)}

lemma Booked.new (now : F) : Booked (.new now : ObservabilityCollector F) [] :=
  ⟨rfl, rfl, rfl, rfl, rfl⟩

omit [LT F] [LE F] [OfScientific F] in
/-- The transitions of a batch are counted one by one, and nothing else changes. -/
lemma foldl_onTransition (at' : ℕ → F) (m : ℕ) {n : ℕ}
    (h : c.transitionTimes.length = min 1000 n) :
    ∃ times, (List.range m).foldl (fun c i => c.onTransition (at' i)) c
      = { c with transitionTimes := times } ∧ times.length = min 1000 (n + m) := by
  induction m with
  | zero => exact ⟨c.transitionTimes, rfl, h⟩
  | succ m ih =>
    obtain ⟨times, htimes, hlength⟩ := ih
    rw [List.range_succ, List.foldl_append, htimes]
    exact ⟨pushTime times (at' m), rfl, length_pushTime hlength⟩

/-- **Step lemma.** -/
theorem Booked.report [Sub F] [Mul F] (h : Booked c receipts) {proposal : PhysicalProposal F}
    {receipt : PhysicalExecutionReceipt F}
    (hzones : receipt.event.zoneTransitions.size = proposal.zoneTransitions.size)
    (times : SubmissionTimes F) :
    Booked (report proposal times receipt c) (receipts ++ [receipt]) := by
  have hbefore : (c.onBatch times.batchAt).transitionTimes.length
      = min 1000 (receipts.map fun r => r.event.zoneTransitions.size).sum := by
    rw [ObservabilityCollector.onBatch]
    exact h.transitions
  obtain ⟨transitionTimes, htimes, hlength⟩ :=
    foldl_onTransition times.transitionAt proposal.zoneTransitions.size hbefore
  have hreport : WatchedHub.report proposal times receipt c = _ :=
    congrArg (fun c : ObservabilityCollector F => (c.onReceipt receipt).recordLatency
      receipt.event.causalId receipt.event.proposalId times.submittedAt times.sequencedAt
      times.executedAt times.ackedAt) htimes
  rw [hreport]
  have hlatencies := ObservabilityCollector.recordLatency_latenciesMs receipt.event.causalId
    receipt.event.proposalId times.submittedAt times.sequencedAt times.executedAt times.ackedAt
    (ObservabilityCollector.onReceipt receipt
      { c.onBatch times.batchAt with transitionTimes := transitionTimes })
  refine ⟨?_, ?_, ?_, ?_, ?_⟩
  · rw [List.length_append, List.length_singleton, ← h.checks]
    dsimp only [ObservabilityCollector.recordLatency, ObservabilityCollector.onReceipt,
      ObservabilityCollector.onBatch]
  · rw [List.countP_append, ← h.divergences, List.countP_singleton]
    dsimp only [ObservabilityCollector.recordLatency, ObservabilityCollector.onReceipt,
      ObservabilityCollector.onBatch]
    cases receipt.consensus <;> rfl
  · rw [List.map_append, List.sum_append, List.map_singleton, List.sum_singleton, hzones]
    dsimp only [ObservabilityCollector.recordLatency, ObservabilityCollector.onReceipt]
    exact hlength
  · rw [List.length_append, List.length_singleton]
    dsimp only [ObservabilityCollector.recordLatency, ObservabilityCollector.onReceipt,
      ObservabilityCollector.onBatch]
    exact length_pushTime h.batches
  · rw [hlatencies, List.length_append, List.length_append, ← h.latencies]
    rfl

variable [Sub F] [Mul F] [DecidableLT F] [DecidableLE F] {E : FloatEnv F} {w : WatchedHub F}

lemma Booked.perform (h : Booked w.collector w.hub.receipts) (op : WatchedOp F) :
    Booked (w.perform E op).collector (w.perform E op).hub.receipts := by
  cases op with
  | registerNode node => exact h
  | releaseHeldEvents nodeId =>
    rw [WatchedHub.perform, PhysicalExecutionHub.releaseHeldEvents_receipts]
    exact h
  | submit proposal delayNodes times =>
    rw [WatchedHub.perform]
    rcases hsubmit : w.hub.submit E proposal delayNodes with ⟨hub, exc | receipt⟩
    · rw [PhysicalExecutionHub.submit_error hsubmit]
      exact h
    · obtain ⟨hreceipts, hzones⟩ := PhysicalExecutionHub.submit_ok hsubmit
      rw [hreceipts]
      exact h.report hzones times

/-- The hub does what it would do unwatched. -/
lemma hub_exec (w : WatchedHub F) (ops : List (WatchedOp F)) :
    (Run.exec (perform E) w ops).hub
      = Run.exec (PhysicalExecutionHub.act E) w.hub (ops.map WatchedOp.action) := by
  induction ops generalizing w with
  | nil => rfl
  | cons op ops ih =>
    rw [Run.exec_cons, ih, List.map_cons, Run.exec_cons]
    congr 1
    cases op with
    | registerNode node => rfl
    | releaseHeldEvents nodeId => rfl
    | submit proposal delayNodes times =>
      rw [WatchedHub.perform]
      show _ = (w.hub.submit E proposal delayNodes).1
      rcases w.hub.submit E proposal delayNodes with ⟨hub, exc | receipt⟩ <;> rfl

end WatchedHub

end Books

/-! ## The metrics -/

section Metrics

variable {F : Type*} [Field F] [LinearOrder F] [IsStrictOrderedRing F] {E : FloatEnv F}

namespace LatencyTracker

/-- The statistics are in the order of their ranks, also if there is nothing to describe. -/
lemma stats_le (tracker : LatencyTracker F) :
    let s := tracker.getLatencyStats
    s.p50Ms ≤ s.p99Ms ∧ s.p99Ms ≤ s.maxMs ∧ s.avgMs ≤ s.maxMs := by
  intro s
  by_cases hne : tracker.latenciesMs = []
  · have hs : s = ⟨0, 0.0, 0.0, 0.0, 0.0, 0.0⟩ := if_pos hne
    rw [hs]
    exact ⟨le_rfl, le_rfl, le_rfl⟩
  · have h : Describes tracker.latenciesMs s := describes_getLatencyStats hne
    exact ⟨h.p50Ms_le_p99Ms, h.maxMs.2 _ h.p99Ms.1, h.avgMs.2.2⟩

end LatencyTracker

omit [IsStrictOrderedRing F] in
/-- With distinct node ids the verdict is about all nodes. -/
lemma PhysicalExecutionHub.checkFullConsensus_iff {hub : PhysicalExecutionHub F}
    (h : (hub.nodes.map (·.nodeId)).Nodup) : hub.checkFullConsensus E = true ↔
      Run.Agree (fun n : PhysicalStateNode F => n.executor.globalHash E) hub.nodes := by
  have hids :
      ((hub.nodes.map fun n => (n.nodeId, n.executor.globalHash E)).map Prod.fst).Nodup := by
    rwa [List.map_map]
  rw [checkFullConsensus, decide_eq_true_iff, nodeHashes, Dict.values_ofList hids,
    length_dedup_le_one_iff, List.map_map, Run.Agree]
  simp only [List.forall_mem_map]
  rfl

/-- If only the last member can be one, there is at most one. -/
lemma countP_le_one {α : Type*} {p : α → Bool} {l : List α}
    (h : ∀ a ∈ l.dropLast, ¬p a = true) : l.countP p ≤ 1 := by
  rcases List.eq_nil_or_concat l with rfl | ⟨l, a, rfl⟩
  · exact Nat.zero_le 1
  · rw [List.concat_eq_append, List.dropLast_concat] at *
    rw [List.countP_append, List.countP_eq_zero.mpr h, Nat.zero_add]
    exact List.countP_le_length

/-- The share of `k` among `n`, which is zero where there is nothing to share. -/
lemma rate_spec {k n : ℕ} (h : k ≤ n) : let rate : F := if 0 < n then k / n else 0.0
    rate * n = k ∧ 0 ≤ rate ∧ rate ≤ 1 := by
  intro rate
  rcases Nat.eq_zero_or_pos n with rfl | hn
  · obtain rfl := Nat.le_zero.mp h
    have hrate : rate = 0 := (if_neg (lt_irrefl 0)).trans (by norm_num)
    rw [hrate]
    exact ⟨by rw [zero_mul, Nat.cast_zero], le_rfl, zero_le_one⟩
  · have hrate : rate = k / n := if_pos hn
    have hpos : (0 : F) < n := Nat.cast_pos.mpr hn
    rw [hrate]
    exact ⟨div_mul_cancel₀ _ hpos.ne', div_nonneg (Nat.cast_nonneg k) hpos.le,
      (div_le_one hpos).mpr (Nat.cast_le.mpr h)⟩

namespace WatchedHub

/-- **The metrics are those of the hub.**  Whatever was submitted, held back, released and
registered while the collector watched: it has checked one receipt for every event of the log, and
counted as divergent those without consensus, which is at most one, and then the hub is halted, if
the hub halts on divergence; the rate is their share; a batch and its zones are counted up to the
thousand that are kept; every event has a latency, and the statistics are in order; and with
distinct node ids the status says whether all nodes have the same state hash. -/
theorem metrics_of_run (E : FloatEnv F) (hr hd : Bool) (t now : F) (ops : List (WatchedOp F)) :
    let w := Run.exec (perform E) ⟨.new hr hd, .new t⟩ ops
    let m := w.collector.collect E now (some w.hub) none
    m.totalConsensusChecks = w.hub.eventLog.length ∧
      m.divergenceCount = w.hub.receipts.countP (·.consensus = false) ∧
      (hd = true → m.divergenceCount ≤ 1 ∧ (m.divergenceCount = 1 → w.hub.halted = true)) ∧
      m.divergenceRate * m.totalConsensusChecks = m.divergenceCount ∧
      0 ≤ m.divergenceRate ∧ m.divergenceRate ≤ 1 ∧
      m.totalBatches = min 1000 w.hub.eventLog.length ∧
      m.totalTransitions = min 1000 (w.hub.eventLog.map (·.zoneTransitions.size)).sum ∧
      w.collector.latencyTracker.latenciesMs.length = w.hub.eventLog.length ∧
      m.p50LatencyMs ≤ m.p99LatencyMs ∧ m.p99LatencyMs ≤ m.maxLatencyMs ∧
      m.avgLatencyMs ≤ m.maxLatencyMs ∧
      ((w.hub.nodes.map (·.nodeId)).Nodup → (m.consensusStatus = true ↔
        Run.Agree (fun n : PhysicalStateNode F => n.executor.globalHash E) w.hub.nodes)) := by
  intro w m
  have hb : Booked w.collector w.hub.receipts :=
    Run.invariant_of_forall (I := fun w : WatchedHub F => Booked w.collector w.hub.receipts)
      (fun _ op h => h.perform op) (.new t) ops
  obtain ⟨hstop, -, hflag⟩ : w.hub.FailStop ∧ w.hub.haltOnRejection = hr ∧
      w.hub.haltOnDivergence = hd := by
    rw [hub_exec]
    exact PhysicalExecutionHub.failStop_exec E hr hd (ops.map WatchedOp.action)
  have hlog : w.hub.receipts.length = w.hub.eventLog.length := by
    rw [← hstop.events, List.length_map]
  have hcount : m.divergenceCount ≤ m.totalConsensusChecks := by
    show w.collector.divergenceCount ≤ w.collector.consensusChecks
    rw [hb.divergences, hb.checks]
    exact List.countP_le_length
  obtain ⟨hrate, hnonneg, hle⟩ := rate_spec (F := F) hcount
  obtain ⟨h50, h99, havg⟩ := w.collector.latencyTracker.stats_le
  refine ⟨hb.checks.trans hlog, hb.divergences, fun hhalts => ?_, hrate, hnonneg, hle,
    hb.batches.trans (by rw [hlog]), ?_, hb.latencies.trans hlog, h50, h99, havg,
    PhysicalExecutionHub.checkFullConsensus_iff⟩
  · show w.collector.divergenceCount ≤ 1 ∧ (w.collector.divergenceCount = 1 → _)
    rw [hb.divergences]
    cases hh : w.hub.halted with
    | false =>
      rw [List.countP_eq_zero.mpr fun r hr => ?_]
      · exact ⟨Nat.zero_le 1, fun h => absurd h Nat.zero_ne_one⟩
      · simpa using ((hstop.running hh).2 r hr).2 (hflag.trans hhalts)
    | true =>
      refine ⟨countP_le_one fun r hr => ?_, fun _ => rfl⟩
      simpa using ((hstop.halted hh).2 r hr).2 (hflag.trans hhalts)
  · refine hb.transitions.trans ?_
    rw [← hstop.events, List.map_map]
    rfl

end WatchedHub

end Metrics

namespace WatchedHub

/-- One reading of the clock after the other. -/
def ticks : SubmissionTimes ℚ := ⟨1, fun i => i, 0, 1, 2, 3⟩

/-- A proposal that is sent twice, once while the second node is delayed. -/
def twoNodesWatched : List (WatchedOp ℚ) :=
  [.registerNode (.new exactEnv "A" MultiZoneExecutor.bowAndStern.state),
    .registerNode (.new exactEnv "B" MultiZoneExecutor.bowAndStern.state),
    .submit (PhysicalExecutionHub.restingProposal "p1") ["B"] ticks,
    .submit (PhysicalExecutionHub.restingProposal "p1") [] ticks, .releaseHeldEvents "B"]

theorem metrics_of_two_nodes :
    let w := Run.exec (perform exactEnv) ⟨.new true true, .new 0⟩ twoNodesWatched
    let m := w.collector.collect exactEnv 10 (some w.hub) none
    w.hub.eventLog.length = 1 ∧ m.totalConsensusChecks = 1 ∧
      m.divergenceRate * m.totalConsensusChecks = m.divergenceCount ∧
      m.p99LatencyMs ≤ m.maxLatencyMs := by
  intro w m
  obtain ⟨hchecks, -, -, hrate, -, -, -, -, -, -, h99, -⟩ :=
    metrics_of_run exactEnv true true 0 10 twoNodesWatched
  have hlog : w.hub.eventLog.length = 1 := by decide +kernel
  exact ⟨hlog, hchecks.trans hlog, hrate, h99⟩

end WatchedHub

end QuantumFoundation
