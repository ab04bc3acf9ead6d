import Mathlib.Algebra.Order.Ring.Rat
import Mathlib.Data.Rat.Cast.OfScientific
import Mathlib.Tactic.NormNum
import QuantumFoundation.Lib.Dict
import QuantumFoundation.Lib.OrderStatistics
import QuantumFoundation.Lib.Run

/-!
# Latency tracking

The tracker of `latency_ordering.py`: for every causal id the advisory timestamps of its event,
and the end-to-end latencies that the acknowledgements of known events gave.  A submission starts
the entry of its id afresh; the other calls complete the entry there is, or do nothing.  So each
latency runs from the last submission before the acknowledgement, and the statistics are ranks
and the mean of these latencies.
-/

namespace QuantumFoundation

section Definitions

variable {F : Type*}

/-- The timestamps of an event. -/
structure EventTimestamps (F : Type*) where
  causalId : ℤ
  proposalId : String
  submittedAt : F
  sequencedAt : F
  executedAt : Option F
  ackedAt : Option F
deriving DecidableEq

/-- `end_to_end_ms`. -/
def EventTimestamps.endToEndMs [Sub F] [Mul F] [OfScientific F] (ts : EventTimestamps F) :
    Option F :=
  ts.ackedAt.map fun ackedAt => (ackedAt - ts.submittedAt) * 1000.0

/-- What `get_latency_stats` returns. -/
structure LatencyStats (F : Type*) where
  count : ℕ
  avgMs : F
  minMs : F
  maxMs : F
  p50Ms : F
  p99Ms : F
deriving DecidableEq

/-- The tracker. -/
structure LatencyTracker (F : Type*) where
  timestamps : Dict ℤ (EventTimestamps F)
  latenciesMs : List F

namespace LatencyTracker

/-- A tracker that has seen nothing. -/
def new : LatencyTracker F := ⟨.empty, []⟩

/-- `record_submission`. -/
def recordSubmission [OfScientific F] (causalId : ℤ) (proposalId : String) (submittedAt : F)
    (tracker : LatencyTracker F) : LatencyTracker F :=
  { tracker with
    timestamps :=
      tracker.timestamps.set causalId ⟨causalId, proposalId, submittedAt, 0.0, none, none⟩ }

/-- The entry of an id, if there is one, is replaced. -/
def amend (causalId : ℤ) (f : EventTimestamps F → EventTimestamps F)
    (tracker : LatencyTracker F) : LatencyTracker F :=
  match tracker.timestamps.get? causalId with
  | none => tracker
  | some old => { tracker with timestamps := tracker.timestamps.set causalId (f old) }

/-- `record_sequencing`. -/
def recordSequencing (causalId : ℤ) (sequencedAt : F) : LatencyTracker F → LatencyTracker F :=
  amend causalId fun old => { old with sequencedAt := sequencedAt }

/-- `record_execution`. -/
def recordExecution (causalId : ℤ) (executedAt : F) : LatencyTracker F → LatencyTracker F :=
  amend causalId fun old => { old with executedAt := some executedAt }

/-- `record_ack`. -/
def recordAck [Sub F] [Mul F] [OfScientific F] (causalId : ℤ) (ackedAt : F)
    (tracker : LatencyTracker F) : LatencyTracker F :=
  match tracker.timestamps.get? causalId with
  | none => tracker
  | some old =>
    let ts := { old with ackedAt := some ackedAt }
    { timestamps := tracker.timestamps.set causalId ts
      latenciesMs := tracker.latenciesMs ++ ts.endToEndMs.toList }

/-- `get_timestamps`. -/
def getTimestamps (causalId : ℤ) (tracker : LatencyTracker F) : Option (EventTimestamps F) :=
  tracker.timestamps.get? causalId

/-- `get_latency_stats`.  The index `int(n * 0.99)` is the quotient of `99 * n` by `100`. -/
def getLatencyStats [Add F] [Div F] [Zero F] [NatCast F] [LE F] [DecidableLE F] [OfScientific F]
    (tracker : LatencyTracker F) : LatencyStats F :=
  if tracker.latenciesMs = [] then ⟨0, 0.0, 0.0, 0.0, 0.0, 0.0⟩
  else
    let sorted := tracker.latenciesMs.insertionSort (· ≤ ·)
    let n := sorted.length
    { count := n
      avgMs := sorted.sum / n
      minMs := sorted[0]?.getD 0.0
      maxMs := sorted[n - 1]?.getD 0.0
      p50Ms := sorted[n / 2]?.getD 0.0
      p99Ms := sorted[min (n * 99 / 100) (n - 1)]?.getD 0.0 }

end LatencyTracker

/-- A call of the tracker. -/
inductive LatencyCall (F : Type*)
  | recordSubmission (causalId : ℤ) (proposalId : String) (submittedAt : F)
  | recordSequencing (causalId : ℤ) (sequencedAt : F)
  | recordExecution (causalId : ℤ) (executedAt : F)
  | recordAck (causalId : ℤ) (ackedAt : F)

/-- The tracker after a call. -/
def LatencyTracker.perform [Sub F] [Mul F] [OfScientific F] (tracker : LatencyTracker F) :
    LatencyCall F → LatencyTracker F
  | .recordSubmission causalId proposalId t => tracker.recordSubmission causalId proposalId t
  | .recordSequencing causalId t => tracker.recordSequencing causalId t
  | .recordExecution causalId t => tracker.recordExecution causalId t
  | .recordAck causalId t => tracker.recordAck causalId t

end Definitions

/-! ## What the tracker is for -/

section Spec

variable {F : Type*}

/-- The time of the last submission of an id, among calls from the newest to the oldest. -/
def lastSubmission (causalId : ℤ) : List (LatencyCall F) → Option F
  | [] => none
  | .recordSubmission id _ t :: earlier =>
    if id = causalId then some t else lastSubmission causalId earlier
  | _ :: earlier => lastSubmission causalId earlier

/-- The time in milliseconds from the last submission before it to each acknowledgement of an id
that was submitted, for calls from the newest to the oldest. -/
def measured [Sub F] [Mul F] [OfScientific F] : List (LatencyCall F) → List F
  | [] => []
  | .recordAck causalId ackedAt :: earlier =>
    measured earlier ++
      ((lastSubmission causalId earlier).map fun t => (ackedAt - t) * 1000.0).toList
  | _ :: earlier => measured earlier

end Spec

namespace LatencyTracker

section Tracks

variable {F : Type*} [Sub F] [Mul F] [OfScientific F]

/-- What the tracker holds of the calls so far, from the newest to the oldest. -/
structure Tracks (calls : List (LatencyCall F)) (tracker : LatencyTracker F) : Prop where
  submittedAt : ∀ k, (tracker.timestamps.get? k).map (·.submittedAt) = lastSubmission k calls
  causalId : ∀ k ts, tracker.timestamps.get? k = some ts → ts.causalId = k
  latencies : tracker.latenciesMs = measured calls

variable {calls : List (LatencyCall F)} {tracker : LatencyTracker F}

omit [Sub F] [Mul F] [OfScientific F] in
/-- Completing an entry leaves what it does not change as it is. -/
lemma get?_amend {causalId : ℤ} {f : EventTimestamps F → EventTimestamps F}
    {β : Type*} {g : EventTimestamps F → β} (hf : ∀ ts, g (f ts) = g ts) (k : ℤ) :
    ((tracker.amend causalId f).timestamps.get? k).map g = (tracker.timestamps.get? k).map g := by
  rw [amend]
  cases hget : tracker.timestamps.get? causalId with
  | none => rfl
  | some old =>
    dsimp only
    rw [Dict.get?_set]
    split
    · next hk => rw [hk, hget, Option.map_some, Option.map_some, hf]
    · rfl

lemma Tracks.amend (h : Tracks calls tracker) (causalId : ℤ)
    {f : EventTimestamps F → EventTimestamps F} (hid : ∀ ts, (f ts).causalId = ts.causalId)
    (hsubmitted : ∀ ts, (f ts).submittedAt = ts.submittedAt) :
    Tracks calls (tracker.amend causalId f) where
  submittedAt k := by rw [get?_amend hsubmitted, h.submittedAt]
  causalId k ts hts := by
    have hmap : ((tracker.amend causalId f).timestamps.get? k).map _ = _ := get?_amend hid k
    rw [hts, Option.map_some] at hmap
    obtain ⟨old, hold, heq⟩ := Option.map_eq_some_iff.mp hmap.symm
    exact heq.symm.trans (h.causalId k old hold)
  latencies := by
    rw [← h.latencies, LatencyTracker.amend]
    cases tracker.timestamps.get? causalId <;> rfl

/-- **Step lemma.** -/
theorem Tracks.perform (h : Tracks calls tracker) (call : LatencyCall F) :
    Tracks (call :: calls) (tracker.perform call) := by
  cases call with
  | recordSubmission causalId proposalId t =>
    refine ⟨fun k => ?_, fun k ts hts => ?_, h.latencies⟩
    · rw [LatencyTracker.perform, recordSubmission, lastSubmission, Dict.get?_set]
      split
      · next hk => rw [if_pos hk.symm, Option.map_some]
      · next hk => rw [if_neg (Ne.symm hk), h.submittedAt]
    · rw [LatencyTracker.perform, recordSubmission, Dict.get?_set] at hts
      split at hts
      · next hk => rw [← Option.some.inj hts, hk]
      · exact h.causalId k ts hts
  | recordSequencing causalId t =>
    have hnext := h.amend causalId (f := fun old => { old with sequencedAt := t })
      (fun _ => rfl) fun _ => rfl
    exact ⟨hnext.submittedAt, hnext.causalId, hnext.latencies⟩
  | recordExecution causalId t =>
    have hnext := h.amend causalId (f := fun old => { old with executedAt := some t })
      (fun _ => rfl) fun _ => rfl
    exact ⟨hnext.submittedAt, hnext.causalId, hnext.latencies⟩
  | recordAck causalId t =>
    have hnext := h.amend causalId (f := fun old => { old with ackedAt := some t })
      (fun _ => rfl) fun _ => rfl
    have hentries : (tracker.recordAck causalId t).timestamps
        = (tracker.amend causalId fun old => { old with ackedAt := some t }).timestamps := by
      rw [recordAck, LatencyTracker.amend]
      cases tracker.timestamps.get? causalId <;> rfl
    refine ⟨fun k => ?_, fun k ts hts => ?_, ?_⟩
    · rw [LatencyTracker.perform, hentries]
      exact hnext.submittedAt k
    · rw [LatencyTracker.perform, hentries] at hts
      exact hnext.causalId k ts hts
    · rw [LatencyTracker.perform, recordAck, measured, ← h.submittedAt, ← h.latencies]
      cases tracker.timestamps.get? causalId with
      | none => exact (List.append_nil _).symm
      | some old => rfl

lemma tracks_exec (calls : List (LatencyCall F)) :
    Tracks calls.reverse (Run.exec LatencyTracker.perform new calls) := by
  refine Run.history_invariant (I := fun history tracker => Tracks history.reverse tracker)
    ⟨fun _ => rfl, fun k ts hts => ?_, rfl⟩ (fun history call tracker h => ?_) calls
  · rw [new, Dict.get?_empty] at hts
    exact absurd hts.symm (Option.some_ne_none ts)
  · rw [List.reverse_append]
    exact h.perform call

end Tracks

/-! ## The statistics -/

section Statistics

variable {F : Type*} [Field F] [LinearOrder F] [IsStrictOrderedRing F]

/-- What the statistics of some latencies say about them. -/
structure Describes (latencies : List F) (s : LatencyStats F) : Prop where
  count : s.count = latencies.length
  minMs : s.minMs ∈ latencies ∧ ∀ x ∈ latencies, s.minMs ≤ x
  maxMs : s.maxMs ∈ latencies ∧ ∀ x ∈ latencies, x ≤ s.maxMs
  avgMs : s.avgMs * s.count = latencies.sum ∧ s.minMs ≤ s.avgMs ∧ s.avgMs ≤ s.maxMs
  /-- The median: more than half of the latencies rounded down lie at or below it, and at least
  half of them at or above it. -/
  p50Ms : s.p50Ms ∈ latencies ∧ s.count / 2 < latencies.countP (· ≤ s.p50Ms) ∧
    s.count ≤ 2 * latencies.countP (s.p50Ms ≤ ·)
  p99Ms : s.p99Ms ∈ latencies ∧ 99 * s.count ≤ 100 * latencies.countP (· ≤ s.p99Ms)
  p50Ms_le_p99Ms : s.p50Ms ≤ s.p99Ms

lemma describes_getLatencyStats {tracker : LatencyTracker F} (h : tracker.latenciesMs ≠ []) :
    Describes tracker.latenciesMs tracker.getLatencyStats := by
  have hpos : 0 < tracker.latenciesMs.length := List.length_pos_iff.mpr h
  obtain ⟨a, ha⟩ := exists_hasRank hpos
  obtain ⟨b, hb⟩ := exists_hasRank (Nat.sub_lt hpos Nat.one_pos)
  obtain ⟨c, hc⟩ := exists_hasRank (Nat.div_lt_self hpos Nat.one_lt_two)
  have hlt : min (tracker.latenciesMs.length * 99 / 100) (tracker.latenciesMs.length - 1)
      < tracker.latenciesMs.length := by omega
  obtain ⟨d, hd⟩ := exists_hasRank hlt
  have hsum : (tracker.latenciesMs.insertionSort (· ≤ ·)).sum = tracker.latenciesMs.sum :=
    (List.perm_insertionSort _ _).sum_eq
  have hstats : tracker.getLatencyStats = ⟨tracker.latenciesMs.length,
      tracker.latenciesMs.sum / tracker.latenciesMs.length, a, b, c, d⟩ := by
    rw [getLatencyStats, if_neg h]
    simp only [List.length_insertionSort]
    rw [hsum, ha, hb, hc, hd]
    rfl
  have hne : (tracker.latenciesMs.length : F) ≠ 0 := Nat.cast_ne_zero.mpr hpos.ne'
  rw [hstats]
  refine ⟨rfl, ⟨ha.mem, fun x => ha.le_of_mem⟩, ⟨hb.mem, fun x => hb.ge_of_mem⟩, ⟨?_, ?_, ?_⟩,
    ⟨hc.mem, hc.lt_countP_le, ?_⟩, ⟨hd.mem, ?_⟩, hc.mono hd ?_⟩
  · exact div_mul_cancel₀ _ hne
  · exact le_mean h fun x => ha.le_of_mem
  · exact mean_le h fun x => hb.ge_of_mem
  · have := hc.length_le_countP_ge
    dsimp only
    omega
  · have := hd.lt_countP_le
    dsimp only
    omega
  · omega

/-- **The statistics describe the measurements.**  After every run of the tracker, with any ids in
any order: its latencies are the times from the last submission to each acknowledgement of a
submitted id; if there are any, the statistics are their extremes, their mean, and elements with
half and with ninety-nine percent of them below; and they depend on the order of the latencies
in no way. -/
theorem statistics_of_measured (calls : List (LatencyCall F)) :
    let tracker := Run.exec LatencyTracker.perform new calls
    tracker.latenciesMs = measured calls.reverse ∧
      (measured calls.reverse ≠ [] → Describes (measured calls.reverse) tracker.getLatencyStats) ∧
      ∀ other : LatencyTracker F, other.latenciesMs.Perm tracker.latenciesMs →
        other.getLatencyStats = tracker.getLatencyStats := by
  intro tracker
  have hlatencies : tracker.latenciesMs = measured calls.reverse := (tracks_exec calls).latencies
  refine ⟨hlatencies, fun hne => ?_, fun other hperm => ?_⟩
  · rw [← hlatencies] at hne ⊢
    exact describes_getLatencyStats hne
  · have hsorted : other.latenciesMs.insertionSort (· ≤ ·)
        = tracker.latenciesMs.insertionSort (· ≤ ·) := insertionSort_eq_of_perm hperm
    have hnil : other.latenciesMs = [] ↔ tracker.latenciesMs = [] := by
      rw [← List.length_eq_zero_iff, hperm.length_eq, List.length_eq_zero_iff]
    rw [getLatencyStats, getLatencyStats, hsorted]
    simp only [hnil]

end Statistics

/-- An event that is submitted twice before it is acknowledged, an unknown one, and a slow one. -/
def threeEvents : List (LatencyCall ℚ) :=
  [.recordSubmission 1 "a" 0, .recordSubmission 1 "a" 1, .recordAck 1 3, .recordAck 7 4,
    .recordSubmission 2 "b" 4, .recordSequencing 2 5, .recordAck 2 9]

theorem statistics_of_three_events :
    let tracker := Run.exec LatencyTracker.perform new threeEvents
    tracker.latenciesMs = [2000, 5000] ∧ Describes [2000, 5000] tracker.getLatencyStats := by
  intro tracker
  obtain ⟨hlatencies, hdescribes, -⟩ := statistics_of_measured threeEvents
  have hmeasured : measured threeEvents.reverse = [2000, 5000] := by
    simp only [threeEvents, List.reverse_cons, List.reverse_nil, List.nil_append, List.cons_append,
      measured, lastSubmission]
    norm_num
  rw [hmeasured] at hlatencies hdescribes
  exact ⟨hlatencies, hdescribes (List.cons_ne_nil _ _)⟩

end LatencyTracker

end QuantumFoundation
