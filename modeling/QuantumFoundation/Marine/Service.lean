import QuantumFoundation.Distributed.Service
import QuantumFoundation.Marine.Rejection

/-!
# The marine service

The execution service as `execution_interface.py` starts it: three nodes around marine engines with
the same two zones.  Whatever is requested, the zones are those that one engine has after reading
the payloads in order, up to the first malformed entry; that entry, and nothing else, halts the
service.
-/

namespace QuantumFoundation

variable {F : Type} [Add F] [LT F] [LE F] [OfScientific F] [DecidableLT F] [DecidableLE F]

namespace MarineService

/-- `_initial_zones`. -/
def initialZones : Dict String (ZoneState F) :=
  .ofList [("BOW_PORT", ⟨0.12, 1.05, 35.0, 0.05, 0.02⟩),
    ("MID_KEEL", ⟨0.24, 0.90, 42.5, 0.15, 0.10⟩)]

/-- The nodes and the hub of the module. -/
def start : ComputationProtocolHub (MarineStateEngine F) (Json F) :=
  ExecutionService.start ["Sector_A", "Sector_B", "Sector_C"] ⟨initialZones⟩

/-- The payloads of the requests that are no consensus checks. -/
def payloads (requests : List (ExecuteRequest (Json F))) : List (Json F) :=
  (requests.filter fun req => req.eventType ≠ "SYNC").map (·.payload)

variable (E : MarineEnv F)

/-- **Run lemma.**  One engine behind a counter: its zones, and whether it has stopped. -/
theorem answer_marine (lastId : String) {s : SequentialService (MarineStateEngine F)}
    (h : s.refusal = none) (requests : List (ExecuteRequest (Json F))) :
    let q := Run.answer (SequentialService.execute (marineAdapter E) lastId) s requests
    let r := payloadsReading E.numbers s.adapterState.zones.keys (payloads requests)
    q.1.adapterState = ⟨changed r.1 s.adapterState.zones⟩ ∧
      q.1.refusal.isSome = r.2.isSome := by
  induction requests generalizing s with
  | nil => simp [payloads, payloadsReading, h]
  | cons req requests ih =>
    rw [Run.answer_cons]
    by_cases hsync : req.eventType = "SYNC"
    · have hpayloads : payloads (req :: requests) = payloads requests := by
        rw [payloads, List.filter_cons_of_neg (by simpa using hsync)]
        rfl
      rw [SequentialService.execute, h, SequentialService.attempt, if_pos hsync, hpayloads]
      exact @ih ⟨s.adapterState, s.sequenced + 1, none⟩ rfl
    · have hpayloads : payloads (req :: requests) = req.payload :: payloads requests := by
        rw [payloads, List.filter_cons_of_pos (by simpa using hsync)]
        rfl
      rw [SequentialService.execute, h, SequentialService.attempt, if_neg hsync, hpayloads,
        MarineStateEngine.marineAdapter_applyEventPayload, payloadsReading]
      rcases payloadReading E.numbers s.adapterState.zones.keys req.payload with ⟨changes, _ | exc⟩
      · obtain ⟨hzones, hrefusal⟩ :=
          @ih ⟨⟨changed changes s.adapterState.zones⟩, s.sequenced + 1, none⟩ rfl
        rw [keys_changed] at hzones hrefusal
        refine ⟨hzones.trans ?_, hrefusal⟩
        rw [changed_append]
      · dsimp only [Option.map_some]
        rw [SequentialService.answer_of_refusal rfl]
        exact ⟨rfl, rfl⟩

/-- **The marine service.**  After every sequence of requests all three nodes have the zones that
the payloads make of the initial ones, up to the first malformed entry, and this is what the
metrics hash; the service is halted exactly if there is such an entry. -/
theorem zones_of_requests (O : SetOrder) (requests : List (ExecuteRequest (Json F))) :
    let hub := (Run.answer (ExecutionService.executeEvent (marineAdapter E) O) start requests).1
    let r := payloadsReading E.numbers ["BOW_PORT", "MID_KEEL"] (payloads requests)
    let engine : MarineStateEngine F := ⟨changed r.1 initialZones⟩
    hub.nodes.map (·.nodeId) = ["Sector_A", "Sector_B", "Sector_C"] ∧
      (∀ n ∈ hub.nodes, n.adapterState = engine) ∧
      (ExecutionService.getHubMetrics (marineAdapter E) O hub).globalStateHash
        = engine.getStateHash E ∧
      (ExecutionService.getHubMetrics (marineAdapter E) O hub).consensusVerified = true ∧
      hub.halted = r.2.isSome := by
  intro hub r engine
  let q := Run.answer (SequentialService.execute (marineAdapter E) "Sector_C")
    ⟨⟨initialZones⟩, 0, none⟩ requests
  have hserves : ExecutionService.Serves (["Sector_A", "Sector_B"] ++ ["Sector_C"]) hub q.1 :=
    (Run.answer_eq_of_simulation (R := ExecutionService.Serves _)
      (fun hub s req h => h.execute (A := marineAdapter E) (O := O) req)
      (ExecutionService.serves_start _ ⟨initialZones⟩) requests).1
  obtain ⟨hzones, hrefusal⟩ : q.1.adapterState = _ ∧ q.1.refusal.isSome = _ :=
    answer_marine E "Sector_C" rfl requests
  have hkeys : (initialZones (F := F)).keys = ["BOW_PORT", "MID_KEEL"] := rfl
  rw [hkeys] at hzones hrefusal
  have hmetrics := hserves.metrics (A := marineAdapter E) (O := O)
  refine ⟨hserves.nodeIds, fun n hn => (hserves.adapterState n hn).trans hzones, ?_, ?_,
    hserves.halted.trans hrefusal⟩
  · rw [hmetrics, SequentialService.metrics, hzones]
    rfl
  · rw [hmetrics, SequentialService.metrics]

end MarineService

end QuantumFoundation
