import QuantumFoundation.Distributed.Convergence
import QuantumFoundation.Distributed.InvariantCheck

/-!
# Enforcement

In enforcement mode the checker of `distributed_invariant_check.py` halts the hub when its check
fails.  Checks may come between any operations.  A failed check is final: nothing is sequenced or
released any more (`frozen_exec`), although reconciliation still replays.  A pass of the
reconciliation engine before the check repairs what can be repaired without the hub: that is
everything, unless an event waits somewhere that the most advanced node has not committed, or the
state of that node fails its own invariants (`enforcement_after_recovery`).
-/

namespace QuantumFoundation

variable {S P : Type*}

/-- A hub with its checker. -/
structure EnforcedHub (S P : Type*) where
  hub : ComputationProtocolHub S P
  /-- The text that the last halt by the checker wrote to `_halt_reason`.  The hub writes no reason
  of its own afterwards, for it refuses the operations that might. -/
  checkerReason : Option String
  /-- `_check_history`. -/
  checkHistory : List GlobalInvariantReport

/-- An operation of the system, or a check. -/
inductive EnforcedOp (P : Type*)
  | operate (op : HubOp P)
  | check

/-- The operation submits no `SYNC`. -/
def EnforcedOp.SyncFree : EnforcedOp P → Prop
  | operate op => op.SyncFree
  | check => True

instance EnforcedOp.decidableSyncFree : DecidablePred (EnforcedOp.SyncFree (P := P))
  | .operate op => inferInstanceAs (Decidable op.SyncFree)
  | .check => .isTrue trivial

namespace EnforcedHub

variable (A : Adapter S P) (V : VerifyAllInvariants S) (O : SetOrder)

/-- `halt_reason` of the hub. -/
def haltReason (e : EnforcedHub S P) : Option String :=
  e.checkerReason.or (e.hub.haltReason.map HaltReason.text)

/-- `run_full_check`, with the note in the history. -/
def runFullCheck (e : EnforcedHub S P) : EnforcedHub S P × GlobalInvariantReport :=
  let report := DistributedInvariantChecker.runFullCheck A V O e.hub
  ({ e with checkHistory := e.checkHistory ++ [report] }, report)

/-- The reason for a halt that follows a report. -/
def haltText (report : GlobalInvariantReport) : String :=
  "DistributedInvariantChecker: " ++ " | ".intercalate report.haltReasons

/-- `run_and_halt_if_failed`. -/
def runAndHaltIfFailed (e : EnforcedHub S P) : EnforcedHub S P × GlobalInvariantReport :=
  match e.runFullCheck A V O with
  | (e', report) =>
    if report.systemShouldHalt then
      ({ e' with
          hub := { e'.hub with halted := true }
          checkerReason := some (haltText report) }, report)
    else (e', report)

/-- One operation or check. -/
def perform (e : EnforcedHub S P) : EnforcedOp P → EnforcedHub S P
  | .operate op => { e with hub := ComputationProtocolHub.perform A O e.hub op }
  | .check => (e.runAndHaltIfFailed A V O).1

/-- A hub with fresh nodes and a checker that has not checked yet. -/
def start (haltOnRejection haltOnDivergence : Bool) (members : List (String × S)) :
    EnforcedHub S P where
  hub := .withNodes haltOnRejection haltOnDivergence members
  checkerReason := none
  checkHistory := []

end EnforcedHub

variable {A : Adapter S P} {V : VerifyAllInvariants S} {O : SetOrder}

/-! ### A failed check is final -/

namespace DistributedInvariantChecker

/-- The check asks for a halt exactly if its report is not clean. -/
lemma systemShouldHalt_eq (hub : ComputationProtocolHub S P) :
    (runFullCheck A V O hub).systemShouldHalt = !(runFullCheck A V O hub).clean := by
  cases hclean : (runFullCheck A V O hub).clean with
  | true =>
    rw [GlobalInvariantReport.clean, Bool.and_eq_true, Bool.not_eq_true'] at hclean
    exact hclean.2
  | false =>
    by_contra hgo
    rw [Bool.not_false, Bool.not_eq_true] at hgo
    -- without a reason to halt, every node is fine and the filed hashes are the same
    have hnil : (runFullCheck A V O hub).haltReasons = [] := by
      rw [runFullCheck, Bool.not_eq_false'] at hgo
      exact List.isEmpty_iff.mp hgo
    obtain ⟨hreasons, hdivergence⟩ := List.append_eq_nil_iff.mp hnil
    have hnodes : ∀ n ∈ hub.nodes, localFailed V A n = [] ∧ n.isPartial = false := fun n hn =>
      nodeReasons_eq_nil.mp (List.flatMap_eq_nil_iff.mp hreasons n hn)
    have hconsensus : (runFullCheck A V O hub).globalConsensus = true := by
      by_contra hno
      rw [runFullCheck] at hno
      rw [if_neg hno] at hdivergence
      exact List.cons_ne_nil _ _ hdivergence
    have hlocal : (runFullCheck A V O hub).allLocalPassed = true := by
      refine List.all_eq_true.mpr fun r hr => ?_
      obtain ⟨n, hn, rfl⟩ := List.mem_map.mp (List.mem_filter.mp hr).1
      obtain ⟨hfailed, hpartial⟩ := hnodes n hn
      rw [NodeInvariantResult.ok, Bool.and_eq_true, Bool.not_eq_true']
      exact ⟨List.isEmpty_iff.mpr hfailed, hpartial⟩
    rw [GlobalInvariantReport.clean, hconsensus, hlocal, hgo] at hclean
    exact Bool.noConfusion hclean

end DistributedInvariantChecker

namespace EnforcedHub

/-- The hub is halted, and has sequenced, acknowledged and held back what it had at `e`. -/
structure Frozen (e e' : EnforcedHub S P) : Prop where
  halted : e'.hub.halted = true
  eventLog : e'.hub.eventLog = e.hub.eventLog
  receipts : e'.hub.receipts = e.hub.receipts
  pendingHeld : e'.hub.pendingHeld = e.hub.pendingHeld

/-- A halted hub changes its nodes at most. -/
lemma perform_of_halted {hub : ComputationProtocolHub S P} (h : hub.halted = true)
    (op : HubOp P) :
    ∃ nodes, ComputationProtocolHub.perform A O hub op = { hub with nodes := nodes } := by
  cases op with
  | submit proposal ex de =>
    refine ⟨hub.nodes, ?_⟩
    rw [ComputationProtocolHub.perform, ComputationProtocolHub.submit, if_pos h]
  | releaseHeldEvents nodeId =>
    refine ⟨hub.nodes, ?_⟩
    rw [ComputationProtocolHub.perform, ComputationProtocolHub.releaseHeldEvents, if_pos h]
  | redeliver node entry =>
    rw [ComputationProtocolHub.perform]
    cases hub.eventLog[entry]? with
    | none => exact ⟨hub.nodes, rfl⟩
    | some event => exact ⟨_, rfl⟩
  | reconcileAll =>
    rw [ComputationProtocolHub.perform, ReconciliationEngine.reconcileAll]
    cases ReconciliationEngine.mostAdvanced hub.nodes with
    | none => exact ⟨hub.nodes, rfl⟩
    | some ref => exact ⟨_, rfl⟩
  | reconcileNode nodeId =>
    rw [ComputationProtocolHub.perform, ReconciliationEngine.reconcileNode]
    cases hub.findNode nodeId with
    | none => exact ⟨hub.nodes, rfl⟩
    | some i =>
      dsimp only
      cases ReconciliationEngine.mostAdvanced (hub.nodes.filter fun n => n.nodeId ≠ nodeId) with
      | none => exact ⟨hub.nodes, rfl⟩
      | some ref => exact ⟨_, rfl⟩
  | mergeEventBatch node entries => exact ⟨_, rfl⟩

/-- A check halts the hub or leaves it as it is. -/
lemma runAndHaltIfFailed_hub (e : EnforcedHub S P) :
    (e.runAndHaltIfFailed A V O).1.hub =
      { e.hub with
        halted := e.hub.halted
          || !(DistributedInvariantChecker.runFullCheck A V O e.hub).clean } := by
  have hhalt := DistributedInvariantChecker.systemShouldHalt_eq (A := A) (V := V) (O := O) e.hub
  rw [runAndHaltIfFailed, runFullCheck]
  dsimp only
  rw [hhalt]
  cases (DistributedInvariantChecker.runFullCheck A V O e.hub).clean with
  | true => simp
  | false => simp

lemma frozen_exec {e : EnforcedHub S P} (h : e.hub.halted = true) (ops : List (EnforcedOp P)) :
    Frozen e (Run.exec (perform A V O) e ops) := by
  refine Run.invariant_of_forall (I := Frozen e) (fun e' op he' => ?_) ⟨h, rfl, rfl, rfl⟩ ops
  cases op with
  | operate op =>
    obtain ⟨nodes, hnodes⟩ := perform_of_halted (A := A) (O := O) he'.halted op
    refine ⟨?_, ?_, ?_, ?_⟩ <;> rw [perform, hnodes]
    · exact he'.halted
    · exact he'.eventLog
    · exact he'.receipts
    · exact he'.pendingHeld
  | check =>
    refine ⟨?_, ?_, ?_, ?_⟩ <;> rw [perform, runAndHaltIfFailed_hub]
    · dsimp only
      rw [he'.halted, Bool.true_or]
    · exact he'.eventLog
    · exact he'.receipts
    · exact he'.pendingHeld

end EnforcedHub

/-! ### A check after a pass of the engine -/

open ReconciliationEngine DistributedInvariantChecker

namespace ComputationProtocolHub

variable {hub : ComputationProtocolHub S P} {s₀ : S} {ref n : ProtocolNode S P}

/-- The most advanced node passes its invariants, and no event waits in a node that the most
advanced node has not committed. -/
def Recoverable (A : Adapter S P) (V : VerifyAllInvariants S) (hub : ComputationProtocolHub S P) :
    Prop :=
  ∃ ref, mostAdvanced hub.nodes = some ref ∧ localFailed V A ref = [] ∧
    ∀ n ∈ hub.nodes, ∀ k ∈ n.pendingCausalIds, k ≤ ref.committedCausalId

lemma mem_pendingCausalIds {m : PropagatingStateNode S P} {k : ℤ} :
    k ∈ m.pendingCausalIds ↔ k ∈ m.eventBuffer.keys := List.mem_insertionSort _

lemma isPartial_eq_false {m : PropagatingStateNode S P} :
    m.isPartial = false ↔ ∀ k, k ∉ m.eventBuffer.keys := by
  rw [PropagatingStateNode.isPartial, decide_eq_false_iff_not, not_lt, Nat.le_zero,
    Dict.size_eq_zero]
  exact forall_congr' fun k => Dict.get?_eq_none

/-- What a round of the engine does to the ids that a node has received. -/
lemma received_reconcileUnlessRef (hA : A.NonRaising) (k : ℤ) :
    k ∈ (reconcileUnlessRef A hub ref n).1.inbox.received ↔ k ∈ n.inbox.received ∨
      n.nodeId ≠ ref.nodeId ∧ ∃ x ∈ replayed A hub ref n, ∃ e, x = .receive e ∧ e.causalId = k := by
  by_cases h : n.nodeId = ref.nodeId
  · rw [reconcileUnlessRef_of_eq h]
    exact ⟨Or.inl, fun hk => hk.resolve_right fun hr => hr.1 h⟩
  · have hcore : (reconcileUnlessRef A hub ref n).1.toDistributedStateNode = _ :=
      reconcileUnlessRef_of_ne hA h
    rw [hcore, replayed, and_iff_right h]
    split
    · simp
    · rw [DistributedStateNode.received_exec hA, Set.mem_union]
      simp

/-- Nothing waits in a node that has received nothing behind its position. -/
lemma isPartial_of_received {c : ℤ} (hn : FollowsLog A s₀ hub.eventLog n.toDistributedStateNode)
    (hc : n.committedCausalId = c) (hle : ∀ k ∈ n.inbox.received, k ≤ c) :
    n.isPartial = false := by
  refine isPartial_eq_false.mpr fun k hk => ?_
  have hbehind : n.nextExpectedCausalId < k := hn.settled k hk
  have hwithin := hle k (Or.inr hk)
  rw [PropagatingStateNode.committedCausalId] at hc
  omega

/-- The engine replays nothing behind the reference's position, unless that is zero and something
waits in the node. -/
lemma replayed_le (hlog : LogInv hub) (hfree : SyncFreeLog hub.eventLog)
    (hn : FollowsLog A s₀ hub.eventLog n.toDistributedStateNode)
    (href : FollowsLog A s₀ hub.eventLog ref.toDistributedStateNode)
    (hle : n.nextExpectedCausalId ≤ ref.nextExpectedCausalId)
    (hzero : ref.committedCausalId = 0 → n.eventBuffer.size = 0) {e : ExecutionEvent P}
    (he : .receive e ∈ replayed A hub ref n) : e.causalId ≤ ref.committedCausalId := by
  have hpos : 1 ≤ n.nextExpectedCausalId := hn.pos
  have hreflen : ref.committedCausalId ≤ hub.eventLog.length := sub_le_iff_le_add'.mpr href.le
  have hcommitted : ref.committedCausalId = ref.nextExpectedCausalId - 1 := rfl
  by_cases hskip : n.nextExpectedCausalId = ref.nextExpectedCausalId ∧ n.eventBuffer.size = 0
  · rw [replayed_eq_nil hn href hskip.1 hskip.2] at he
    exact absurd he List.not_mem_nil
  · have hc : ref.committedCausalId ≠ 0 := fun h0 => hskip ⟨by omega, hzero h0⟩
    rw [replayed_eq_map hle hskip] at he
    obtain ⟨e', he', heq⟩ := List.mem_map.mp he
    obtain rfl : e' = e := by injection heq
    have hslice := (mem_missingEvents_iff hlog hfree hpos hreflen e'.causalId).mp
      ⟨e', mem_sortEvents.mp he', rfl⟩
    rw [if_neg hc] at hslice
    exact hslice.2

/-- The local invariants of nodes in equal states fail alike. -/
lemma localFailed_congr {n' : ProtocolNode S P} (h : n.adapterState = n'.adapterState) :
    localFailed V A n = localFailed V A n' := by
  have hreport : n.verifyNodeIntegrity V = n'.verifyNodeIntegrity V := by
    cases V with
    | none => rfl
    | some verifyAllInvariants => exact congrArg verifyAllInvariants h
  rw [localFailed, localFailed, checkNode, checkNode, hreport]

/-- A recoverable hub is alignable. -/
lemma Recoverable.alignable (hids : (hub.nodes.map (·.nodeId)).Nodup)
    (hnodes : ∀ n ∈ hub.nodes, FollowsLog A s₀ hub.eventLog n.toDistributedStateNode)
    (h : Recoverable A V hub) : Alignable hub := by
  obtain ⟨ref, href, -, hpending⟩ := h
  refine ⟨ref, href, fun n hn => ⟨fun heq => ?_, fun _ => ⟨?_, fun hzero => ?_⟩⟩⟩
  · rw [List.inj_on_of_nodup_map hids hn (mostAdvanced_mem href) heq]
  · refine Dict.get?_eq_none.mpr fun hk => ?_
    have hle := hpending n hn _ (mem_pendingCausalIds.mpr hk)
    omega
  · by_contra hsize
    obtain ⟨k, hk⟩ := not_forall.mp (mt Dict.size_eq_zero.mpr hsize)
    have hkey : k ∈ n.eventBuffer.keys := not_not.mp (mt Dict.get?_eq_none.mpr hk)
    have hle := hpending n hn k (mem_pendingCausalIds.mpr hkey)
    have hpos : 1 ≤ n.nextExpectedCausalId := (hnodes n hn).pos
    have hbehind : n.nextExpectedCausalId < k := (hnodes n hn).settled k hkey
    omega

/-- **Recovery.**  A pass of the engine converges and the check after it is clean, exactly if the
hub is recoverable. -/
theorem recovered_iff (hA : A.NonRaising) (hlog : LogInv hub) (hfree : SyncFreeLog hub.eventLog)
    (hids : (hub.nodes.map (·.nodeId)).Nodup)
    (hnodes : ∀ n ∈ hub.nodes, FollowsLog A s₀ hub.eventLog n.toDistributedStateNode) :
    Converges A hub ∧ (DistributedInvariantChecker.runFullCheck A V O (reconcileAll A hub).1).clean
      = true ↔ Recoverable A V hub := by
  rw [clean_iff]
  constructor
  · rintro ⟨hconv, hbuf, hfailed, -⟩
    obtain ⟨ref, href, halign⟩ := (converges_iff_alignable hA hlog hfree hnodes).mp hconv
    obtain ⟨hmap, -⟩ := reconcileAll_of_some (A := A) href
    have hrefmem := mostAdvanced_mem href
    have hround : ∀ n ∈ hub.nodes,
        (reconcileUnlessRef A hub ref n).1 ∈ (reconcileAll A hub).1.nodes := fun n hn => by
      rw [hmap]
      exact List.mem_map_of_mem hn
    refine ⟨ref, href, ?_, fun n hn k hk => ?_⟩
    · have hself := hfailed _ (hround ref hrefmem)
      rwa [reconcileUnlessRef_of_eq rfl] at hself
    · -- the id is still received when the pass is over, and nothing waits then
      have hend := (committed_reconcileUnlessRef_iff hA hlog hfree (hnodes n hn)
        (hnodes ref hrefmem) (le_mostAdvanced href hn)).mpr (halign n hn)
      have hreceived : k ∈ (reconcileUnlessRef A hub ref n).1.inbox.received :=
        (received_reconcileUnlessRef hA k).mpr (Or.inl (Or.inr (mem_pendingCausalIds.mp hk)))
      have hnone := isPartial_eq_false.mp (hbuf _ (hround n hn)) k
      rcases hreceived with hlt | hkey
      · rw [PropagatingStateNode.committedCausalId] at hend
        have hlt' : k < (reconcileUnlessRef A hub ref n).1.nextExpectedCausalId := hlt
        omega
      · exact absurd hkey hnone
  · intro h
    have hconv := (converges_iff_alignable hA hlog hfree hnodes).mpr (h.alignable hids hnodes)
    obtain ⟨ref', href', halign⟩ := h.alignable hids hnodes
    obtain ⟨ref, href, hlocal, hpending⟩ := h
    obtain rfl : ref = ref' := Option.some.inj (href.symm.trans href')
    obtain ⟨hmap, -⟩ := reconcileAll_of_some (A := A) href
    have hrefmem := mostAdvanced_mem href
    have hend : ∀ n' ∈ (reconcileAll A hub).1.nodes, n'.isPartial = false ∧
        n'.adapterState = ref.adapterState := by
      rw [hmap]
      intro n' hn'
      obtain ⟨n, hn, rfl⟩ := List.mem_map.mp hn'
      have hcommitted := (committed_reconcileUnlessRef_iff hA hlog hfree (hnodes n hn)
        (hnodes ref hrefmem) (le_mostAdvanced href hn)).mpr (halign n hn)
      have hfollows : FollowsLog A s₀ hub.eventLog
          (reconcileUnlessRef A hub ref n).1.toDistributedStateNode :=
        followsLog_reconcileUnlessRef hA hlog (hnodes n hn)
      refine ⟨isPartial_of_received hfollows hcommitted fun k hk => ?_,
        hfollows.adapterState_eq (hnodes ref hrefmem) (sub_left_inj.mp hcommitted)⟩
      rcases (received_reconcileUnlessRef hA k).mp hk with (hlt | hkey) | ⟨hne, x, hx, e, rfl, rfl⟩
      · have hle := le_mostAdvanced href hn
        have hlt' : k < n.nextExpectedCausalId := hlt
        rw [PropagatingStateNode.committedCausalId]
        omega
      · exact hpending n hn k (mem_pendingCausalIds.mpr hkey)
      · exact replayed_le hlog hfree (hnodes n hn) (hnodes ref hrefmem)
          (le_mostAdvanced href hn) ((halign n hn).2 hne).2 hx
    refine ⟨hconv, fun n hn => (hend n hn).1, fun n hn => ?_, fun a ha b hb => ?_⟩
    · rw [localFailed_congr (hend n hn).2]
      exact hlocal
    · have hsame : ∀ a ∈ filedHashes A (reconcileAll A hub).1.nodes,
          a = A.getStateHash ref.adapterState := fun a ha => by
        have ha := Dict.mem_values_ofList ha
        rw [List.map_map] at ha
        obtain ⟨n, hn, rfl⟩ := List.mem_map.mp ha
        exact congrArg A.getStateHash (hend n hn).2
      rw [hsame a ha, hsame b hb]

end ComputationProtocolHub

/-! ### Every run -/

namespace ComputationProtocolHub

/-- The nodes keep their ids. -/
lemma nodeIds_perform (hA : A.NonRaising) (hub : ComputationProtocolHub S P) (op : HubOp P) :
    (perform A O hub op).nodes.map (·.nodeId) = hub.nodes.map (·.nodeId) := by
  have hinput : ∀ (m : DistributedStateNode S P) (x : NodeInput P),
      (m.input A x).nodeId = m.nodeId := fun m x => by
    cases x with
    | receive event => exact DistributedStateNode.receiveEvent_nodeId event m
    | sync causalId => rfl
  have hexec : ∀ (xs : List (NodeInput P)) (m : DistributedStateNode S P),
      (Run.exec (DistributedStateNode.input A) m xs).nodeId = m.nodeId := fun xs m =>
    Run.invariant_of_forall (I := fun m' => m'.nodeId = m.nodeId)
      (fun m' x hm' => (hinput m' x).trans hm') rfl xs
  refine List.ext_getElem? fun i => ?_
  have hcore := congrArg (Option.map DistributedStateNode.nodeId)
    (perform_core (O := O) hA hub op i)
  rw [Option.map_map, Option.map_map] at hcore
  rw [List.getElem?_map, List.getElem?_map]
  refine hcore.trans (Option.map_congr fun n _ => hexec _ _)

end ComputationProtocolHub

namespace EnforcedHub

/-- What operations without `SYNC`s and checks keep: the log, the nodes that follow it, their ids,
and the last failed check as the reason for a halt. -/
structure Enforced (A : Adapter S P) (s₀ : S) (ids : List String) (e : EnforcedHub S P) : Prop where
  follows : ComputationProtocolHub.Holds (fun L m => SyncFreeLog L → FollowsLog A s₀ L m) e.hub
  syncFree : SyncFreeLog e.hub.eventLog
  nodeIds : e.hub.nodes.map (·.nodeId) = ids
  reason : e.checkerReason = (e.checkHistory.filter fun r => !r.clean).getLast?.map haltText
  halted : (∃ r ∈ e.checkHistory, r.clean = false) → e.hub.halted = true

namespace Enforced

variable {s₀ : S} {ids : List String} {e : EnforcedHub S P}

lemma start (hr hd : Bool) (ids : List String) (s₀ : S) :
    Enforced A s₀ ids (start (P := P) hr hd (ids.map fun i => (i, s₀))) where
  follows := ComputationProtocolHub.Holds.withNodes fun m hm _ => by
    obtain ⟨i, -, rfl⟩ := List.mem_map.mp hm
    exact .init i
  syncFree := by
    rw [EnforcedHub.start, ComputationProtocolHub.withNodes_eventLog]
    exact fun e he => absurd he List.not_mem_nil
  nodeIds := by
    rw [EnforcedHub.start, ComputationProtocolHub.withNodes_nodes, List.map_map, List.map_map]
    exact List.map_id _
  reason := rfl
  halted := fun ⟨r, hr, _⟩ => absurd hr List.not_mem_nil

lemma operate (hA : A.NonRaising) (h : Enforced A s₀ ids e) {op : HubOp P} (hop : op.SyncFree) :
    Enforced A s₀ ids (e.perform A V O (.operate op)) where
  follows := h.follows.perform hA (ComputationProtocolHub.followsLog_invariant hA s₀)
    fun _ _ _ => Run.along_of_forall _ fun _ _ _ => trivial
  syncFree :=
    have hops : ∀ op' ∈ [op], op'.SyncFree := fun op' hop' => List.mem_singleton.mp hop' ▸ hop
    ComputationProtocolHub.syncFreeLog_exec h.syncFree hops
  nodeIds := (ComputationProtocolHub.nodeIds_perform hA e.hub op).trans h.nodeIds
  reason := h.reason
  halted hfailed := by
    obtain ⟨nodes, hnodes⟩ := perform_of_halted (A := A) (O := O) (h.halted hfailed) op
    rw [perform, hnodes]
    exact h.halted hfailed

/-- What a check adds to the history, and to the reasons. -/
lemma check (h : Enforced A s₀ ids e) : Enforced A s₀ ids (e.perform A V O .check) := by
  have hhub := runAndHaltIfFailed_hub (A := A) (V := V) (O := O) e
  have hhalt := systemShouldHalt_eq (A := A) (V := V) (O := O) e.hub
  have hhistory : (e.runAndHaltIfFailed A V O).1.checkHistory
      = e.checkHistory ++ [DistributedInvariantChecker.runFullCheck A V O e.hub] := by
    rw [runAndHaltIfFailed, runFullCheck]
    dsimp only
    split <;> rfl
  rw [perform]
  refine ⟨?_, ?_, ?_, ?_, fun hfailed => ?_⟩
  · rw [hhub]
    exact ⟨h.follows.toLogInv.of_eq rfl rfl h.follows.held, h.follows.node⟩
  · rw [hhub]
    exact h.syncFree
  · rw [hhub]
    exact h.nodeIds
  · rw [hhistory, List.filter_append, runAndHaltIfFailed, runFullCheck]
    dsimp only
    rw [hhalt]
    cases hclean : (DistributedInvariantChecker.runFullCheck A V O e.hub).clean with
    | true => simp [hclean, h.reason]
    | false => simp [hclean]
  · rw [hhistory] at hfailed
    rw [hhub]
    obtain ⟨r, hr, hclean⟩ := hfailed
    rcases List.mem_append.mp hr with hr | hr
    · exact Bool.or_eq_true_iff.mpr (Or.inl (h.halted ⟨r, hr, hclean⟩))
    · obtain rfl := List.mem_singleton.mp hr
      exact Bool.or_eq_true_iff.mpr (Or.inr (by rw [hclean]; rfl))

lemma exec (hA : A.NonRaising) (h : Enforced A s₀ ids e) {ops : List (EnforcedOp P)}
    (hops : ∀ op ∈ ops, op.SyncFree) : Enforced A s₀ ids (Run.exec (perform A V O) e ops) := by
  refine Run.invariant_of_mem (fun e op hop he => ?_) h
  cases op with
  | operate op => exact he.operate hA (hops _ hop)
  | check => exact he.check

end Enforced

/-- **Enforcement after recovery.**  Whatever operations without `SYNC`s and checks are interleaved,
over nodes with distinct ids that start in one state: the reason for a halt is the last check that
failed, and a failed check has halted the hub.  If the engine makes a pass then, the pass converges
and the check after it is clean, exactly if the most advanced node passes its invariants and has
committed all that waits anywhere; a clean check leaves the hub as it is; and after a failed one
nothing is sequenced, acknowledged or released any more, whatever comes. -/
theorem enforcement_after_recovery (hA : A.NonRaising) (V : VerifyAllInvariants S) (O : SetOrder)
    (hr hd : Bool) {ids : List String} (hids : ids.Nodup) (s₀ : S) {ops : List (EnforcedOp P)}
    (hops : ∀ op ∈ ops, op.SyncFree) :
    let e := Run.exec (perform A V O) (EnforcedHub.start hr hd (ids.map fun i => (i, s₀))) ops
    let e' := e.perform A V O (.operate .reconcileAll)
    let checked := (e'.runAndHaltIfFailed A V O).1
    let report := (e'.runAndHaltIfFailed A V O).2
    (∀ r, (e.checkHistory.filter fun r => !r.clean).getLast? = some r →
      e.hub.halted = true ∧ e.haltReason = some (haltText r)) ∧
    (ComputationProtocolHub.Converges A e.hub ∧ report.clean = true ↔
      ComputationProtocolHub.Recoverable A V e.hub) ∧
    (report.clean = true → checked.hub = e'.hub) ∧
    (report.clean = false → checked.haltReason = some (haltText report) ∧
      ∀ later : List (EnforcedOp P), Frozen e' (Run.exec (perform A V O) checked later)) := by
  intro e e' checked report
  have h : Enforced A s₀ ids e := (Enforced.start hr hd ids s₀).exec hA hops
  have hreport : report = DistributedInvariantChecker.runFullCheck A V O e'.hub := by
    show (e'.runAndHaltIfFailed A V O).2 = _
    rw [runAndHaltIfFailed, runFullCheck]
    dsimp only
    split <;> rfl
  have hhub : checked.hub = { e'.hub with halted := e'.hub.halted || !report.clean } := by
    rw [hreport]
    exact runAndHaltIfFailed_hub e'
  refine ⟨fun r hlast => ?_, ?_, fun hclean => ?_, fun hfailed => ?_⟩
  · have hmem := List.mem_filter.mp (List.mem_of_getLast? hlast)
    refine ⟨h.halted ⟨r, hmem.1, by simpa using hmem.2⟩, ?_⟩
    rw [haltReason, h.reason, hlast]
    rfl
  · rw [hreport]
    exact ComputationProtocolHub.recovered_iff hA h.follows.toLogInv h.syncFree
      (h.nodeIds ▸ hids) fun n hn => h.follows.node n hn h.syncFree
  · rw [hhub, hclean, Bool.not_true, Bool.or_false]
  · have hhalted : checked.hub.halted = true := by
      rw [hhub, hfailed]
      exact Bool.or_true _
    refine ⟨?_, fun later => ?_⟩
    · show (e'.runAndHaltIfFailed A V O).1.haltReason = _
      have hhalt := systemShouldHalt_eq (A := A) (V := V) (O := O) e'.hub
      rw [← hreport, hfailed] at hhalt
      rw [runAndHaltIfFailed, runFullCheck]
      dsimp only
      rw [← hreport, hhalt]
      rfl
    · have hfrozen := frozen_exec (A := A) (V := V) (O := O) hhalted later
      refine ⟨hfrozen.halted, hfrozen.eventLog.trans ?_, hfrozen.receipts.trans ?_,
        hfrozen.pendingHeld.trans ?_⟩ <;> rw [hhub]

/-- A lagging node is caught up and passes the check; the system runs on. -/
theorem enforcement_after_recovery_mock :
    let ops : List (EnforcedOp (Option ℤ)) := [.operate (.submit (addProposal 1) [] []), .check,
      .operate (.submit (addProposal 2) ["B"] [])]
    let e := Run.exec (perform (mockAdapter id) none .lastInsertion)
      (EnforcedHub.start true true (["A", "B"].map fun i => (i, 0))) ops
    let e' := e.perform (mockAdapter id) none .lastInsertion (.operate .reconcileAll)
    (e'.runAndHaltIfFailed (mockAdapter id) none .lastInsertion).2.clean = true ∧
      (e'.runAndHaltIfFailed (mockAdapter id) none .lastInsertion).1.hub.halted = false := by
  intro ops e e'
  have hids : ["A", "B"].Nodup := by decide
  have hops : ∀ op ∈ ops, op.SyncFree := by decide
  obtain ⟨-, hiff, hclean, -⟩ := enforcement_after_recovery (mockAdapter_nonRaising id) none
    .lastInsertion true true hids 0 hops
  have hrecoverable : ComputationProtocolHub.Recoverable (mockAdapter id) none e.hub :=
    ⟨_, rfl, by decide, by decide⟩
  have hrecovered := (hiff.mpr hrecoverable).2
  have hrunning : e'.hub.halted = false := by decide
  refine ⟨hrecovered, ?_⟩
  rw [hclean hrecovered]
  exact hrunning

end EnforcedHub

end QuantumFoundation
