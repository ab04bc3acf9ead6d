import QuantumFoundation.Distributed.ExactlyOnce

/-!
# When a reconciliation pass converges

A pass fixes the most advanced node as reference and replays to every other node the log up
to the reference's position.  After the replay a node has received everything up to that
position *and* everything it had buffered; its new cursor is the least id it lacks.  It ends
exactly at the reference unless it had buffered the event right behind it, which the replay
releases.  At position zero the slice of the log is not cut off, because an upper end of zero
counts as missing, so there nothing at all may be buffered.
-/

namespace QuantumFoundation

variable {S P : Type*} {A : Adapter S P}

namespace DistributedStateNode

/-- What a sequence of receptions adds to the received ids. -/
lemma received_exec (hA : A.NonRaising) (es : List (ExecutionEvent P))
    (m : DistributedStateNode S P) :
    (Run.exec (input A) m (es.map .receive)).inbox.received
      = m.inbox.received ∪ {k | ∃ e ∈ es, e.causalId = k} := by
  induction es generalizing m with
  | nil => simp
  | cons e es ih =>
    obtain ⟨-, l, hoff, -⟩ := m.receiveEvent_offers hA e
    have hrec : (m.input A (.receive e)).inbox.received = insert e.causalId m.inbox.received :=
      hoff.received_eq
    rw [List.map_cons, Run.exec_cons, ih, hrec]
    ext k
    simp only [Set.mem_union, Set.mem_insert_iff, Set.mem_ofPred_eq, List.exists_mem_cons_iff]
    tauto

lemma settled_exec (hA : A.NonRaising) (es : List (ExecutionEvent P))
    {m : DistributedStateNode S P} (hm : m.inbox.Settled) :
    (Run.exec (input A) m (es.map .receive)).inbox.Settled := by
  induction es generalizing m with
  | nil => exact hm
  | cons e es ih =>
    obtain ⟨-, l, hoff, -⟩ := m.receiveEvent_offers hA e
    exact ih (hoff.settled hm)

end DistributedStateNode

lemma FollowsLog.exec (hA : A.NonRaising) {s₀ : S} {L : List (SequencedEvent P)}
    (hL : NumberedFrom SequencedEvent.causalId 1 L) {xs : List (NodeInput P)}
    (hxs : ∀ x ∈ xs, ∃ e ∈ L, x = .receive e.toExecutionEvent) {m : DistributedStateNode S P}
    (h : FollowsLog A s₀ L m) :
    FollowsLog A s₀ L (Run.exec (DistributedStateNode.input A) m xs) := by
  refine Run.invariant_of_mem (fun m x hx hm => ?_) h
  obtain ⟨e, he, rfl⟩ := hxs x hx
  exact hm.receiveEvent hA hL he

/-! ### The reference node -/

namespace ReconciliationEngine

lemma mostAdvanced_mem {nodes : List (ProtocolNode S P)} {ref : ProtocolNode S P}
    (h : mostAdvanced nodes = some ref) : ref ∈ nodes := maxKey_mem h

lemma le_mostAdvanced {nodes : List (ProtocolNode S P)} {ref n : ProtocolNode S P}
    (h : mostAdvanced nodes = some ref) (hn : n ∈ nodes) :
    n.nextExpectedCausalId ≤ ref.nextExpectedCausalId :=
  (sub_le_sub_iff_right 1).mp (le_maxKey h hn)

end ReconciliationEngine

open ReconciliationEngine

namespace ComputationProtocolHub

/-! ### Replaying to one node -/

/-- The ids that are replayed when the log holds no `SYNC` event. -/
lemma mem_missingEvents_iff {hub : ComputationProtocolHub S P} (hlog : LogInv hub)
    (hfree : SyncFreeLog hub.eventLog) {n : ProtocolNode S P} (hpos : 1 ≤ n.nextExpectedCausalId)
    {c : ℤ} (hc : c ≤ hub.eventLog.length) (k : ℤ) :
    (∃ e ∈ missingEvents hub n c, e.causalId = k) ↔
      n.nextExpectedCausalId ≤ k ∧ k ≤ if c = 0 then (hub.eventLog.length : ℤ) else c := by
  have hnum := hlog.numbered
  have hlast : hub.globalCausalId - 1 = hub.eventLog.length := by
    rw [hlog.next]
    ring
  constructor
  · rintro ⟨e, he, rfl⟩
    obtain ⟨se, hse, rfl⟩ := List.mem_map.mp he
    have hslice := (List.mem_filter.mp (List.mem_filter.mp hse).1).2
    simpa [hlast, PropagatingStateNode.committedCausalId] using hslice
  · rintro ⟨hk, hkc⟩
    have hkl : k ≤ hub.eventLog.length := by split at hkc <;> omega
    obtain ⟨se, hse, rfl⟩ := hnum.exists_mem (k := k) (by omega) (by omega)
    refine ⟨se.toExecutionEvent, List.mem_map.mpr ⟨se, ?_, rfl⟩, rfl⟩
    refine List.mem_filter.mpr ⟨List.mem_filter.mpr ⟨hse, ?_⟩, by simpa using hfree se hse⟩
    simpa [hlast, PropagatingStateNode.committedCausalId] using ⟨hk, hkc⟩

section Replay

variable {hub : ComputationProtocolHub S P} {s₀ : S} {ref n : ProtocolNode S P}

lemma replayed_receive {x : NodeInput P} (hx : x ∈ replayed A hub ref n) :
    ∃ e ∈ hub.eventLog, x = .receive e.toExecutionEvent := by
  rw [replayed] at hx
  split at hx
  · exact absurd hx (by simp)
  · obtain ⟨event, hevent, rfl⟩ := List.mem_map.mp hx
    obtain ⟨e, he, -, rfl⟩ := mem_missingEvents (mem_sortEvents.mp hevent)
    exact ⟨e, he, rfl⟩

/-- A node at the reference's position with nothing buffered is left alone. -/
lemma replayed_eq_nil (hn : FollowsLog A s₀ hub.eventLog n.toDistributedStateNode)
    (href : FollowsLog A s₀ hub.eventLog ref.toDistributedStateNode)
    (hc : n.nextExpectedCausalId = ref.nextExpectedCausalId) (hb : n.eventBuffer.size = 0) :
    replayed A hub ref n = [] := by
  have hhash : n.getStateHash A = ref.getStateHash A :=
    congrArg A.getStateHash (hn.adapterState_eq href hc)
  rw [replayed, if_pos]
  simp [PropagatingStateNode.committedCausalId, PropagatingStateNode.isPartial, hc, hb, hhash]

/-- A node that lags behind, or has events buffered, gets the missing events. -/
lemma replayed_eq_map (hle : n.nextExpectedCausalId ≤ ref.nextExpectedCausalId)
    (h : ¬(n.nextExpectedCausalId = ref.nextExpectedCausalId ∧ n.eventBuffer.size = 0)) :
    replayed A hub ref n
      = (sortEvents (missingEvents hub n ref.committedCausalId)).map .receive := by
  have hlag : n.nextExpectedCausalId < ref.nextExpectedCausalId ∨ 0 < n.eventBuffer.size := by
    omega
  rw [replayed, if_neg]
  intro hskip
  simp only [Bool.and_eq_true, Bool.not_eq_true', Bool.or_eq_false_iff, decide_eq_true_eq] at hskip
  have hcur : ¬n.committedCausalId < ref.committedCausalId := of_decide_eq_false hskip.1.1
  have hbuf : ¬0 < n.eventBuffer.size := of_decide_eq_false hskip.1.2
  rw [PropagatingStateNode.committedCausalId, PropagatingStateNode.committedCausalId] at hcur
  omega

/-- **Replay to one node.**  It ends at the reference's position exactly if the node has not
buffered the event right behind it and, at position zero, has buffered nothing. -/
theorem next_replayed_iff (hA : A.NonRaising) (hlog : LogInv hub)
    (hfree : SyncFreeLog hub.eventLog)
    (hn : FollowsLog A s₀ hub.eventLog n.toDistributedStateNode)
    (href : FollowsLog A s₀ hub.eventLog ref.toDistributedStateNode)
    (hle : n.nextExpectedCausalId ≤ ref.nextExpectedCausalId) :
    (Run.exec (DistributedStateNode.input A) n.toDistributedStateNode
        (replayed A hub ref n)).nextExpectedCausalId = ref.nextExpectedCausalId ↔
      n.eventBuffer.get? ref.nextExpectedCausalId = none ∧
        (ref.committedCausalId = 0 → n.eventBuffer.size = 0) := by
  by_cases hskip : n.nextExpectedCausalId = ref.nextExpectedCausalId ∧ n.eventBuffer.size = 0
  · rw [replayed_eq_nil hn href hskip.1 hskip.2]
    exact iff_of_true hskip.1 ⟨Dict.size_eq_zero.mp hskip.2 _, fun _ => hskip.2⟩
  · have hsettled := (hn.exec hA hlog.numbered fun x (hx : x ∈ replayed A hub ref n) =>
      replayed_receive hx).settled
    have hpos : 1 ≤ n.nextExpectedCausalId := hn.pos
    have hreflen : ref.nextExpectedCausalId ≤ 1 + hub.eventLog.length := href.le
    have hrec := n.toDistributedStateNode.received_exec hA
      (sortEvents (missingEvents hub n ref.committedCausalId))
    rw [replayed_eq_map hle hskip] at hsettled ⊢
    set n' := Run.exec (DistributedStateNode.input A) n.toDistributedStateNode
      ((sortEvents (missingEvents hub n ref.committedCausalId)).map .receive)
    -- the ids that the node has received when the replay is over
    have hmem : ∀ k, k ∈ n'.inbox.received ↔
        k < n.nextExpectedCausalId ∨ k ∈ n.eventBuffer.keys ∨ n.nextExpectedCausalId ≤ k ∧
          k ≤ if ref.committedCausalId = 0 then (hub.eventLog.length : ℤ)
            else ref.committedCausalId := by
      intro k
      rw [← mem_missingEvents_iff (c := ref.committedCausalId) hlog hfree hpos
        (sub_le_iff_le_add'.mpr hreflen) k, hrec,
        Set.mem_union, ReorderBuffer.mem_received, or_assoc]
      simp only [Set.mem_ofPred_eq, mem_sortEvents]
      exact Iff.rfl
    have hcommitted : ref.committedCausalId = ref.nextExpectedCausalId - 1 := rfl
    by_cases hzero : ref.committedCausalId = 0
    · -- the whole log is replayed, and it is not empty, for the node has buffered a part of it
      have hsize : n.eventBuffer.size ≠ 0 := fun hs => hskip ⟨by omega, hs⟩
      refine iff_of_false (fun heq => hsettled.isLeast.1 ?_) fun h => hsize (h.2 hzero)
      obtain ⟨k, hk⟩ := not_forall.mp (mt Dict.size_eq_zero.mpr hsize)
      obtain ⟨e, he⟩ := Option.ne_none_iff_exists'.mp hk
      obtain ⟨se, hse, -⟩ := hn.buffers k e he
      have hbounds := hlog.numbered.bounds hse
      show n'.nextExpectedCausalId ∈ n'.inbox.received
      rw [hmem, heq, if_pos hzero]
      omega
    · rw [and_iff_left fun h0 => absurd h0 hzero, Dict.get?_eq_none]
      simp only [if_neg hzero] at hmem
      constructor
      · intro heq hkey
        refine hsettled.isLeast.1 ((hmem _).mpr (Or.inr (Or.inl ?_)))
        show n'.nextExpectedCausalId ∈ _
        rw [heq]
        exact hkey
      · intro hkey
        refine hsettled.cursor_eq (fun k hk => (hmem k).mpr (by omega)) fun hk => ?_
        rcases (hmem _).mp hk with hk | hk | hk
        · omega
        · exact hkey hk
        · omega

end Replay

/-! ### The whole pass -/

/-- One pass of `reconcile_all` succeeds, brings all nodes to one committed id and one state
hash, and reports full consensus. -/
def Converges (A : Adapter S P) (hub : ComputationProtocolHub S P) : Prop :=
  ∃ report, (reconcileAll A hub).2 = .ok report ∧ report.fullConsensusReached = true ∧
    ∀ n ∈ (reconcileAll A hub).1.nodes, ∀ n' ∈ (reconcileAll A hub).1.nodes,
      n.committedCausalId = n'.committedCausalId ∧ n.getStateHash A = n'.getStateHash A

/-- There is a reference node; a node that carries its id is at its position; any other node
has not buffered the event right behind that position and, at position zero, has buffered
nothing. -/
def Alignable (hub : ComputationProtocolHub S P) : Prop :=
  ∃ ref, mostAdvanced hub.nodes = some ref ∧ ∀ n ∈ hub.nodes,
    (n.nodeId = ref.nodeId → n.committedCausalId = ref.committedCausalId) ∧
      (n.nodeId ≠ ref.nodeId → n.eventBuffer.get? (ref.committedCausalId + 1) = none ∧
        (ref.committedCausalId = 0 → n.eventBuffer.size = 0))

section Pass

variable {hub : ComputationProtocolHub S P} {s₀ : S} {ref n : ProtocolNode S P}

lemma reconcileUnlessRef_of_eq (h : n.nodeId = ref.nodeId) :
    (reconcileUnlessRef A hub ref n).1 = n := by
  rw [reconcileUnlessRef, if_pos h]

lemma reconcileUnlessRef_of_ne (hA : A.NonRaising) (h : n.nodeId ≠ ref.nodeId) :
    (reconcileUnlessRef A hub ref n).1.toDistributedStateNode
      = Run.exec (DistributedStateNode.input A) n.toDistributedStateNode
          (replayed A hub ref n) := by
  rw [reconcileUnlessRef, if_neg h]
  exact reconcileOne_core hA hub ref n

/-- After its round a node still follows the log. -/
lemma followsLog_reconcileUnlessRef (hA : A.NonRaising) (hlog : LogInv hub)
    (hn : FollowsLog A s₀ hub.eventLog n.toDistributedStateNode) :
    FollowsLog A s₀ hub.eventLog (reconcileUnlessRef A hub ref n).1.toDistributedStateNode := by
  by_cases h : n.nodeId = ref.nodeId
  · rwa [reconcileUnlessRef_of_eq h]
  · rw [reconcileUnlessRef_of_ne hA h]
    exact hn.exec hA hlog.numbered fun _ => replayed_receive

/-- When a node's round ends at the position of the reference. -/
lemma committed_reconcileUnlessRef_iff (hA : A.NonRaising) (hlog : LogInv hub)
    (hfree : SyncFreeLog hub.eventLog)
    (hn : FollowsLog A s₀ hub.eventLog n.toDistributedStateNode)
    (href : FollowsLog A s₀ hub.eventLog ref.toDistributedStateNode)
    (hle : n.nextExpectedCausalId ≤ ref.nextExpectedCausalId) :
    (reconcileUnlessRef A hub ref n).1.committedCausalId = ref.committedCausalId ↔
      (n.nodeId = ref.nodeId → n.committedCausalId = ref.committedCausalId) ∧
        (n.nodeId ≠ ref.nodeId → n.eventBuffer.get? (ref.committedCausalId + 1) = none ∧
          (ref.committedCausalId = 0 → n.eventBuffer.size = 0)) := by
  by_cases h : n.nodeId = ref.nodeId
  · rw [reconcileUnlessRef_of_eq h]
    exact ⟨fun hc => ⟨fun _ => hc, fun hne => absurd h hne⟩, fun hc => hc.1 h⟩
  · rw [imp_iff_right h, and_iff_right fun heq => absurd heq h,
      show ref.committedCausalId + 1 = ref.nextExpectedCausalId from sub_add_cancel _ _,
      ← next_replayed_iff hA hlog hfree hn href hle, ← reconcileUnlessRef_of_ne hA h]
    exact sub_left_inj

/-- The nodes after a pass, and what the report says about them. -/
lemma reconcileAll_of_some (hm : mostAdvanced hub.nodes = some ref) :
    let nodes := hub.nodes.map fun n => (reconcileUnlessRef A hub ref n).1
    (reconcileAll A hub).1.nodes = nodes ∧ ∃ report, (reconcileAll A hub).2 = .ok report ∧
      (report.fullConsensusReached = true ↔
        (Dict.ofList (nodes.map fun n => (n.nodeId, n.getStateHash A))).values.dedup.length = 1 ∧
          ∀ n ∈ nodes, n.committedCausalId = ref.committedCausalId) := by
  intro nodes
  have hnodes : (hub.nodes.map (reconcileUnlessRef A hub ref)).map Prod.fst = nodes := List.map_map
  rw [reconcileAll, hm, ← hnodes]
  refine ⟨rfl, _, rfl, ?_⟩
  simp only [Bool.and_eq_true, decide_eq_true_eq, List.all_eq_true]

/-- **When a pass converges.**  In a hub without `SYNC` events whose nodes follow the log. -/
theorem converges_iff_alignable (hA : A.NonRaising) (hlog : LogInv hub)
    (hfree : SyncFreeLog hub.eventLog)
    (hnodes : ∀ n ∈ hub.nodes, FollowsLog A s₀ hub.eventLog n.toDistributedStateNode) :
    Converges A hub ↔ Alignable hub := by
  cases hm : mostAdvanced hub.nodes with
  | none =>
    refine iff_of_false ?_ ?_
    · rintro ⟨report, hreport, -⟩
      rw [reconcileAll, hm] at hreport
      exact absurd hreport (by simp)
    · rintro ⟨ref, href, -⟩
      exact absurd (hm.symm.trans href) (by simp)
  | some ref =>
    have href := hnodes ref (mostAdvanced_mem hm)
    have hround := fun n hn => committed_reconcileUnlessRef_iff hA hlog hfree (hnodes n hn) href
      (le_mostAdvanced hm hn)
    obtain ⟨hmap, report, hreport, hfull⟩ := reconcileAll_of_some (A := A) hm
    constructor
    · rintro ⟨report', hreport', hfull', -⟩
      obtain rfl : report = report' := Except.ok.inj (hreport.symm.trans hreport')
      refine ⟨ref, hm, fun n hn => (hround n hn).mp ?_⟩
      exact (hfull.mp hfull').2 _ (List.mem_map_of_mem hn)
    · rintro ⟨ref', href', halign⟩
      obtain rfl : ref = ref' := Option.some.inj (hm.symm.trans href')
      -- every round ends at the reference, and the log determines the state there
      have hend : ∀ n' ∈ (reconcileAll A hub).1.nodes,
          n'.committedCausalId = ref.committedCausalId ∧
          FollowsLog A s₀ hub.eventLog n'.toDistributedStateNode := by
        rw [hmap]
        intro n' hn'
        obtain ⟨n, hn, rfl⟩ := List.mem_map.mp hn'
        exact ⟨(hround n hn).mpr (halign n hn), followsLog_reconcileUnlessRef hA hlog (hnodes n hn)⟩
      have hhash : ∀ n ∈ (reconcileAll A hub).1.nodes, ∀ n' ∈ (reconcileAll A hub).1.nodes,
          n.getStateHash A = n'.getStateHash A := by
        intro n hn n' hn'
        have hcid := (hend n hn).1.trans (hend n' hn').1.symm
        exact congrArg A.getStateHash
          ((hend n hn).2.adapterState_eq (hend n' hn').2 (sub_left_inj.mp hcid))
      refine ⟨report, hreport, hfull.mpr ⟨?_, ?_⟩, fun n hn n' hn' => ⟨?_, hhash n hn n' hn'⟩⟩
      · rw [← hmap, length_dedup_eq_one]
        refine ⟨Dict.values_ofList_ne_nil ?_, fun a ha b hb => ?_⟩
        · rw [hmap]
          exact List.ne_nil_of_mem (List.mem_map_of_mem (List.mem_map_of_mem (mostAdvanced_mem hm)))
        · have ha := Dict.mem_values_ofList ha
          have hb := Dict.mem_values_ofList hb
          rw [List.map_map] at ha hb
          obtain ⟨n, hn, rfl⟩ := List.mem_map.mp ha
          obtain ⟨n', hn', rfl⟩ := List.mem_map.mp hb
          exact hhash n hn n' hn'
      · rw [← hmap]
        exact fun n hn => (hend n hn).1
      · exact (hend n hn).1.trans (hend n' hn').1.symm

end Pass

/-- **Reconciliation.**  In every state reached without `SYNC` steps from nodes in state `s₀`,
one pass converges exactly if the nodes are alignable. -/
theorem reconcileAll_converges_iff {O : SetOrder} (hA : A.NonRaising) (hr hd : Bool)
    (ids : List String) (s₀ : S) (ops : List (HubOp P)) (hops : ∀ op ∈ ops, op.SyncFree) :
    let hub := Run.exec (perform A O) (withNodes hr hd (ids.map fun i => (i, s₀))) ops
    Converges A hub ↔ Alignable hub := by
  obtain ⟨hlog, hfree, hnodes⟩ := followsLog_exec (O := O) hA hr hd ids s₀ ops hops
  exact converges_iff_alignable hA hlog hfree hnodes

/-- A lagging node is caught up. -/
theorem reconcileAll_converges_mock :
    Converges (mockAdapter id)
      (mockRun [.submit (addProposal 1) [] [], .submit (addProposal 2) [] ["B"]]) :=
  (reconcileAll_converges_iff (mockAdapter_nonRaising id) true true ["A", "B"] 0 _
    (by decide)).mpr ⟨_, rfl, by decide⟩

/-- Node `B` has buffered the event behind the reference's position: it overtakes the
reference, and the pass ends without consensus. -/
theorem reconcileAll_overtakes :
    let hub := mockRun [.submit (addProposal 1) ["B"] [], .submit (addProposal 2) ["A"] []]
    (reconcileAll (mockAdapter id) hub).1.nodes.map (·.committedCausalId) = [1, 2] ∧
      ¬Converges (mockAdapter id) hub := by
  intro hub
  have hno : (reconcileAll (mockAdapter id) hub).2.toOption.map (·.fullConsensusReached)
      = some false := by decide
  refine ⟨by decide, ?_⟩
  rintro ⟨report, hreport, hfull, -⟩
  rw [hreport] at hno
  exact absurd (hfull.symm.trans (Option.some.inj hno)) (by decide)

end ComputationProtocolHub

end QuantumFoundation
