import QuantumFoundation.Lib.Accounts
import QuantumFoundation.Distributed.Acknowledgement

/-!
# Accounting for every event: the protocol hub

The hub owes every registered node every event of its log, unless the node was excluded from
it or the event is still held back from it.  The loop that releases held events breaks this:
it stops at a rejection, and the held list is emptied all the same.  Besides, the held lists
are kept by node id, so that a release reaches only the first node of that id.  Where
neither happens the accounts stay complete (`complete_of_along`).
-/

namespace QuantumFoundation

variable {S P : Type*}

/-- An operation on a hub. -/
inductive HubTraffic (S M : Type*)
  /-- Registration of a fresh node with the given state of its adapter. -/
  | registerNode (nodeId : String) (s : S)
  | send (message : M) (excludeNodes delayNodes : List String)
  | releaseHeldEvents (nodeId : String)

/-- A hub, and beside it for each causal id the nodes that were excluded from the event. -/
structure Monitored (H : Type*) where
  hub : H
  excludeMap : Dict ℤ (List String)

namespace ProtocolNode

variable {A : Adapter S P}

variable (A) in
/-- The node does not reject the event. -/
def Takes (n : ProtocolNode S P) (event : SequencedEvent P) : Prop :=
  event.stepType = "SYNC" ∨ A.Applies n.adapterState (n.dueWith event.toExecutionEvent)

instance (n : ProtocolNode S P) (event : SequencedEvent P) : Decidable (Takes A n event) :=
  inferInstanceAs (Decidable (_ ∨ _))

lemma rejected_iff (n : ProtocolNode S P) (event : SequencedEvent P) :
    (n.executeSequencedEvent A event).2.ackType = .rejected ↔ ¬Takes A n event := by
  have hack : (n.executeSequencedEvent A event).2.ackType
      = (executeCore A event n.toDistributedStateNode).2.1 := rfl
  rw [hack, Takes]
  by_cases hs : event.stepType = "SYNC"
  · simp [executeCore, hs]
  · rw [executeCore_ackType_eq hs]
    by_cases happ : A.Applies n.adapterState (n.dueWith event.toExecutionEvent)
    · simp only [happ, not_true_eq_false, if_false, or_true, iff_false]
      split <;> simp
    · simp [happ, hs]

@[simp] lemma executeSequencedEvent_nodeId (n : ProtocolNode S P) (event : SequencedEvent P) :
    (n.executeSequencedEvent A event).1.nodeId = n.nodeId := by
  rw [executeSequencedEvent_core]
  cases event.toInput with
  | receive e => exact DistributedStateNode.receiveEvent_nodeId e n.toDistributedStateNode
  | sync causalId => rfl

/-- The node's record of the events that were handed to it. -/
def handedIds (n : ProtocolNode S P) : List ℤ := n.ackLog.map AckMessage.causalId

lemma executeSequencedEvent_handedIds (n : ProtocolNode S P) (event : SequencedEvent P) :
    (n.executeSequencedEvent A event).1.handedIds = n.handedIds ++ [event.causalId] := by
  rw [executeSequencedEvent, handedIds, List.map_append]
  rfl

end ProtocolNode

namespace ComputationProtocolHub

open ProtocolNode (Takes handedIds)

variable {A : Adapter S P} {O : SetOrder}

/-! ### The delivery loop -/

section Deliver

variable (hr : Bool) (event : SequencedEvent P) (ex de : List String)

lemma deliverTo_pendingHeld (d : Delivery S P) (n : ProtocolNode S P) :
    (deliverTo A hr event ex de d n).pendingHeld =
      if n.nodeId ∉ ex ∧ n.nodeId ∈ de then
        d.pendingHeld.modify n.nodeId fun held => held ++ [event]
      else d.pendingHeld := by
  rw [deliverTo]
  split
  · next h => rw [if_neg fun hn => hn.1 h]
  · split
    · next h h' => rw [if_pos ⟨h, h'⟩]
    · next h h' =>
      rw [if_neg fun hn => h' hn.2]
      dsimp only
      split <;> rfl

lemma mem_keys_deliverTo (d : Delivery S P) (n : ProtocolNode S P) (k : String) :
    k ∈ (deliverTo A hr event ex de d n).pendingHeld.keys ↔ k ∈ d.pendingHeld.keys := by
  rw [deliverTo_pendingHeld]
  split
  · exact Dict.mem_keys_modify
  · exact Iff.rfl

lemma listAt_deliverTo (d : Delivery S P) (n : ProtocolNode S P) (k : String) :
    d.pendingHeld.listAt k ⊆ (deliverTo A hr event ex de d n).pendingHeld.listAt k := by
  rw [deliverTo_pendingHeld]
  split
  · rw [Dict.listAt_modify_append]
    split
    · exact List.subset_append_left _ _
    · exact List.Subset.refl _
  · exact List.Subset.refl _

lemma mem_keys_deliverLoop (ns : List (ProtocolNode S P)) (d : Delivery S P) (k : String) :
    k ∈ (ns.foldl (deliverTo A hr event ex de) d).pendingHeld.keys ↔ k ∈ d.pendingHeld.keys := by
  induction ns generalizing d with
  | nil => exact Iff.rfl
  | cons n ns ih => exact (ih _).trans (mem_keys_deliverTo hr event ex de d n k)

/-- The loop takes nothing from a held list. -/
lemma listAt_deliverLoop (ns : List (ProtocolNode S P)) (d : Delivery S P) (k : String) :
    d.pendingHeld.listAt k
      ⊆ (ns.foldl (deliverTo A hr event ex de) d).pendingHeld.listAt k := by
  induction ns generalizing d with
  | nil => exact List.Subset.refl _
  | cons n ns ih => exact List.Subset.trans (listAt_deliverTo hr event ex de d n k) (ih _)

/-- The event is held back from every node that is delayed and not excluded. -/
lemma mem_listAt_deliverLoop {ns : List (ProtocolNode S P)} {n : ProtocolNode S P} (hn : n ∈ ns)
    (hex : n.nodeId ∉ ex) (hde : n.nodeId ∈ de) (d : Delivery S P)
    (hkey : n.nodeId ∈ d.pendingHeld.keys) :
    event ∈ (ns.foldl (deliverTo A hr event ex de) d).pendingHeld.listAt n.nodeId := by
  induction ns generalizing d with
  | nil => exact absurd hn (by simp)
  | cons m ns ih =>
    rcases List.mem_cons.mp hn with rfl | hn
    · refine listAt_deliverLoop hr event ex de ns _ _ ?_
      rw [deliverTo_pendingHeld, if_pos ⟨hex, hde⟩, Dict.listAt_modify_append, if_pos ⟨rfl, hkey⟩]
      simp
    · exact ih hn _ ((mem_keys_deliverTo hr event ex de d m n.nodeId).mpr hkey)

end Deliver

/-! ### The release loop -/

lemma releaseLoop_nodeId (hr : Bool) (held : List (SequencedEvent P)) (n : ProtocolNode S P) :
    (releaseLoop A hr held n).1.nodeId = n.nodeId := by
  induction held generalizing n with
  | nil => rfl
  | cons event held ih =>
    rw [releaseLoop]
    dsimp only
    split
    · exact n.executeSequencedEvent_nodeId event
    · exact (ih _).trans (n.executeSequencedEvent_nodeId event)

lemma handedIds_releaseLoop (hr : Bool) (held : List (SequencedEvent P)) (n : ProtocolNode S P) :
    n.handedIds ⊆ (releaseLoop A hr held n).1.handedIds := by
  induction held generalizing n with
  | nil => exact List.Subset.refl _
  | cons event held ih =>
    have hone : n.handedIds ⊆ (n.executeSequencedEvent A event).1.handedIds := by
      rw [n.executeSequencedEvent_handedIds]
      exact List.subset_append_left _ _
    rw [releaseLoop]
    dsimp only
    split
    · exact hone
    · exact List.Subset.trans hone (ih _)

/-- A node that takes all the held events but the last is handed all of them. -/
lemma mem_handedIds_releaseLoop {hr : Bool} {held : List (SequencedEvent P)}
    {n : ProtocolNode S P}
    (h : hr = true → Run.Along (fun n event => (n.executeSequencedEvent A event).1) (Takes A) n
      held.dropLast) {event : SequencedEvent P} (he : event ∈ held) :
    event.causalId ∈ (releaseLoop A hr held n).1.handedIds := by
  induction held generalizing n with
  | nil => exact absurd he (by simp)
  | cons e held ih =>
    have hone : e.causalId ∈ (n.executeSequencedEvent A e).1.handedIds := by
      rw [n.executeSequencedEvent_handedIds]
      simp
    rw [releaseLoop]
    dsimp only
    split
    · next hstop =>
      -- the loop is left here, so this is the last of the held events
      cases held with
      | nil =>
        rw [List.mem_singleton.mp he]
        exact hone
      | cons e' held =>
        rw [List.dropLast_cons_of_ne_nil (by simp)] at h
        exact absurd (h hstop.2).1 ((n.rejected_iff e).mp hstop.1)
    · rcases List.mem_cons.mp he with rfl | he
      · exact handedIds_releaseLoop hr held _ hone
      · refine ih (fun hhr => ?_) he
        rw [List.dropLast_cons_of_ne_nil (List.ne_nil_of_mem he)] at h
        exact (h hhr).2

lemma findNode_nodeId {hub : ComputationProtocolHub S P} {nodeId : String}
    {i : Fin hub.nodes.length} (h : hub.findNode nodeId = some i) :
    (hub.nodes.get i).nodeId = nodeId := by
  simpa using (List.findFinIdx?_eq_some_iff.mp h).1

/-! ### Runs of the hub -/

variable (A O) in
/-- The hub after an operation. -/
def handle (hub : ComputationProtocolHub S P) :
    HubTraffic S (ProposalMessage P) → ComputationProtocolHub S P
  | .registerNode nodeId s => hub.registerNode (.new nodeId s)
  | .send proposal excludeNodes delayNodes => (hub.submit A O proposal excludeNodes delayNodes).1
  | .releaseHeldEvents nodeId => (hub.releaseHeldEvents A nodeId).1

variable (A O) in
/-- The monitored hub after an operation. -/
def monitor (m : Monitored (ComputationProtocolHub S P))
    (op : HubTraffic S (ProposalMessage P)) : Monitored (ComputationProtocolHub S P) where
  hub := m.hub.handle A O op
  excludeMap :=
    match op with
    | .send _ excludeNodes _ =>
      if m.hub.halted then m.excludeMap else m.excludeMap.set m.hub.globalCausalId excludeNodes
    | .registerNode _ _ | .releaseHeldEvents _ => m.excludeMap

/-- The accounts of the hub: an event was handed to a node if the node has acknowledged it. -/
def accounts (m : Monitored (ComputationProtocolHub S P)) :
    Accounts (SequencedEvent P) (ProtocolNode S P) :=
  Accounts.byAddress (fun n => n.nodeId) SequencedEvent.causalId
    (fun event n => event.causalId ∈ n.handedIds) m.hub.eventLog m.hub.nodes m.hub.pendingHeld
    m.excludeMap

instance [DecidableEq P] (m : Monitored (ComputationProtocolHub S P)) :
    Decidable (accounts m).Complete :=
  inferInstanceAs (Decidable (Accounts.byAddress _ _ _ _ _ _ _).Complete)

variable (A) in
/-- The operation lets no event drop: a node joins only if it was excluded from all events so
far, and held events are released to the only node of their id, which takes them all, except
perhaps the last, if a rejection halts the hub. -/
def DropsNothing (m : Monitored (ComputationProtocolHub S P)) :
    HubTraffic S (ProposalMessage P) → Prop
  | .registerNode nodeId _ => ∀ e ∈ m.hub.eventLog, nodeId ∈ m.excludeMap.listAt e.causalId
  | .send _ _ _ => True
  | .releaseHeldEvents nodeId =>
    m.hub.halted = true ∨ m.hub.pendingHeld.listAt nodeId = [] ∨
      (∀ i : Fin m.hub.nodes.length, m.hub.nodes[i].nodeId = nodeId →
        m.hub.findNode nodeId = some i) ∧
      (m.hub.haltOnRejection = true → ∀ i ∈ m.hub.findNode nodeId,
        Run.Along (fun n event => (n.executeSequencedEvent A event).1) (Takes A) m.hub.nodes[i]
          (m.hub.pendingHeld.listAt nodeId).dropLast)

instance (m : Monitored (ComputationProtocolHub S P)) :
    DecidablePred (DropsNothing (S := S) A m)
  | .registerNode nodeId _ =>
    inferInstanceAs (Decidable (∀ e ∈ m.hub.eventLog, nodeId ∈ m.excludeMap.listAt e.causalId))
  | .send _ _ _ => .isTrue trivial
  | .releaseHeldEvents nodeId =>
    inferInstanceAs (Decidable (m.hub.halted = true ∨ m.hub.pendingHeld.listAt nodeId = [] ∨ _ ∧ _))

/-- What every operation keeps: the log is in order, and every node has a held list. -/
structure Kept (m : Monitored (ComputationProtocolHub S P)) : Prop extends LogInv m.hub where
  keys : ∀ n ∈ m.hub.nodes, n.nodeId ∈ m.hub.pendingHeld.keys

/-- What a submission to a hub that is not halted does. -/
lemma submit_of_not_halted {hub : ComputationProtocolHub S P} (h : ¬hub.halted)
    (proposal : ProposalMessage P) (ex de : List String) :
    (hub.submit A O proposal ex de).1.eventLog = hub.eventLog ++ [hub.sequence proposal] ∧
      (hub.submit A O proposal ex de).1.nodes
        = hub.nodes.map (delivered A (hub.sequence proposal) ex de) ∧
      (hub.submit A O proposal ex de).1.pendingHeld
        = (hub.deliver A (hub.sequence proposal) ex de).pendingHeld := by
  rw [submit, if_neg h]
  exact ⟨rfl, deliver_nodes _ ex de hub, rfl⟩

/-- What a release does, if it does anything. -/
lemma releaseHeldEvents_cases (hub : ComputationProtocolHub S P) (nodeId : String) :
    (hub.releaseHeldEvents A nodeId).1 = hub ∨
      ∃ i, ¬hub.halted ∧ hub.findNode nodeId = some i ∧
        (hub.releaseHeldEvents A nodeId).1.eventLog = hub.eventLog ∧
        (hub.releaseHeldEvents A nodeId).1.nodes = hub.nodes.set i
          (releaseLoop A hub.haltOnRejection (hub.pendingHeld.listAt nodeId) (hub.nodes.get i)).1 ∧
        (hub.releaseHeldEvents A nodeId).1.pendingHeld = hub.pendingHeld.set nodeId [] := by
  rw [releaseHeldEvents]
  split
  · exact Or.inl rfl
  · next h =>
    cases hub.findNode nodeId with
    | none => exact Or.inl rfl
    | some i => exact Or.inr ⟨i, h, rfl, rfl, rfl, rfl⟩

lemma delivered_nodeId (event : SequencedEvent P) (ex de : List String) (n : ProtocolNode S P) :
    (delivered A event ex de n).nodeId = n.nodeId := by
  rw [delivered]
  split
  · exact n.executeSequencedEvent_nodeId event
  · rfl

lemma Kept.monitor {m : Monitored (ComputationProtocolHub S P)} (h : Kept m)
    (op : HubTraffic S (ProposalMessage P)) : Kept (monitor A O m op) := by
  cases op with
  | registerNode nodeId s =>
    refine ⟨h.toLogInv.registerNode _, fun n hn => ?_⟩
    refine Dict.mem_keys_set.mpr ?_
    rcases List.mem_append.mp hn with hn | hn
    · exact Or.inr (h.keys n hn)
    · exact Or.inl (by rw [List.mem_singleton.mp hn])
  | send proposal ex de =>
    refine ⟨h.toLogInv.submit proposal ex de, fun n hn => ?_⟩
    by_cases hh : m.hub.halted
    · have hsame : (m.hub.submit A O proposal ex de).1 = m.hub := by rw [submit, if_pos hh]
      simp only [ComputationProtocolHub.monitor, handle, hsame] at hn ⊢
      exact h.keys n hn
    · obtain ⟨-, hnodes, hheld⟩ := submit_of_not_halted (A := A) (O := O) hh proposal ex de
      simp only [ComputationProtocolHub.monitor, handle, hnodes, hheld] at hn ⊢
      obtain ⟨n₀, hn₀, rfl⟩ := List.mem_map.mp hn
      rw [delivered_nodeId]
      exact (mem_keys_deliverLoop _ _ ex de m.hub.nodes _ _).mpr (h.keys n₀ hn₀)
  | releaseHeldEvents nodeId =>
    refine ⟨h.toLogInv.perform (A := A) (O := O) (.releaseHeldEvents nodeId), fun n hn => ?_⟩
    rcases m.hub.releaseHeldEvents_cases (A := A) nodeId with hsame | ⟨i, -, -, -, hnodes, hheld⟩
    · simp only [ComputationProtocolHub.monitor, handle, hsame] at hn ⊢
      exact h.keys n hn
    · simp only [ComputationProtocolHub.monitor, handle, hnodes, hheld] at hn ⊢
      refine Dict.mem_keys_set.mpr (Or.inr ?_)
      rcases Run.mem_set_cases hn with rfl | ⟨j, -, rfl⟩
      · rw [releaseLoop_nodeId]
        exact h.keys _ (List.getElem_mem _)
      · exact h.keys _ (List.getElem_mem _)

lemma handedIds_delivered (event : SequencedEvent P) (ex de : List String)
    (n : ProtocolNode S P) : n.handedIds ⊆ (delivered A event ex de n).handedIds := by
  rw [delivered]
  split
  · rw [n.executeSequencedEvent_handedIds]
    exact List.subset_append_left _ _
  · exact List.Subset.refl _

/-- A submission leaves the accounts complete, whatever the nodes make of the event. -/
lemma complete_submit {m : Monitored (ComputationProtocolHub S P)} (hk : Kept m)
    (h : (accounts m).Complete) (proposal : ProposalMessage P) (ex de : List String) :
    (accounts (monitor A O m (.send proposal ex de))).Complete := by
  by_cases hh : m.hub.halted
  · have hsame : (m.hub.submit A O proposal ex de).1 = m.hub := by rw [submit, if_pos hh]
    have hm : monitor A O m (.send proposal ex de) = m := by
      rw [monitor, handle, hsame]
      simp [hh]
    rwa [hm]
  obtain ⟨hlog, hnodes, hheld⟩ := submit_of_not_halted (A := A) (O := O) hh proposal ex de
  have hmap : (monitor A O m (.send proposal ex de)).excludeMap
      = m.excludeMap.set m.hub.globalCausalId ex := if_neg hh
  have hmem : (accounts (monitor A O m (.send proposal ex de))).members
      = m.hub.nodes.map (delivered A (m.hub.sequence proposal) ex de) := hnodes
  have hsent : (accounts (monitor A O m (.send proposal ex de))).sent
      = m.hub.eventLog ++ [m.hub.sequence proposal] := hlog
  refine h.of_continues (fun n' hn' => ?_) fun e he => ?_
  · rw [hmem] at hn'
    obtain ⟨n, hn, rfl⟩ := List.mem_map.mp hn'
    refine ⟨n, hn, fun e he hex => ?_, fun e he hha => ?_, fun e he hhe => Or.inr ?_⟩
    · -- the entry of an older event is not the one that is written
      have hne : e.causalId ≠ m.hub.globalCausalId := by
        have := hk.numbered.bounds he
        have := hk.next
        omega
      show (delivered A _ ex de n).nodeId ∈ _
      rw [delivered_nodeId, hmap, Dict.listAt_set, if_neg hne]
      exact hex
    · exact handedIds_delivered _ ex de n hha
    · show e ∈ (m.hub.submit A O proposal ex de).1.pendingHeld.listAt
        (delivered A _ ex de n).nodeId
      rw [delivered_nodeId, hheld]
      exact listAt_deliverLoop _ _ ex de m.hub.nodes _ _ hhe
  · rw [hsent] at he
    rcases List.mem_append.mp he with he | he
    · exact Or.inl he
    · rw [List.mem_singleton.mp he, hmem]
      refine Or.inr fun n' hn' => ?_
      obtain ⟨n, hn, rfl⟩ := List.mem_map.mp hn'
      by_cases hex : n.nodeId ∈ ex
      · refine Or.inl ?_
        have hseq : (m.hub.sequence proposal).causalId = m.hub.globalCausalId := rfl
        show (delivered A _ ex de n).nodeId ∈ _
        rw [delivered_nodeId, hmap, Dict.listAt_set, if_pos hseq]
        exact hex
      · by_cases hde : n.nodeId ∈ de
        · refine Or.inr (Or.inr ?_)
          show _ ∈ (m.hub.submit A O proposal ex de).1.pendingHeld.listAt
            (delivered A _ ex de n).nodeId
          rw [delivered_nodeId, hheld]
          exact mem_listAt_deliverLoop _ _ ex de hn hex hde _ (hk.keys n hn)
        · refine Or.inr (Or.inl ?_)
          show _ ∈ (delivered A _ ex de n).handedIds
          rw [delivered, if_pos ⟨hex, hde⟩, n.executeSequencedEvent_handedIds]
          simp

/-- A release that hands over all that was held leaves the accounts complete. -/
lemma complete_release {m : Monitored (ComputationProtocolHub S P)} (h : (accounts m).Complete)
    {nodeId : String} (hop : DropsNothing A m (.releaseHeldEvents nodeId)) :
    (accounts (monitor A O m (.releaseHeldEvents nodeId))).Complete := by
  rcases m.hub.releaseHeldEvents_cases (A := A) nodeId with
    hsame | ⟨i, hh, hfind, hlog, hnodes, hheld⟩
  · have hm : monitor A O m (.releaseHeldEvents nodeId) = m := by rw [monitor, handle, hsame]
    rwa [hm]
  have hid : m.hub.nodes[i].nodeId = nodeId := findNode_nodeId hfind
  have hmem : (accounts (monitor A O m (.releaseHeldEvents nodeId))).members
      = m.hub.nodes.set i (releaseLoop A m.hub.haltOnRejection (m.hub.pendingHeld.listAt nodeId)
        m.hub.nodes[i]).1 := hnodes
  have hsent : (accounts (monitor A O m (.releaseHeldEvents nodeId))).sent = (accounts m).sent :=
    hlog
  refine h.of_continues (fun n' hn' => ?_) fun e he => Or.inl (hsent ▸ he)
  rw [hmem] at hn'
  rcases Run.mem_set_cases hn' with rfl | ⟨j, hj, rfl⟩
  · -- the node of the release
    have hid' : (releaseLoop A m.hub.haltOnRejection (m.hub.pendingHeld.listAt nodeId)
        m.hub.nodes[i]).1.nodeId = m.hub.nodes[i].nodeId := releaseLoop_nodeId _ _ _
    refine ⟨m.hub.nodes[i], List.getElem_mem _, fun e he hex => ?_,
      fun e he hha => handedIds_releaseLoop _ _ _ hha, fun e he hhe => Or.inl ?_⟩
    · show (releaseLoop A _ _ m.hub.nodes[i]).1.nodeId ∈ _
      rw [hid']
      exact hex
    · have hhe' : e ∈ m.hub.pendingHeld.listAt nodeId := hid ▸ hhe
      rcases hop with hhalt | hnil | ⟨-, hall⟩
      · exact absurd hhalt hh
      · rw [hnil] at hhe'
        exact absurd hhe' (by simp)
      · exact mem_handedIds_releaseLoop (fun hr => hall hr i hfind) hhe'
  · -- any other node
    refine ⟨m.hub.nodes[j], List.getElem_mem _, fun e he hex => hex, fun e he hha => hha,
      fun e he hhe => Or.inr ?_⟩
    show e ∈ (m.hub.releaseHeldEvents A nodeId).1.pendingHeld.listAt _
    rw [hheld, Dict.listAt_set]
    split
    · next hjid =>
      -- another node of the same id, from which nothing was held back
      have hhe' : e ∈ m.hub.pendingHeld.listAt nodeId := hjid ▸ hhe
      rcases hop with hhalt | hnil | ⟨honly, -⟩
      · exact absurd hhalt hh
      · rwa [hnil] at hhe'
      · exact absurd (Option.some.inj ((honly j hjid).symm.trans hfind)) hj
    · exact hhe

lemma complete_step {m : Monitored (ComputationProtocolHub S P)} (hk : Kept m)
    (h : (accounts m).Complete) {op : HubTraffic S (ProposalMessage P)}
    (hop : DropsNothing A m op) : (accounts (monitor A O m op)).Complete := by
  cases op with
  | registerNode nodeId s => exact Accounts.Complete.join_byAddress h hop
  | send proposal ex de => exact complete_submit hk h proposal ex de
  | releaseHeldEvents nodeId => exact complete_release h hop

/-- **The protocol hub** drops no event along a run whose operations meet `DropsNothing`. -/
theorem complete_of_along (hr hd : Bool) {ops : List (HubTraffic S (ProposalMessage P))}
    (hops : Run.Along (monitor A O) (DropsNothing A) ⟨.new hr hd, .empty⟩ ops) :
    (accounts (Run.exec (monitor A O) ⟨.new hr hd, .empty⟩ ops)).Complete := by
  refine (Run.invariant (I := fun m => Kept m ∧ (accounts m).Complete) ?_ ⟨?_, ?_⟩ hops).2
  · intro m op hm hop
    exact ⟨hm.1.monitor op, complete_step hm.1 hm.2 hop⟩
  · exact ⟨.new hr hd, fun n hn => absurd hn (by simp [new])⟩
  · intro e he
    exact absurd he (by simp [accounts, Accounts.byAddress, new])

end ComputationProtocolHub

end QuantumFoundation
