import QuantumFoundation.Physical.Retries

/-!
# Fail-stop of the physical hub

A hub that is told to halt on rejections and divergences halts in the very operation in which one
shows: every receipt but the last is one that its flags accept, and the last one is too unless the
hub is halted.  The reason that is recorded names what happened, and a halted hub is left alone by
every operation.
-/

namespace QuantumFoundation

variable {F : Type*} [LT F] [LE F] [OfScientific F]

/-! ## Receipts -/

namespace PhysicalExecutionReceipt

/-- `all_applied`. -/
def allApplied (r : PhysicalExecutionReceipt F) : Bool := r.acks.all (·.ok)

/-- `any_rejected`. -/
def anyRejected (r : PhysicalExecutionReceipt F) : Bool :=
  r.acks.any fun ack => ack.ackType == .rejected

/-- There is no third kind of acknowledgement. -/
theorem allApplied_eq_not_anyRejected (r : PhysicalExecutionReceipt F) :
    r.allApplied = !r.anyRejected := by
  rw [allApplied, anyRejected, List.all_eq_not_any_not]
  congr 2
  funext ack
  rw [PhysicalAck.ok]
  cases ack.ackType <;> rfl

/-- The flags of a hub accept the receipt. -/
def Accepted (haltOnRejection haltOnDivergence : Bool) (r : PhysicalExecutionReceipt F) : Prop :=
  (haltOnRejection = true → r.allApplied = true) ∧ (haltOnDivergence = true → r.consensus = true)

end PhysicalExecutionReceipt

/-- What a halt reason says of the hub. -/
def PhysicalHaltReason.Holds (hub : PhysicalExecutionHub F) : PhysicalHaltReason → Prop
  | .rejected nodeId causalId error => hub.haltOnRejection = true ∧
      ∃ r, hub.receipts.getLast? = some r ∧ r.event.causalId = causalId ∧
        ∃ ack ∈ r.acks, ack.nodeId = nodeId ∧ ack.ackType = .rejected ∧ ack.error = error
  | .rejectedHeld nodeId causalId => hub.haltOnRejection = true ∧
      (∃ event ∈ hub.eventLog, event.causalId = causalId) ∧
      ∃ n ∈ hub.nodes, n.nodeId = nodeId ∧
        ∃ ack ∈ n.ackLog, ack.causalId = causalId ∧ ack.ackType = .rejected
  | .divergence causalId uniqueHashes => hub.haltOnDivergence = true ∧
      ∃ r, hub.receipts.getLast? = some r ∧ r.event.causalId = causalId ∧ r.consensus = false ∧
        (PhysicalExecutionHub.uniqueHashes r.acks).length = uniqueHashes

/-! ## Nodes -/

namespace PhysicalStateNode

variable {E : FloatEnv F} {event : SequencedPhysicalEvent F} {n : PhysicalStateNode F}

lemma executeEvent_ack_nodeId : (n.executeEvent E event).2.nodeId = n.nodeId := by
  rw [executeEvent]
  split
  · rfl
  · rcases n.executor.executeInputs E event.zoneTransitions event.transitionName with
      ⟨x, exc | batch⟩
    · rfl
    · rfl

lemma executeEvent_nodeId : (n.executeEvent E event).1.nodeId = n.nodeId := by
  rw [executeEvent]
  split
  · rfl
  · rfl

/-- A rejection is logged. -/
lemma mem_ackLog_of_rejected (h : (n.executeEvent E event).2.ackType = .rejected) :
    ∃ ack ∈ (n.executeEvent E event).1.ackLog, ack.causalId = event.causalId ∧
      ack.ackType = .rejected := by
  by_cases hk : event.causalId < n.nextExpectedCausalId
  · rw [executeEvent_of_lt hk] at h
    cases h
  · obtain ⟨ack, hr, hid, -⟩ := executeEvent_of_le (E := E) (not_lt.mp hk)
    rw [hr] at h ⊢
    exact ⟨ack, List.mem_append_right _ (List.mem_singleton_self ack), hid, h⟩

end PhysicalStateNode

namespace PhysicalExecutionHub

open PhysicalStateNode

variable {E : FloatEnv F} {hub : PhysicalExecutionHub F}

/-! ## Submissions and releases -/

/-- **What halts the delivery loop.**  It leaves a running hub running if no rejection came, or if
rejections do not halt; otherwise it names the last rejection. -/
theorem deliver_halted (hrunning : hub.halted = false) (hreason : hub.haltReason = none)
    (event : SequencedPhysicalEvent F) (de : List String) :
    let d := hub.deliver E event de
    (d.halted = false ∧ d.haltReason = none ∧
      (hub.haltOnRejection = true → ∀ ack ∈ d.acks, ack.ok = true)) ∨
    (d.halted = true ∧ hub.haltOnRejection = true ∧ ∃ ack ∈ d.acks, ack.ackType = .rejected ∧
      d.haltReason = some (.rejected ack.nodeId event.causalId ack.error)) := by
  refine List.foldlRecOn (motive := fun d : PhysicalDelivery F =>
    (d.halted = false ∧ d.haltReason = none ∧
      (hub.haltOnRejection = true → ∀ ack ∈ d.acks, ack.ok = true)) ∨
    (d.halted = true ∧ hub.haltOnRejection = true ∧ ∃ ack ∈ d.acks, ack.ackType = .rejected ∧
      d.haltReason = some (.rejected ack.nodeId event.causalId ack.error))) hub.nodes _
    (Or.inl ⟨hrunning, hreason, fun _ ack hack => absurd hack List.not_mem_nil⟩) fun d hd n _ => ?_
  rw [deliverTo]
  split
  · exact hd
  · have hid : (n.executeEvent E event).2.nodeId = n.nodeId := executeEvent_ack_nodeId
    rcases hex : n.executeEvent E event with ⟨n', ack⟩
    rw [hex] at hid
    dsimp only
    split
    · next hrejected =>
      refine Or.inr ⟨rfl, hrejected.2, ack, ?_, hrejected.1, ?_⟩
      · exact List.mem_append_right _ (List.mem_singleton_self ack)
      · rw [hid]
    · next hrejected =>
      rcases hd with ⟨hh, hreason, hacks⟩ | ⟨hh, hflag, ack', hack', hrej, hreason⟩
      · refine Or.inl ⟨hh, hreason, fun hflag a ha => ?_⟩
        rcases List.mem_append.mp ha with ha | ha
        · exact hacks hflag a ha
        · rw [List.mem_singleton.mp ha, PhysicalAck.ok]
          cases htype : ack.ackType with
          | applied => rfl
          | rejected => exact absurd ⟨htype, hflag⟩ hrejected
      · exact Or.inr ⟨hh, hflag, ack', List.mem_append_left _ hack', hrej, hreason⟩

/-- The event at which the loop of a release is left was rejected, and the node has logged it. -/
lemma releaseLoop_stopped {hr : Bool} {held : List (SequencedPhysicalEvent F)}
    {n : PhysicalStateNode F} {event : SequencedPhysicalEvent F}
    (h : (releaseLoop E hr held n).2.2 = some event) : hr = true ∧ event ∈ held ∧
      ∃ ack ∈ (releaseLoop E hr held n).1.ackLog, ack.causalId = event.causalId ∧
        ack.ackType = .rejected := by
  induction held generalizing n with
  | nil => exact absurd h.symm (Option.some_ne_none event)
  | cons first held ih =>
    have hlog : (n.executeEvent E first).2.ackType = .rejected → _ := mem_ackLog_of_rejected
    rcases hex : n.executeEvent E first with ⟨n', ack⟩
    rw [hex] at hlog
    rw [releaseLoop, hex] at h ⊢
    dsimp only at h ⊢
    split at h
    · next hrejected =>
      obtain rfl : first = event := Option.some.inj h
      rw [if_pos hrejected]
      exact ⟨hrejected.2, List.mem_cons_self, hlog hrejected.1⟩
    · next hrejected =>
      obtain ⟨hflag, hmem, hack⟩ := ih h
      rw [if_neg hrejected]
      exact ⟨hflag, List.mem_cons_of_mem first hmem, hack⟩

lemma releaseLoop_nodeId (hr : Bool) (held : List (SequencedPhysicalEvent F))
    (n : PhysicalStateNode F) : (releaseLoop E hr held n).1.nodeId = n.nodeId := by
  induction held generalizing n with
  | nil => rfl
  | cons first held ih =>
    have hid : (n.executeEvent E first).1.nodeId = n.nodeId := executeEvent_nodeId
    rcases hex : n.executeEvent E first with ⟨n', ack⟩
    rw [hex] at hid
    rw [releaseLoop, hex]
    dsimp only
    split
    · exact hid
    · exact (ih n').trans hid

/-! ## The invariant -/

/-- A running hub has accepted every receipt; a halted one has a reason that holds, and has
accepted every receipt but the last. -/
structure FailStop (hub : PhysicalExecutionHub F) : Prop extends LogInv hub where
  events : hub.receipts.map (·.event) = hub.eventLog
  running : hub.halted = false → hub.haltReason = none ∧
    ∀ r ∈ hub.receipts, r.Accepted hub.haltOnRejection hub.haltOnDivergence
  halted : hub.halted = true → (∃ reason, hub.haltReason = some reason ∧ reason.Holds hub) ∧
    ∀ r ∈ hub.receipts.dropLast, r.Accepted hub.haltOnRejection hub.haltOnDivergence

lemma FailStop.new (hr hd : Bool) : FailStop (new hr hd : PhysicalExecutionHub F) where
  toLogInv := ⟨trivial, rfl, .empty⟩
  events := rfl
  running _ := ⟨rfl, fun _ hr => absurd hr List.not_mem_nil⟩
  halted h := absurd h Bool.false_ne_true

/-- A reason goes on to hold while the receipts stay as they are. -/
lemma holds_of_receipts_eq {hub hub' : PhysicalExecutionHub F} {reason : PhysicalHaltReason}
    (h : reason.Holds hub) (hr : hub'.haltOnRejection = hub.haltOnRejection)
    (hd : hub'.haltOnDivergence = hub.haltOnDivergence) (hreceipts : hub'.receipts = hub.receipts)
    (hlog : hub'.eventLog = hub.eventLog) (hnodes : hub.nodes ⊆ hub'.nodes) :
    reason.Holds hub' := by
  cases reason with
  | rejected nodeId causalId error =>
    rw [PhysicalHaltReason.Holds, hr, hreceipts]
    exact h
  | rejectedHeld nodeId causalId =>
    obtain ⟨hflag, hevent, n, hn, hack⟩ := h
    rw [PhysicalHaltReason.Holds, hr, hlog]
    exact ⟨hflag, hevent, n, hnodes hn, hack⟩
  | divergence causalId uniqueHashes =>
    rw [PhysicalHaltReason.Holds, hd, hreceipts]
    exact h

lemma FailStop.registerNode (h : FailStop hub) (n : PhysicalStateNode F) :
    FailStop (hub.registerNode n) where
  toLogInv := h.toLogInv.registerNode n
  events := h.events
  running := h.running
  halted hh := by
    obtain ⟨⟨reason, hreason, hholds⟩, hreceipts⟩ := h.halted hh
    exact ⟨⟨reason, hreason, holds_of_receipts_eq hholds rfl rfl rfl rfl
      (List.subset_append_left _ _)⟩, hreceipts⟩

/-- The hub after a submission: it has one more event and its receipt, and it was halted for a
divergence, for a rejection, or not at all. -/
lemma FailStop.submitEvent (h : FailStop hub) (hrunning : hub.halted = false)
    (event : SequencedPhysicalEvent F) (de : List String)
    (hlog : LogInv (hub.submitEvent E event de).1) : FailStop (hub.submitEvent E event de).1 := by
  obtain ⟨hreason, hreceipts⟩ := h.running hrunning
  have hd := deliver_halted (E := E) hrunning hreason event de
  rw [PhysicalExecutionHub.submitEvent] at hlog ⊢
  generalize hub.deliver E event de = d at hd hlog ⊢
  dsimp only at hd hlog ⊢
  generalize hr : PhysicalExecutionReceipt.mk event d.acks
    (decide ((uniqueHashes d.acks).length ≤ 1)) _ = r at hlog ⊢
  have hlast : (hub.receipts ++ [r]).getLast? = some r := List.getLast?_concat
  have hevents : (hub.receipts ++ [r]).map (·.event) = hub.eventLog ++ [event] := by
    rw [List.map_append, h.events, ← hr]
    rfl
  have hearlier : ∀ r' ∈ (hub.receipts ++ [r]).dropLast,
      r'.Accepted hub.haltOnRejection hub.haltOnDivergence := by
    rw [List.dropLast_concat]
    exact hreceipts
  by_cases hdiverged : (!decide ((uniqueHashes d.acks).length ≤ 1) && hub.haltOnDivergence) = true
  · obtain ⟨hno, hflag⟩ := Bool.and_eq_true_iff.mp hdiverged
    simp only [if_pos hdiverged] at hlog ⊢
    refine ⟨hlog, hevents, fun hh => ?_, fun _ => ⟨⟨_, rfl, hflag, r, hlast, ?_, ?_, ?_⟩, hearlier⟩⟩
    · exact absurd hh (by simp)
    · rw [← hr]
    · rw [← hr]
      exact (Bool.not_eq_true' _).mp hno
    · rw [← hr]
  · simp only [if_neg hdiverged] at hlog ⊢
    rcases hd with ⟨hh, hnone, hacks⟩ | ⟨hh, hflag, ack, hack, hrejected, hsome⟩
    · refine ⟨hlog, hevents, fun _ => ⟨hnone, fun r' hr' => ?_⟩, fun hhalted => ?_⟩
      · rcases List.mem_append.mp hr' with hr' | hr'
        · exact hreceipts r' hr'
        · rw [List.mem_singleton.mp hr', ← hr]
          refine ⟨fun hflag => List.all_eq_true.mpr (hacks hflag), fun hflag => ?_⟩
          by_contra hno
          exact hdiverged (Bool.and_eq_true_iff.mpr ⟨by simpa using hno, hflag⟩)
      · rw [hh] at hhalted
        exact absurd hhalted (by simp)
    · refine ⟨hlog, hevents, fun hhalted => ?_, fun _ =>
        ⟨⟨_, hsome, hflag, r, hlast, ?_, ack, ?_, rfl, hrejected, rfl⟩, hearlier⟩⟩
      · rw [hh] at hhalted
        exact absurd hhalted (by simp)
      · rw [← hr]
      · rw [← hr]
        exact hack

section Steps

variable [DecidableLT F] [DecidableLE F]

lemma FailStop.submit (h : FailStop hub) (proposal : PhysicalProposal F) (de : List String) :
    FailStop (hub.submit E proposal de).1 := by
  have hlog : LogInv (hub.submit E proposal de).1 := h.toLogInv.perform (.submit proposal de)
  rcases submit_cases (E := E) hub proposal de with
    ⟨-, seen, exc, hr⟩ | ⟨event, seen, receipt, -, -, hrunning, -, hr⟩
  · rw [hr] at hlog ⊢
    refine ⟨hlog, h.events, h.running, fun hh => ?_⟩
    obtain ⟨⟨reason, hreason, hholds⟩, hreceipts⟩ := h.halted hh
    exact ⟨⟨reason, hreason, holds_of_receipts_eq hholds rfl rfl rfl rfl (List.Subset.refl _)⟩,
      hreceipts⟩
  · have hseen : FailStop { hub with seenProposals := seen } :=
      ⟨⟨h.numbered, h.next, h.held⟩, h.events, h.running,
        fun hh => absurd (hrunning.symm.trans hh) Bool.false_ne_true⟩
    rw [hr] at hlog ⊢
    exact hseen.submitEvent hrunning event de hlog

lemma FailStop.releaseHeldEvents (h : FailStop hub) (nodeId : String) :
    FailStop (hub.releaseHeldEvents E nodeId).1 := by
  have hlog : LogInv (hub.releaseHeldEvents E nodeId).1 :=
    h.toLogInv.perform (.releaseHeldEvents nodeId)
  rw [PhysicalExecutionHub.releaseHeldEvents] at hlog ⊢
  split at hlog
  · next hh =>
    rwa [if_pos hh]
  · next hh =>
    rw [if_neg hh]
    cases hfind : hub.findNode nodeId with
    | none => exact h
    | some i =>
      obtain ⟨hnone, hreceipts⟩ := h.running (by simpa using hh)
      simp only [hfind] at hlog ⊢
      have hfound : hub.nodes[i].nodeId = nodeId := by
        simpa using (List.findFinIdx?_eq_some_iff.mp hfind).1
      have hid := (releaseLoop_nodeId (E := E) hub.haltOnRejection
        ((hub.heldEvents.get? nodeId).getD []) hub.nodes[i]).trans hfound
      have hstopped : ∀ event, (releaseLoop E hub.haltOnRejection
          ((hub.heldEvents.get? nodeId).getD []) hub.nodes[i]).2.2 = some event → _ :=
        fun event => releaseLoop_stopped
      generalize releaseLoop E hub.haltOnRejection ((hub.heldEvents.get? nodeId).getD [])
        hub.nodes[i] = out at hid hstopped hlog ⊢
      obtain ⟨node, acks, stopped⟩ := out
      cases stopped with
      | none => exact ⟨hlog, h.events, fun _ => ⟨hnone, hreceipts⟩, fun hh => absurd hh (by simp)⟩
      | some event =>
        obtain ⟨hflag, hheld, ack, hack, hcausal, hrejected⟩ := hstopped event rfl
        have hnode : node ∈ hub.nodes.set i node := List.mem_set i.isLt node
        refine ⟨hlog, h.events, fun hh => absurd hh (by simp),
          fun _ => ⟨⟨_, rfl, hflag, ⟨event, ?_, rfl⟩, node, hnode, hid, ack, hack, hcausal,
            hrejected⟩, fun r hr => ?_⟩⟩
        · exact h.held.mem_getD hheld
        · exact hreceipts r (List.dropLast_subset _ hr)

/-- **Step lemma.** -/
theorem FailStop.act (h : FailStop hub) (a : PhysicalStateNode F ⊕ PhysicalHubOp F) :
    FailStop (hub.act E a) := by
  rcases a with node | ⟨proposal, de⟩ | nodeId
  · exact h.registerNode node
  · exact h.submit proposal de
  · exact h.releaseHeldEvents nodeId

/-- No operation touches the flags. -/
lemma act_flags (hub : PhysicalExecutionHub F) (a : PhysicalStateNode F ⊕ PhysicalHubOp F) :
    (hub.act E a).haltOnRejection = hub.haltOnRejection ∧
      (hub.act E a).haltOnDivergence = hub.haltOnDivergence := by
  rcases a with node | ⟨proposal, de⟩ | nodeId
  · exact ⟨rfl, rfl⟩
  · rw [act, perform]
    rcases submit_cases (E := E) hub proposal de with
      ⟨-, seen, exc, hr⟩ | ⟨event, seen, receipt, -, -, -, -, hr⟩
    · rw [hr]
      exact ⟨rfl, rfl⟩
    · rw [hr]
      exact ⟨rfl, rfl⟩
  · rw [act, perform, PhysicalExecutionHub.releaseHeldEvents]
    split
    · exact ⟨rfl, rfl⟩
    · cases hub.findNode nodeId <;> exact ⟨rfl, rfl⟩

/-- **Run lemma.** -/
theorem failStop_exec (E : FloatEnv F) (hr hd : Bool)
    (steps : List (PhysicalStateNode F ⊕ PhysicalHubOp F)) :
    let hub := Run.exec (act E) (new hr hd) steps
    FailStop hub ∧ hub.haltOnRejection = hr ∧ hub.haltOnDivergence = hd := by
  refine ⟨Run.invariant_of_forall (fun _ a h => h.act a) (.new hr hd) steps, ?_⟩
  refine Run.invariant_of_forall
    (I := fun hub : PhysicalExecutionHub F =>
      hub.haltOnRejection = hr ∧ hub.haltOnDivergence = hd) (fun hub a hf => ?_) ⟨rfl, rfl⟩ steps
  rwa [(act_flags hub a).1, (act_flags hub a).2]

/-- **Fail-stop.**  In every state a hub can reach, whatever nodes are registered when: there is
one receipt for every event of the log, in its order; every receipt but the last is one that the
flags of the hub accept, and so is the last one while the hub runs; the hub is halted exactly if
it has a reason, and the reason holds; and no operation changes a halted hub. -/
theorem halts_at_first_failure (E : FloatEnv F) (hr hd : Bool)
    (steps : List (PhysicalStateNode F ⊕ PhysicalHubOp F)) :
    let hub := Run.exec (act E) (new hr hd) steps
    hub.receipts.map (·.event) = hub.eventLog ∧
      (∀ r ∈ hub.receipts.dropLast, r.Accepted hr hd) ∧
      (hub.halted = false → ∀ r ∈ hub.receipts, r.Accepted hr hd) ∧
      (hub.halted = true ↔ hub.haltReason ≠ none) ∧
      (∀ reason, hub.haltReason = some reason → reason.Holds hub) ∧
      (hub.halted = true → ∀ ops, Run.exec (perform E) hub ops = hub) := by
  intro hub
  obtain ⟨h, hflags⟩ : FailStop hub ∧ hub.haltOnRejection = hr ∧ hub.haltOnDivergence = hd :=
    failStop_exec E hr hd steps
  have haccepted : ∀ r : PhysicalExecutionReceipt F,
      r.Accepted hub.haltOnRejection hub.haltOnDivergence → r.Accepted hr hd := by
    rw [hflags.1, hflags.2]
    exact fun _ => id
  refine ⟨h.events, fun r hr => ?_, fun hh r hr => haccepted r ((h.running hh).2 r hr),
    ⟨fun hh => ?_, fun hne => ?_⟩, fun reason hreason => ?_, fun hh ops => exec_of_halted hh ops⟩
  · cases hh : hub.halted with
    | false => exact haccepted r ((h.running hh).2 r (List.dropLast_subset _ hr))
    | true => exact haccepted r ((h.halted hh).2 r hr)
  · obtain ⟨⟨reason, hreason, -⟩, -⟩ := h.halted hh
    rw [hreason]
    exact Option.some_ne_none reason
  · by_contra hh
    exact hne (h.running (by simpa using hh)).1
  · cases hh : hub.halted with
    | false => exact absurd ((h.running hh).1.symm.trans hreason).symm (Option.some_ne_none reason)
    | true =>
      obtain ⟨⟨reason', hreason', hholds⟩, -⟩ := h.halted hh
      rw [hreason] at hreason'
      rwa [Option.some.inj hreason']

end Steps

end PhysicalExecutionHub

end QuantumFoundation
