import QuantumFoundation.Physical.Deliveries

/-!
# Lockstep of the physical nodes

When no node is delayed, every event reaches every node.  What it makes of the executor and of
the cursor depends on nothing but these two, so nodes that start in one state stay in one
state: also over events that they reject, for which the engine may already have logged the
first zones, and over submissions that raise before anything is sequenced.
-/

namespace QuantumFoundation

variable {F : Type*} [LT F] [LE F] [OfScientific F]

namespace PhysicalStateNode

/-- What is compared between nodes: the executor, with the state vector, the batches and the
engine, and the cursor. -/
def view (n : PhysicalStateNode F) : MultiZoneExecutor F × ℤ := (n.executor, n.nextExpectedCausalId)

/-- What an event makes of the view depends on nothing but the view. -/
lemma view_receive {E : FloatEnv F} {event : SequencedPhysicalEvent F}
    {a b : PhysicalStateNode F} (h : a.view = b.view) :
    (a.receive E event).view = (b.receive E event).view := by
  have hx : a.executor = b.executor := congrArg Prod.fst h
  have hnext : a.nextExpectedCausalId = b.nextExpectedCausalId := congrArg Prod.snd h
  rw [receive, receive]
  by_cases hk : event.causalId < a.nextExpectedCausalId
  · rw [executeEvent_of_lt hk, executeEvent_of_lt (hnext ▸ hk)]
    exact h
  · obtain ⟨ack, ha, -⟩ := executeEvent_of_le (E := E) (not_lt.mp hk)
    obtain ⟨ack', hb, -⟩ := executeEvent_of_le (E := E) (not_lt.mp (hnext ▸ hk))
    rw [ha, hb, view, view, hx]

end PhysicalStateNode

namespace PhysicalExecutionHub

open PhysicalStateNode

variable {E : FloatEnv F}

/-- The acknowledgements of agreeing nodes carry one hash. -/
lemma uniqueHashes_of_agree {hub : PhysicalExecutionHub F} (h : Run.Agree view hub.nodes)
    (event : SequencedPhysicalEvent F) :
    (uniqueHashes (hub.deliver E event []).acks).length ≤ 1 := by
  refine length_dedup_le_one fun a ha b hb => ?_
  have hhash : ∀ {s : String}, s ∈ (((hub.deliver E event []).acks.filter (·.ok)).map
      (·.globalStateHash)) → ∃ n ∈ hub.nodes, ((n.receive E event).executor).globalHash E = s := by
    intro s hs
    obtain ⟨ack, hack, rfl⟩ := List.mem_map.mp hs
    obtain ⟨n, hn, -, rfl⟩ := (mem_deliver_acks hub event []).mp (List.mem_filter.mp hack).1
    exact ⟨n, hn, executeEvent_globalStateHash.symm⟩
  obtain ⟨n, hn, rfl⟩ := hhash ha
  obtain ⟨n', hn', rfl⟩ := hhash hb
  have hview : (n.receive E event).view = (n'.receive E event).view := view_receive (h n hn n' hn')
  exact congrArg (fun v : MultiZoneExecutor F × ℤ => v.1.globalHash E) hview

/-- The delivery loop halts the hub for rejections only. -/
lemma deliver_haltReason {hub : PhysicalExecutionHub F}
    (h : ∀ k m, hub.haltReason ≠ some (.divergence k m)) (event : SequencedPhysicalEvent F)
    (de : List String) (k : ℤ) (m : ℕ) :
    (hub.deliver E event de).haltReason ≠ some (.divergence k m) := by
  refine List.foldlRecOn (motive := fun d : PhysicalDelivery F =>
    d.haltReason ≠ some (.divergence k m)) hub.nodes _ (h k m) fun d hd n _ => ?_
  rw [deliverTo]
  split
  · exact hd
  · dsimp only
    split
    · simp
    · exact hd

/-- What submissions to all nodes keep: the nodes agree, every receipt says consensus, and the
hub is not halted for divergence. -/
structure InLockstep (hub : PhysicalExecutionHub F) : Prop where
  agree : Run.Agree view hub.nodes
  receipts : ∀ r ∈ hub.receipts, r.consensus = true
  noDivergence : ∀ k m, hub.haltReason ≠ some (.divergence k m)

lemma InLockstep.submitEvent {hub : PhysicalExecutionHub F} (h : InLockstep hub)
    (event : SequencedPhysicalEvent F) : InLockstep (hub.submitEvent E event []).1 := by
  have hconsensus : decide ((uniqueHashes (hub.deliver E event []).acks).length ≤ 1) = true :=
    decide_eq_true (uniqueHashes_of_agree h.agree event)
  refine ⟨?_, fun r hr => ?_, fun k m => ?_⟩
  · show Run.Agree view (hub.deliver E event []).nodes
    rw [deliver_nodes]
    exact h.agree.map fun a b hab => by simpa [delivered] using view_receive hab
  · rcases List.mem_append.mp hr with hr | hr
    · exact h.receipts r hr
    · rw [List.mem_singleton.mp hr]
      exact hconsensus
  · rw [PhysicalExecutionHub.submitEvent, hconsensus]
    exact deliver_haltReason h.noDivergence event [] k m

variable [DecidableLT F]

lemma InLockstep.withNodes [Add F] [Sub F] [Mul F] [Div F] (hr hd : Bool)
    (ids : List String) (initialState : ShipStateVector F) :
    InLockstep (withNodes E hr hd (ids.map fun i => (i, initialState))) where
  agree := by
    rw [withNodes_nodes, List.map_map]
    intro a ha b hb
    obtain ⟨i, -, rfl⟩ := List.mem_map.mp ha
    obtain ⟨j, -, rfl⟩ := List.mem_map.mp hb
    rfl
  receipts := by
    have hnil : (PhysicalExecutionHub.withNodes E hr hd
        (ids.map fun i => (i, initialState))).receipts = [] :=
      withNodes_induction (J := fun hub => hub.receipts = []) _ rfl fun _ _ h => h
    rw [hnil]
    exact fun r hr => absurd hr List.not_mem_nil
  noDivergence := fun k m => withNodes_induction (J := fun hub : PhysicalExecutionHub F =>
    hub.haltReason ≠ some (.divergence k m)) _ (Option.some_ne_none _).symm fun _ _ h => h

variable [DecidableLE F]

/-- A submission without delayed nodes. -/
def submitUndelayed (E : FloatEnv F) (hub : PhysicalExecutionHub F)
    (proposal : PhysicalProposal F) : PhysicalExecutionHub F := (hub.submit E proposal []).1

/-- **Step lemma.** -/
theorem InLockstep.submitUndelayed {hub : PhysicalExecutionHub F} (h : InLockstep hub)
    (proposal : PhysicalProposal F) : InLockstep (submitUndelayed E hub proposal) := by
  rw [PhysicalExecutionHub.submitUndelayed]
  rcases submit_cases (E := E) hub proposal [] with
    ⟨-, seen, exc, hr⟩ | ⟨event, seen, receipt, -, -, -, -, hr⟩
  · rw [hr]
    exact ⟨h.agree, h.receipts, h.noDivergence⟩
  · rw [hr]
    have hseen : InLockstep { hub with seenProposals := seen } :=
      ⟨h.agree, h.receipts, h.noDivergence⟩
    exact hseen.submitEvent event

variable [Add F] [Sub F] [Mul F] [Div F]

/-- **Lockstep.**  Nodes that start from one state vector and of which none is delayed: after
every sequence of submissions, whatever these propose and whether the nodes apply or reject
them, all nodes have the same executor and the same cursor, every receipt says consensus, and
the hub was not halted for divergence. -/
theorem submitUndelayed_lockstep (E : FloatEnv F) (hr hd : Bool) (ids : List String)
    (initialState : ShipStateVector F) (proposals : List (PhysicalProposal F)) :
    let hub := Run.exec (submitUndelayed E)
      (withNodes E hr hd (ids.map fun i => (i, initialState))) proposals
    (∀ n ∈ hub.nodes, ∀ n' ∈ hub.nodes, n.executor = n'.executor ∧
        n.nextExpectedCausalId = n'.nextExpectedCausalId) ∧
      (∀ r ∈ hub.receipts, r.consensus = true) ∧
      ∀ k m, hub.haltReason ≠ some (.divergence k m) := by
  intro hub
  have h : InLockstep hub := Run.invariant_of_forall
    (fun _ proposal h => h.submitUndelayed proposal) (.withNodes hr hd ids initialState) proposals
  exact ⟨fun n hn n' hn' => Prod.ext_iff.mp (h.agree n hn n' hn'), h.receipts, h.noDivergence⟩

end PhysicalExecutionHub

end QuantumFoundation
