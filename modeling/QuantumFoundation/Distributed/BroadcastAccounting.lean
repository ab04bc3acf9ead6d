import QuantumFoundation.Distributed.Accounting
import QuantumFoundation.Distributed.PropagatingHub

/-!
# Accounting for every event: the propagating hub

On this hub it is the broadcast that loses events: an exception of a node leaves the loop
before the nodes behind it are reached.  A release keeps the held list when a node raises,
but like the other hub's it reaches only the first node of an id.  Together with the
protocol hub: every event is accounted for in every run that avoids these cases
(`every_event_accounted`).

The hub itself keeps no note of the events it hands over, so its nodes are given a record
(`erase_exec` says that the run is that of the hub without it).
-/

namespace QuantumFoundation

variable {S P : Type*}

namespace PropagatingHub

/-- A propagating node with a record of the events handed to it. -/
abbrev RecordedNode (S P : Type*) := PropagatingStateNode S P × List (ExecutionEvent P)

variable (A : Adapter S P)

/-- Propagating nodes that keep a record of the events handed to them. -/
abbrev recordedReceiver : Receiver (RecordedNode S P) P := (propagatingReceiver A).recorded

/-- The node's adapter takes the event and all that it makes due. -/
def Takes (n : PropagatingStateNode S P) (event : ExecutionEvent P) : Prop :=
  A.Applies n.adapterState (n.dueWith event)

instance (n : PropagatingStateNode S P) (event : ExecutionEvent P) : Decidable (Takes A n event) :=
  inferInstanceAs (Decidable (A.Applies _ _))

variable {A}

lemma receiveEvent_none_iff (event : ExecutionEvent P) (n : RecordedNode S P) :
    ((recordedReceiver A).receiveEvent event n).2 = none ↔ Takes A n.1 event :=
  n.1.toDistributedStateNode.receiveEvent_none_iff event

@[simp] lemma receiveEvent_nodeId (event : ExecutionEvent P) (n : RecordedNode S P) :
    ((recordedReceiver A).receiveEvent event n).1.1.nodeId = n.1.nodeId :=
  n.1.toDistributedStateNode.receiveEvent_nodeId event

@[simp] lemma receiveEvent_record (event : ExecutionEvent P) (n : RecordedNode S P) :
    ((recordedReceiver A).receiveEvent event n).1.2 = n.2 ++ [event] := rfl

/-! ### The delivery loop -/

section Broadcast

variable (event : ExecutionEvent P) (ex de : List String)

lemma mem_keys_broadcastLoop (ns : List (RecordedNode S P))
    (held : Dict String (List (ExecutionEvent P))) (k : String) :
    k ∈ (broadcastLoop (recordedReceiver A) event ex de ns held).2.1.keys ↔ k ∈ held.keys := by
  induction ns generalizing held with
  | nil => exact Iff.rfl
  | cons n ns ih =>
    rw [broadcastLoop]
    split
    · exact ih held
    · split
      · exact (ih _).trans Dict.mem_keys_modify
      · rcases (recordedReceiver A).receiveEvent event n with ⟨n', _ | exc⟩
        · exact ih held
        · exact Iff.rfl

/-- The loop takes nothing from a held list. -/
lemma listAt_broadcastLoop (ns : List (RecordedNode S P))
    (held : Dict String (List (ExecutionEvent P))) (k : String) :
    held.listAt k ⊆ (broadcastLoop (recordedReceiver A) event ex de ns held).2.1.listAt k := by
  induction ns generalizing held with
  | nil => exact List.Subset.refl _
  | cons n ns ih =>
    rw [broadcastLoop]
    split
    · exact ih held
    · split
      · refine List.Subset.trans ?_ (ih _)
        rw [Dict.listAt_modify_append]
        split
        · exact List.subset_append_left _ _
        · exact List.Subset.refl _
      · rcases (recordedReceiver A).receiveEvent event n with ⟨n', _ | exc⟩
        · exact ih held
        · exact List.Subset.refl _

/-- A node after the loop is a node before it, with no less on its record. -/
lemma mem_broadcastLoop {ns : List (RecordedNode S P)}
    {held : Dict String (List (ExecutionEvent P))} {n' : RecordedNode S P}
    (h : n' ∈ (broadcastLoop (recordedReceiver A) event ex de ns held).1) :
    ∃ n ∈ ns, n'.1.nodeId = n.1.nodeId ∧ n.2 ⊆ n'.2 := by
  induction ns generalizing held with
  | nil => exact absurd h (by simp [broadcastLoop])
  | cons n ns ih =>
    have hself : ∃ m ∈ n :: ns, n.1.nodeId = m.1.nodeId ∧ m.2 ⊆ n.2 :=
      ⟨n, List.mem_cons_self, rfl, List.Subset.refl _⟩
    have hrest : ∀ {held'}, n' ∈ (broadcastLoop (recordedReceiver A) event ex de ns held').1 →
        ∃ m ∈ n :: ns, n'.1.nodeId = m.1.nodeId ∧ m.2 ⊆ n'.2 := fun h' => by
      obtain ⟨m, hm, hmn⟩ := ih h'
      exact ⟨m, List.mem_cons_of_mem _ hm, hmn⟩
    have hid := receiveEvent_nodeId (A := A) event n
    have hrec := receiveEvent_record (A := A) event n
    rw [broadcastLoop] at h
    split at h
    · rcases List.mem_cons.mp h with rfl | h
      · exact hself
      · exact hrest h
    · split at h
      · rcases List.mem_cons.mp h with rfl | h
        · exact hself
        · exact hrest h
      · rcases hr : (recordedReceiver A).receiveEvent event n with ⟨m, _ | exc⟩
        · rw [hr] at h hid hrec
          rcases List.mem_cons.mp h with rfl | h
          · exact ⟨n, List.mem_cons_self, hid, hrec ▸ List.subset_append_left _ _⟩
          · exact hrest h
        · rw [hr] at h hid hrec
          rcases List.mem_cons.mp h with rfl | h
          · exact ⟨n, List.mem_cons_self, hid, hrec ▸ List.subset_append_left _ _⟩
          · exact ⟨n', List.mem_cons_of_mem _ h, rfl, List.Subset.refl _⟩

variable (A) in
/-- No node that is reached raises while a node behind it is not excluded. -/
def NoneBehind (ns : List (RecordedNode S P)) : Prop :=
  ns.Pairwise fun n n' =>
    n.1.nodeId ∉ ex → n.1.nodeId ∉ de → ¬Takes A n.1 event → n'.1.nodeId ∈ ex

instance (ns : List (RecordedNode S P)) : Decidable (NoneBehind A event ex de ns) :=
  inferInstanceAs (Decidable (ns.Pairwise _))

/-- After the loop the event is accounted for with every node, if no node is left behind. -/
lemma settles_broadcastLoop {ns : List (RecordedNode S P)}
    {held : Dict String (List (ExecutionEvent P))} (h : NoneBehind A event ex de ns)
    (hkeys : ∀ n ∈ ns, n.1.nodeId ∈ held.keys) {n' : RecordedNode S P}
    (hn' : n' ∈ (broadcastLoop (recordedReceiver A) event ex de ns held).1) :
    n'.1.nodeId ∈ ex ∨ event ∈ n'.2 ∨
      event ∈ (broadcastLoop (recordedReceiver A) event ex de ns held).2.1.listAt n'.1.nodeId := by
  induction ns generalizing held with
  | nil => exact absurd hn' (by simp [broadcastLoop])
  | cons n ns ih =>
    obtain ⟨hbehind, htail⟩ := List.pairwise_cons.mp h
    have hkeys' : ∀ m ∈ ns, m.1.nodeId ∈ held.keys := fun m hm =>
      hkeys m (List.mem_cons_of_mem _ hm)
    rw [broadcastLoop] at hn' ⊢
    split at hn'
    · next hex =>
      rw [if_pos hex]
      rcases List.mem_cons.mp hn' with rfl | hn'
      · exact Or.inl hex
      · exact ih htail hkeys' hn'
    · next hex =>
      rw [if_neg hex]
      split at hn'
      · next hde =>
        rw [if_pos hde]
        have hkeys'' : ∀ m ∈ ns, m.1.nodeId
            ∈ (held.modify n.1.nodeId fun l => l ++ [event]).keys :=
          fun m hm => Dict.mem_keys_modify.mpr (hkeys' m hm)
        rcases List.mem_cons.mp hn' with rfl | hn'
        · refine Or.inr (Or.inr (listAt_broadcastLoop event ex de ns _ _ ?_))
          have hkey := hkeys n' List.mem_cons_self
          show event ∈ (held.modify n'.1.nodeId fun l => l ++ [event]).listAt n'.1.nodeId
          rw [Dict.listAt_modify_append, if_pos ⟨rfl, hkey⟩]
          simp
        · exact ih htail hkeys'' hn'
      · next hde =>
        rw [if_neg hde]
        have hrec := receiveEvent_record (A := A) event n
        have hnone := receiveEvent_none_iff (A := A) event n
        rcases hr : (recordedReceiver A).receiveEvent event n with ⟨m, _ | exc⟩
        · rw [hr] at hn' hrec
          rcases List.mem_cons.mp hn' with rfl | hn'
          · exact Or.inr (Or.inl (hrec ▸ by simp))
          · exact ih htail hkeys' hn'
        · rw [hr] at hn' hrec hnone
          rcases List.mem_cons.mp hn' with rfl | hn'
          · exact Or.inr (Or.inl (hrec ▸ by simp))
          · -- the exception leaves the loop, so all nodes behind must be excluded
            have hraises : ¬Takes A n.1 event := fun ht => by simpa using hnone.mpr ht
            exact Or.inl (hbehind n' hn' hex hde hraises)

end Broadcast

/-! ### The release loop -/

lemma releaseLoop_nodeId (held : List (ExecutionEvent P)) (n : RecordedNode S P) :
    (releaseLoop (recordedReceiver A) held n).1.1.nodeId = n.1.nodeId := by
  induction held generalizing n with
  | nil => rfl
  | cons event held ih =>
    have hid := receiveEvent_nodeId (A := A) event n
    rw [releaseLoop]
    rcases hr : (recordedReceiver A).receiveEvent event n with ⟨m, _ | exc⟩
    · rw [hr] at hid
      exact (ih m).trans hid
    · rw [hr] at hid
      exact hid

lemma record_releaseLoop (held : List (ExecutionEvent P)) (n : RecordedNode S P) :
    n.2 ⊆ (releaseLoop (recordedReceiver A) held n).1.2 := by
  induction held generalizing n with
  | nil => exact List.Subset.refl _
  | cons event held ih =>
    have hone : n.2 ⊆ ((recordedReceiver A).receiveEvent event n).1.2 :=
      List.subset_append_left _ _
    rw [releaseLoop]
    rcases hr : (recordedReceiver A).receiveEvent event n with ⟨m, _ | exc⟩
    · rw [hr] at hone
      exact List.Subset.trans hone (ih m)
    · rw [hr] at hone
      exact hone

/-- If no exception leaves the loop, every held event was handed over. -/
lemma mem_record_releaseLoop {held : List (ExecutionEvent P)} {n : RecordedNode S P}
    (h : (releaseLoop (recordedReceiver A) held n).2 = none) {event : ExecutionEvent P}
    (he : event ∈ held) : event ∈ (releaseLoop (recordedReceiver A) held n).1.2 := by
  induction held generalizing n with
  | nil => exact absurd he (by simp)
  | cons e held ih =>
    have hone : e ∈ ((recordedReceiver A).receiveEvent e n).1.2 := by simp
    rw [releaseLoop] at h ⊢
    rcases hr : (recordedReceiver A).receiveEvent e n with ⟨m, _ | exc⟩
    · rw [hr] at h hone
      rcases List.mem_cons.mp he with rfl | he
      · exact record_releaseLoop held m hone
      · exact ih h he
    · rw [hr] at h
      exact absurd h (by simp)

variable (A) in
/-- The loop runs to its end exactly if the adapter takes every held event. -/
lemma releaseLoop_none_iff (held : List (ExecutionEvent P)) (n : RecordedNode S P) :
    (releaseLoop (recordedReceiver A) held n).2 = none ↔ Run.Along
      (fun n event => ((recordedReceiver A).receiveEvent event n).1) (fun n => Takes A n.1)
      n held := by
  induction held generalizing n with
  | nil => exact iff_of_true rfl trivial
  | cons event held ih =>
    have hnone := receiveEvent_none_iff (A := A) event n
    rw [releaseLoop, Run.Along, ← hnone]
    rcases (recordedReceiver A).receiveEvent event n with ⟨m, _ | exc⟩
    · simpa using ih m
    · simp

lemma findNode_nodeId {hub : PropagatingHub (RecordedNode S P) P} {nodeId : String}
    {i : Fin hub.nodes.length} (h : hub.findNode (recordedReceiver A) nodeId = some i) :
    hub.nodes[i].1.nodeId = nodeId := by
  have hid : (recordedReceiver A).nodeId hub.nodes[i] = nodeId := by
    simpa using (List.findFinIdx?_eq_some_iff.mp h).1
  exact hid

lemma findNode_ne_none {hub : PropagatingHub (RecordedNode S P) P} {nodeId : String}
    (h : hub.findNode (recordedReceiver A) nodeId = none) {n : RecordedNode S P}
    (hn : n ∈ hub.nodes) : n.1.nodeId ≠ nodeId := by
  have hid : (recordedReceiver A).nodeId n ≠ nodeId := by
    simpa using List.findFinIdx?_eq_none_iff.mp h n hn
  exact hid

/-! ### Runs of the hub -/

variable (A) in
/-- The monitored hub after an operation. -/
def monitor (m : Monitored (PropagatingHub (RecordedNode S P) P)) :
    HubTraffic S (ExecutionEvent P) → Monitored (PropagatingHub (RecordedNode S P) P)
  | .registerNode nodeId s =>
    { m with hub := m.hub.registerNode (recordedReceiver A) (.new nodeId s, []) }
  | .send rawEvent excludeNodes delayNodes =>
    { hub := (m.hub.broadcast (recordedReceiver A) rawEvent excludeNodes delayNodes).1
      excludeMap := m.excludeMap.set m.hub.globalCausalId excludeNodes }
  | .releaseHeldEvents nodeId =>
    { m with hub := (m.hub.releaseHeldEvents (recordedReceiver A) nodeId).1 }

/-- The accounts of the hub: an event was handed to a node if it is on the node's record. -/
def accounts (m : Monitored (PropagatingHub (RecordedNode S P) P)) :
    Accounts (ExecutionEvent P) (RecordedNode S P) :=
  Accounts.byAddress (fun n => n.1.nodeId) ExecutionEvent.causalId (fun event n => event ∈ n.2)
    m.hub.eventLog m.hub.nodes m.hub.heldEvents m.excludeMap

instance [DecidableEq P] (m : Monitored (PropagatingHub (RecordedNode S P) P)) :
    Decidable (accounts m).Complete :=
  inferInstanceAs (Decidable (Accounts.byAddress _ _ _ _ _ _ _).Complete)

variable (A) in
/-- The operation lets no event drop: a node joins only if it was excluded from all events so
far, no node that raises has a node behind it that is not excluded, and the held list that a
release empties belongs to one node only. -/
def DropsNothing (m : Monitored (PropagatingHub (RecordedNode S P) P)) :
    HubTraffic S (ExecutionEvent P) → Prop
  | .registerNode nodeId _ => ∀ e ∈ m.hub.eventLog, nodeId ∈ m.excludeMap.listAt e.causalId
  | .send rawEvent excludeNodes delayNodes =>
    NoneBehind A (m.hub.sequence rawEvent) excludeNodes delayNodes m.hub.nodes
  | .releaseHeldEvents nodeId =>
    m.hub.heldEvents.listAt nodeId = [] ∨
      (∀ i : Fin m.hub.nodes.length, m.hub.nodes[i].1.nodeId = nodeId →
        m.hub.findNode (recordedReceiver A) nodeId = some i) ∨
      ∃ i ∈ m.hub.findNode (recordedReceiver A) nodeId,
        ¬Run.Along (fun n event => ((recordedReceiver A).receiveEvent event n).1)
          (fun n => Takes A n.1) m.hub.nodes[i] (m.hub.heldEvents.listAt nodeId)

instance (m : Monitored (PropagatingHub (RecordedNode S P) P)) :
    DecidablePred (DropsNothing (S := S) A m)
  | .registerNode nodeId _ =>
    inferInstanceAs (Decidable (∀ e ∈ m.hub.eventLog, nodeId ∈ m.excludeMap.listAt e.causalId))
  | .send rawEvent ex de =>
    inferInstanceAs (Decidable (NoneBehind A (m.hub.sequence rawEvent) ex de m.hub.nodes))
  | .releaseHeldEvents nodeId =>
    inferInstanceAs (Decidable (m.hub.heldEvents.listAt nodeId = [] ∨ _ ∨ _))

/-- What every operation keeps: the ids of the log are behind the sequencer, and every node
has a held list. -/
structure Kept (m : Monitored (PropagatingHub (RecordedNode S P) P)) : Prop where
  below : ∀ e ∈ m.hub.eventLog, e.causalId < m.hub.globalCausalId
  keys : ∀ n ∈ m.hub.nodes, n.1.nodeId ∈ m.hub.heldEvents.keys

/-- What a release does: the held list is emptied unless the node found raises. -/
lemma releaseHeldEvents_cases (hub : PropagatingHub (RecordedNode S P) P) (nodeId : String) :
    (hub.findNode (recordedReceiver A) nodeId = none ∧
        (hub.releaseHeldEvents (recordedReceiver A) nodeId).1
          = { hub with heldEvents := hub.heldEvents.set nodeId [] }) ∨
      ∃ i, hub.findNode (recordedReceiver A) nodeId = some i ∧
        (hub.releaseHeldEvents (recordedReceiver A) nodeId).1 =
          { hub with
            nodes := hub.nodes.set i (releaseLoop (recordedReceiver A)
              (hub.heldEvents.listAt nodeId) hub.nodes[i]).1
            heldEvents :=
              if (releaseLoop (recordedReceiver A) (hub.heldEvents.listAt nodeId)
                hub.nodes[i]).2 = none then hub.heldEvents.set nodeId []
              else hub.heldEvents } := by
  rw [releaseHeldEvents]
  cases hub.findNode (recordedReceiver A) nodeId with
  | none => exact Or.inl ⟨rfl, rfl⟩
  | some i =>
    refine Or.inr ⟨i, rfl, ?_⟩
    have hheld : (hub.heldEvents.get? nodeId).getD [] = hub.heldEvents.listAt nodeId := rfl
    dsimp only
    rw [hheld]
    rcases releaseLoop (recordedReceiver A) (hub.heldEvents.listAt nodeId) hub.nodes[i] with
      ⟨n, _ | exc⟩ <;> simp

lemma Kept.monitor {m : Monitored (PropagatingHub (RecordedNode S P) P)} (h : Kept m)
    (op : HubTraffic S (ExecutionEvent P)) : Kept (monitor A m op) := by
  cases op with
  | registerNode nodeId s =>
    refine ⟨h.below, fun n hn => Dict.mem_keys_set.mpr ?_⟩
    rcases List.mem_append.mp hn with hn | hn
    · exact Or.inr (h.keys n hn)
    · exact Or.inl (by rw [List.mem_singleton.mp hn]; rfl)
  | send rawEvent ex de =>
    refine ⟨fun e he => ?_, fun n hn => ?_⟩
    · show e.causalId < m.hub.globalCausalId + 1
      rcases List.mem_append.mp he with he | he
      · exact (h.below e he).trans (lt_add_one _)
      · rw [List.mem_singleton.mp he]
        exact lt_add_one _
    · obtain ⟨n₀, hn₀, hid, -⟩ := mem_broadcastLoop _ ex de hn
      rw [hid]
      exact (mem_keys_broadcastLoop _ ex de m.hub.nodes _ _).mpr (h.keys n₀ hn₀)
  | releaseHeldEvents nodeId =>
    rcases m.hub.releaseHeldEvents_cases (A := A) nodeId with ⟨-, heq⟩ | ⟨i, -, heq⟩
    · rw [PropagatingHub.monitor, heq]
      exact ⟨h.below, fun n hn => Dict.mem_keys_set.mpr (Or.inr (h.keys n hn))⟩
    · rw [PropagatingHub.monitor, heq]
      refine ⟨h.below, fun n hn => ?_⟩
      have hkey : n.1.nodeId ∈ m.hub.heldEvents.keys := by
        rcases Run.mem_set_cases hn with rfl | ⟨j, -, rfl⟩
        · rw [releaseLoop_nodeId]
          exact h.keys _ (List.getElem_mem _)
        · exact h.keys _ (List.getElem_mem _)
      dsimp only
      split
      · exact Dict.mem_keys_set.mpr (Or.inr hkey)
      · exact hkey

/-- A broadcast that leaves no node behind leaves the accounts complete. -/
lemma complete_broadcast {m : Monitored (PropagatingHub (RecordedNode S P) P)} (hk : Kept m)
    (h : (accounts m).Complete) {rawEvent : ExecutionEvent P} {ex de : List String}
    (hop : DropsNothing A m (.send rawEvent ex de)) :
    (accounts (monitor A m (.send rawEvent ex de))).Complete := by
  refine h.of_continues (fun n' hn' => ?_) fun e he => ?_
  · obtain ⟨n, hn, hid, hrec⟩ := mem_broadcastLoop _ ex de hn'
    refine ⟨n, hn, fun e he hex => ?_, fun e he hha => hrec hha, fun e he hhe => Or.inr ?_⟩
    · -- the entry of an older event is not the one that is written
      show n'.1.nodeId ∈ (m.excludeMap.set m.hub.globalCausalId ex).listAt _
      rw [hid, Dict.listAt_set, if_neg (hk.below e he).ne]
      exact hex
    · refine listAt_broadcastLoop _ ex de m.hub.nodes m.hub.heldEvents _ ?_
      show e ∈ m.hub.heldEvents.listAt n'.1.nodeId
      rw [hid]
      exact hhe
  · rcases List.mem_append.mp he with he | he
    · exact Or.inl he
    · rw [List.mem_singleton.mp he]
      refine Or.inr fun n' hn' => ?_
      rcases settles_broadcastLoop _ ex de hop hk.keys hn' with hex | hha | hhe
      · refine Or.inl ?_
        have hseq : (m.hub.sequence rawEvent).causalId = m.hub.globalCausalId := rfl
        show _ ∈ (m.excludeMap.set m.hub.globalCausalId ex).listAt _
        rw [hseq, Dict.listAt_set, if_pos rfl]
        exact hex
      · exact Or.inr (Or.inl hha)
      · exact Or.inr (Or.inr hhe)

/-- A release leaves the accounts complete, if the list that it empties belonged to the one
node it was handed to. -/
lemma complete_release {m : Monitored (PropagatingHub (RecordedNode S P) P)}
    (h : (accounts m).Complete) {nodeId : String}
    (hop : DropsNothing A m (.releaseHeldEvents nodeId)) :
    (accounts (monitor A m (.releaseHeldEvents nodeId))).Complete := by
  rcases m.hub.releaseHeldEvents_cases (A := A) nodeId with ⟨hfind, heq⟩ | ⟨i, hfind, heq⟩
  · rw [monitor, heq]
    refine h.of_continues (fun n hn => ?_) fun e he => Or.inl he
    refine ⟨n, hn, fun e he hex => hex, fun e he hha => hha, fun e he hhe => Or.inr ?_⟩
    -- the list that is emptied belongs to no node
    show e ∈ (m.hub.heldEvents.set nodeId []).listAt _
    rw [Dict.listAt_set, if_neg (findNode_ne_none hfind hn)]
    exact hhe
  rw [monitor, heq]
  have hid := findNode_nodeId hfind
  refine h.of_continues (fun n' hn' => ?_) fun e he => Or.inl he
  rcases Run.mem_set_cases hn' with rfl | ⟨j, hj, rfl⟩
  · -- the node of the release
    have hid' := releaseLoop_nodeId (A := A) (m.hub.heldEvents.listAt nodeId) m.hub.nodes[i]
    refine ⟨m.hub.nodes[i], List.getElem_mem _, fun e he hex => ?_,
      fun e he hha => record_releaseLoop _ _ hha, fun e he hhe => ?_⟩
    · show (releaseLoop (recordedReceiver A) _ m.hub.nodes[i]).1.1.nodeId ∈ _
      rw [hid']
      exact hex
    · by_cases hnone : (releaseLoop (recordedReceiver A) (m.hub.heldEvents.listAt nodeId)
          m.hub.nodes[i]).2 = none
      · have hhe' : e ∈ m.hub.heldEvents.listAt nodeId := hid ▸ hhe
        exact Or.inl (mem_record_releaseLoop hnone hhe')
      · refine Or.inr ?_
        show e ∈ Dict.listAt (if _ then _ else _)
          (releaseLoop (recordedReceiver A) _ m.hub.nodes[i]).1.1.nodeId
        rw [if_neg hnone, hid']
        exact hhe
  · -- any other node
    refine ⟨m.hub.nodes[j], List.getElem_mem _, fun e he hex => hex, fun e he hha => hha,
      fun e he hhe => Or.inr ?_⟩
    show e ∈ Dict.listAt (if _ then _ else _) _
    split
    · next hnone =>
      rw [Dict.listAt_set]
      split
      · next hjid =>
        -- another node of the same id, from which nothing was held back
        have hhe' : e ∈ m.hub.heldEvents.listAt nodeId := hjid ▸ hhe
        rcases hop with hnil | honly | ⟨i', hi', hraise⟩
        · rwa [hnil] at hhe'
        · exact absurd (Option.some.inj ((honly j hjid).symm.trans hfind)) hj
        · obtain rfl := Option.some.inj (hfind.symm.trans hi')
          exact absurd ((releaseLoop_none_iff A _ _).mp hnone) hraise
      · exact hhe
    · exact hhe

lemma complete_step {m : Monitored (PropagatingHub (RecordedNode S P) P)} (hk : Kept m)
    (h : (accounts m).Complete) {op : HubTraffic S (ExecutionEvent P)}
    (hop : DropsNothing A m op) : (accounts (monitor A m op)).Complete := by
  cases op with
  | registerNode nodeId s => exact Accounts.Complete.join_byAddress h hop
  | send rawEvent ex de => exact complete_broadcast hk h hop
  | releaseHeldEvents nodeId => exact complete_release h hop

/-- **The propagating hub** drops no event along a run whose operations meet
`DropsNothing`. -/
theorem complete_of_along {ops : List (HubTraffic S (ExecutionEvent P))}
    (hops : Run.Along (monitor A) (DropsNothing A) ⟨.new, .empty⟩ ops) :
    (accounts (Run.exec (monitor A) ⟨.new, .empty⟩ ops)).Complete := by
  refine (Run.invariant (I := fun m => Kept m ∧ (accounts m).Complete) ?_ ⟨?_, ?_⟩ hops).2
  · intro m op hm hop
    exact ⟨hm.1.monitor op, complete_step hm.1 hm.2 hop⟩
  · exact ⟨fun e he => absurd he (by simp [new]), fun n hn => absurd hn (by simp [new])⟩
  · intro e he
    exact absurd he (by simp [accounts, Accounts.byAddress, new])

variable (A) in
/-- The hub after an operation, with nodes that keep no record. -/
def handle (hub : PropagatingHub (PropagatingStateNode S P) P) :
    HubTraffic S (ExecutionEvent P) → PropagatingHub (PropagatingStateNode S P) P
  | .registerNode nodeId s => hub.registerNode (propagatingReceiver A) (.new nodeId s)
  | .send rawEvent excludeNodes delayNodes =>
    (hub.broadcast (propagatingReceiver A) rawEvent excludeNodes delayNodes).1
  | .releaseHeldEvents nodeId => (hub.releaseHeldEvents (propagatingReceiver A) nodeId).1

/-- A monitored run is a run of the hub itself. -/
lemma erase_exec (m : Monitored (PropagatingHub (RecordedNode S P) P))
    (ops : List (HubTraffic S (ExecutionEvent P))) :
    (Run.exec (monitor A) m ops).hub.erase = Run.exec (handle A) m.hub.erase ops := by
  induction ops generalizing m with
  | nil => rfl
  | cons op ops ih =>
    have hstep : (monitor A m op).hub.erase = handle A m.hub.erase op := by
      cases op with
      | registerNode nodeId s => simp [monitor, handle, registerNode, erase, propagatingReceiver,
          Receiver.recorded]
      | send rawEvent ex de => exact (congrArg Prod.fst (erase_broadcast m.hub rawEvent ex de)).symm
      | releaseHeldEvents nodeId =>
        exact (congrArg Prod.fst (erase_releaseHeldEvents m.hub nodeId)).symm
    rw [Run.exec_cons, Run.exec_cons, ih, hstep]

end PropagatingHub

/-- **Every event is accounted for.**  In every run of either hub whose operations drop
nothing, each event of the log has for each registered node been excluded, handed over, or is
held back still. -/
theorem every_event_accounted (A : Adapter S P) (O : SetOrder) :
    (∀ (hr hd : Bool) (ops : List (HubTraffic S (ProposalMessage P))),
      Run.Along (ComputationProtocolHub.monitor A O) (ComputationProtocolHub.DropsNothing A)
        ⟨.new hr hd, .empty⟩ ops →
      (ComputationProtocolHub.accounts
        (Run.exec (ComputationProtocolHub.monitor A O) ⟨.new hr hd, .empty⟩ ops)).Complete) ∧
    ∀ ops : List (HubTraffic S (ExecutionEvent P)),
      Run.Along (PropagatingHub.monitor A) (PropagatingHub.DropsNothing A)
        ⟨.new, .empty⟩ ops →
      (PropagatingHub.accounts
        (Run.exec (PropagatingHub.monitor A) ⟨.new, .empty⟩ ops)).Complete :=
  ⟨fun hr hd _ hops => ComputationProtocolHub.complete_of_along hr hd hops,
    fun _ hops => PropagatingHub.complete_of_along hops⟩

/-- On both hubs, an event that is held back from `B` and released to it later. -/
theorem every_event_accounted_strict :
    (ComputationProtocolHub.accounts (Run.exec
        (ComputationProtocolHub.monitor strictAdapter .lastInsertion) ⟨.new true true, .empty⟩
        [.registerNode "A" 0, .registerNode "B" 0, .send (addProposal 1) [] ["B"],
          .releaseHeldEvents "B"])).Complete ∧
      (PropagatingHub.accounts (Run.exec (PropagatingHub.monitor strictAdapter) ⟨.new, .empty⟩
        [.registerNode "A" 0, .registerNode "B" 0, .send (addEvent 0 1) [] ["B"],
          .releaseHeldEvents "B"])).Complete :=
  ⟨(every_event_accounted strictAdapter .lastInsertion).1 true true _ (by decide),
    (every_event_accounted strictAdapter .lastInsertion).2 _ (by decide)⟩

/-- The protocol hub holds two events back from `A`; at their release `A` refuses the first,
and the second is dropped.  The propagating hub broadcasts an event that `A` refuses, and
never reaches `B`. -/
theorem not_every_event_accounted :
    ¬(ComputationProtocolHub.accounts (Run.exec
        (ComputationProtocolHub.monitor strictAdapter .lastInsertion) ⟨.new true true, .empty⟩
        [.registerNode "A" 0, .send ⟨"p", "A", "ADD", none⟩ [] ["A"],
          .send (addProposal 1) [] ["A"], .releaseHeldEvents "A"])).Complete ∧
      ¬(PropagatingHub.accounts (Run.exec (PropagatingHub.monitor strictAdapter) ⟨.new, .empty⟩
        [.registerNode "A" 0, .registerNode "B" 0, .send (emptyEvent 0) [] []])).Complete := by
  decide

end QuantumFoundation
