import QuantumFoundation.Distributed.InvariantCheck
import QuantumFoundation.Distributed.SyncReport
import QuantumFoundation.Lib.Plurality

/-!
# Which nodes are reported as diverged

The report of a `SYNC` and the invariant check both look for the most frequent hash, by taking
the maximum over a *set* of hashes, and report the nodes with another one.  The maximum is the
first of the most frequent hashes in the order in which the set is visited; where two hashes are
equally frequent, this order decides who is reported.
-/

namespace QuantumFoundation

variable {S P : Type*}

/-! ### The most frequent hash -/

/-- The hash that the maximum over the set of the hashes gives. -/
def majorityHash (O : SetOrder) (hashes : List String) : String :=
  (maxKey (fun h => (hashes.count h : ℤ)) (O.iter hashes)).getD ""

/-- The ids under which another hash is filed. -/
def divergedFrom (O : SetOrder) (nodeHashes : Dict String String) : List String :=
  (nodeHashes.entries.filter fun p => p.2 ≠ majorityHash O nodeHashes.values).map Prod.fst

/-- Whatever the order, a most frequent hash is found. -/
lemma majorityHash_isMostFrequent (O : SetOrder) {hashes : List String} (h : hashes ≠ []) :
    IsMostFrequent hashes (majorityHash O hashes) := by
  have hmem : ∀ s ∈ hashes, s ∈ O.iter hashes := fun s hs => SetOrder.mem_iter.mpr hs
  cases hmax : maxKey (fun h => (hashes.count h : ℤ)) (O.iter hashes) with
  | none =>
    cases hiter : O.iter hashes with
    | nil =>
      obtain ⟨s, hs⟩ := List.exists_mem_of_ne_nil hashes h
      exact absurd (hiter ▸ hmem s hs) List.not_mem_nil
    | cons x l => simp [hiter, maxKey] at hmax
  | some m =>
    rw [majorityHash, hmax, Option.getD_some]
    refine ⟨SetOrder.mem_iter.mp (maxKey_mem hmax), fun b hb => ?_⟩
    have hle := le_maxKey hmax (hmem b hb)
    exact Int.ofNat_le.mp hle

/-- Every most frequent hash is found in some order: in the one that visits it first. -/
lemma majorityHash_first {hashes : List String} {s : String} (h : IsMostFrequent hashes s) :
    majorityHash (.first s) hashes = s := by
  have hiter : (SetOrder.first s).iter hashes = s :: hashes.dedup.erase s := if_pos h.1
  rw [majorityHash, hiter, maxKey_cons_of_forall_le, Option.getD_some]
  intro y hy
  exact Int.ofNat_le.mpr (h.2 y (List.mem_dedup.mp (List.mem_of_mem_erase hy)))

lemma mem_divergedFrom {O : SetOrder} {nodeHashes : Dict String String} {nodeId h : String}
    (hget : nodeHashes.get? nodeId = some h) :
    nodeId ∈ divergedFrom O nodeHashes ↔ h ≠ majorityHash O nodeHashes.values := by
  have hentry := Dict.get?_eq_some.mp hget
  simp only [divergedFrom, List.mem_map, List.mem_filter, decide_eq_true_eq]
  constructor
  · rintro ⟨p, ⟨hp, hne⟩, rfl⟩
    have hp : nodeHashes.get? p.1 = some p.2 := Dict.get?_eq_some.mpr hp
    rwa [Option.some.inj (hget.symm.trans hp)]
  · exact fun hne => ⟨(nodeId, h), ⟨hentry, hne⟩, rfl⟩

/-- **The order does not matter exactly if there is no tie.** -/
theorem divergedFrom_eq_iff (nodeHashes : Dict String String) :
    (∀ O O', divergedFrom O nodeHashes = divergedFrom O' nodeHashes) ↔
      NoTie nodeHashes.values := by
  constructor
  · intro hsame a b ha hb
    by_contra hne
    -- some node has hash `a`; it is reported when `b` is visited first
    obtain ⟨nodeId, hget⟩ := Dict.mem_values.mp ha.1
    have hreported : nodeId ∈ divergedFrom (.first b) nodeHashes := by
      rw [mem_divergedFrom hget, majorityHash_first hb]
      exact hne
    rw [hsame (.first b) (.first a), mem_divergedFrom hget, majorityHash_first ha] at hreported
    exact hreported rfl
  · intro hno O O'
    rcases eq_or_ne nodeHashes.values [] with hnil | hne
    · have hentries : nodeHashes.entries = [] := List.map_eq_nil_iff.mp hnil
      rw [divergedFrom, divergedFrom, hentries]
      rfl
    · have hmajority : majorityHash O nodeHashes.values = majorityHash O' nodeHashes.values :=
        hno _ _ (majorityHash_isMostFrequent O hne) (majorityHash_isMostFrequent O' hne)
      rw [divergedFrom, divergedFrom, hmajority]

/-- **A node of the majority is never reported.** -/
theorem not_mem_divergedFrom {nodeHashes : Dict String String} {nodeId h : String}
    (hget : nodeHashes.get? nodeId = some h) (hmajority : IsMajority nodeHashes.values h)
    (O : SetOrder) : nodeId ∉ divergedFrom O nodeHashes := by
  rw [mem_divergedFrom hget, not_not]
  have hne := List.ne_nil_of_mem hmajority.isMostFrequent.1
  exact (hmajority.unique (majorityHash_isMostFrequent O hne)).symm

/-- With equal hashes nobody is reported. -/
lemma divergedFrom_eq_nil {O : SetOrder} {nodeHashes : Dict String String}
    (h : ∀ a ∈ nodeHashes.values, ∀ b ∈ nodeHashes.values, a = b) :
    divergedFrom O nodeHashes = [] := by
  refine List.map_eq_nil_iff.mpr (List.filter_eq_nil_iff.mpr fun p hp => ?_)
  have hvalue : p.2 ∈ nodeHashes.values := List.mem_map_of_mem hp
  have hfound := majorityHash_isMostFrequent O (List.ne_nil_of_mem hvalue)
  simpa using h _ hvalue _ hfound.1

/-! ### The two reports -/

/-- The hashes that the report of a `SYNC` compares. -/
def ackHashes (acks : List AckMessage) : Dict String String :=
  Dict.ofList (acks.map fun a => (a.nodeId, a.stateHash))

lemma buildSyncReport_divergedNodes (O : SetOrder) (nodes : List (ProtocolNode S P))
    (event : SequencedEvent P) (acks : List AckMessage) :
    (ComputationProtocolHub.buildSyncReport O nodes event acks).divergedNodes
      = divergedFrom O (ackHashes acks) := rfl

namespace DistributedInvariantChecker

/-- The hashes that the invariant check compares: those of the nodes without pending events. -/
def comparedHashes (A : Adapter S P) (V : VerifyAllInvariants S)
    (hub : ComputationProtocolHub S P) : Dict String String :=
  Dict.ofList (((hub.nodes.map (checkNode A V)).filter fun r => !r.isPartial).map
    fun r => (r.nodeId, r.stateHash))

lemma runFullCheck_divergedNodes (A : Adapter S P) (V : VerifyAllInvariants S) (O : SetOrder)
    (hub : ComputationProtocolHub S P) :
    (runFullCheck A V O hub).divergedNodes = divergedFrom O (comparedHashes A V hub) := by
  by_cases hcons : (runFullCheck A V O hub).globalConsensus = true
  · have hequal : ∀ a ∈ (comparedHashes A V hub).values,
        ∀ b ∈ (comparedHashes A V hub).values, a = b := by
      rw [runFullCheck, Bool.and_eq_true, decide_eq_true_eq, (O.perm _).length_eq] at hcons
      exact length_dedup_le_one_iff.mp hcons.1
    rw [divergedFrom_eq_nil hequal]
    exact if_pos hcons
  · exact if_neg hcons

/-- **Who is reported.**  For all acknowledgements and for all nodes with their results: two
orders of the set of hashes may report different nodes exactly if there is a tie between most
frequent hashes; a node whose hash is held by a majority is not reported in any order. -/
theorem diverged_orders_iff (A : Adapter S P) (V : VerifyAllInvariants S) :
    (∀ (nodes : List (ProtocolNode S P)) (event : SequencedEvent P) (acks : List AckMessage),
      let report := fun O => ComputationProtocolHub.buildSyncReport O nodes event acks
      ((∀ O O', (report O).divergedNodes = (report O').divergedNodes) ↔
          NoTie (ackHashes acks).values) ∧
        ∀ nodeId h, (ackHashes acks).get? nodeId = some h → IsMajority (ackHashes acks).values h →
          ∀ O, nodeId ∉ (report O).divergedNodes) ∧
    ∀ hub : ComputationProtocolHub S P,
      let report := fun O => runFullCheck A V O hub
      ((∀ O O', (report O).divergedNodes = (report O').divergedNodes) ↔
          NoTie (comparedHashes A V hub).values) ∧
        ∀ nodeId h, (comparedHashes A V hub).get? nodeId = some h →
          IsMajority (comparedHashes A V hub).values h →
          ∀ O, nodeId ∉ (report O).divergedNodes := by
  refine ⟨fun nodes event acks => ?_, fun hub => ?_⟩
  · simp only [buildSyncReport_divergedNodes]
    exact ⟨divergedFrom_eq_iff _, fun nodeId h hget hm O => not_mem_divergedFrom hget hm O⟩
  · simp only [runFullCheck_divergedNodes]
    exact ⟨divergedFrom_eq_iff _, fun nodeId h hget hm O => not_mem_divergedFrom hget hm O⟩

/-- Two nodes with different counters: whose hash is visited first decides which of them is
reported, by a `SYNC` as well as by the invariant check. -/
theorem diverged_by_order :
    let hub := mockRun [.submit (addProposal 1) ["B"] []]
    let event := hub.sequence syncProposal
    let acks := (hub.deliver (mockAdapter id) event [] []).acks
    let sync := fun s => (ComputationProtocolHub.buildSyncReport (.first s) hub.nodes event
      acks).divergedNodes
    let check := fun s => (runFullCheck (mockAdapter id) none (.first s) hub).divergedNodes
    (sync "1" = ["B"] ∧ sync "0" = ["A"]) ∧ check "1" = ["B"] ∧ check "0" = ["A"] := by
  decide

end DistributedInvariantChecker

end QuantumFoundation
