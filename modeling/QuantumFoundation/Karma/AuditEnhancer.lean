import QuantumFoundation.Lib.Decoding
import QuantumFoundation.Lib.HashTree

/-!
# The Merkle root of the audit trail

The loop of `audit_enhancer.py` over the hashes of the entries of a day.  An odd level is made even
by its last hash once more, so the root alone does not fix the list; together with the number of
entries, which a snapshot has next to the root, it does.
-/

namespace QuantumFoundation.AuditEnhancer

open HashTree (above combined neighbours)

variable (sha256 : String → String)

/-! ### The loop -/

/-- `hashes.append(hashes[-1])`, if the number of hashes is odd. -/
def evened (hashes : List String) : List String :=
  if hashes.length % 2 = 1 then hashes ++ hashes.getLast?.toList else hashes

/-- The hashes of the pairs. -/
def pairHashes : List String → List String
  | a :: b :: hashes => sha256 (a ++ b) :: pairHashes hashes
  | _ => []

/-- The loop, which has not ended if there is no fuel left. -/
def merkleLoop : ℕ → List String → Option (List String)
  | 0, hashes => if 1 < hashes.length then none else some hashes
  | fuel + 1, hashes =>
    if 1 < hashes.length then merkleLoop fuel (pairHashes sha256 (evened hashes)) else some hashes

/-- `_create_merkle_root`. -/
def createMerkleRoot (fuel : ℕ) (hashes : List String) : Option String :=
  if hashes = [] then some (sha256 "empty")
  else if hashes.length = 1 then hashes.head?
  else (merkleLoop sha256 fuel hashes).bind List.head?

/-- The call ends and returns the root. -/
def Returns (hashes : List String) (root : String) : Prop :=
  ∃ fuel, createMerkleRoot sha256 fuel hashes = some root

/-! ### Levels -/

/-- The hash of two neighbours. -/
def parent (a b : String) : String := sha256 (a ++ b)

/-- The texts that are hashed on the way to the root. -/
def hashedTexts (hashes : List String) : List String :=
  (combined (parent sha256) (Nat.clog 2 hashes.length) hashes).map fun p => p.1 ++ p.2

lemma evened_cons_cons (a b : String) (hashes : List String) :
    evened (a :: b :: hashes) = a :: b :: evened hashes := by
  have hmod : (hashes.length + 1 + 1) % 2 = hashes.length % 2 := Nat.add_mod_right _ 2
  rw [evened, evened, List.length_cons, List.length_cons, hmod]
  split_ifs with hodd
  · cases hashes with
    | nil => exact absurd hodd (by decide)
    | cons c hashes => rfl
  · rfl

/-- A round of the loop goes to the level above. -/
lemma pairHashes_evened (hashes : List String) :
    pairHashes sha256 (evened hashes) = above (parent sha256) hashes := by
  fun_induction neighbours hashes with
  | case1 => rfl
  | case2 a => rfl
  | case3 a b hashes ih =>
    rw [evened_cons_cons, pairHashes, ih]
    rfl

/-- **The loop** ends after as many rounds as the tree has levels. -/
theorem merkleLoop_eq (fuel : ℕ) (hashes : List String) :
    merkleLoop sha256 fuel hashes = if Nat.clog 2 hashes.length ≤ fuel then
      some ((above (parent sha256))^[Nat.clog 2 hashes.length] hashes) else none := by
  induction fuel generalizing hashes with
  | zero =>
    by_cases hone : 1 < hashes.length
    · have hpos : ¬Nat.clog 2 hashes.length ≤ 0 := by
        rw [Nat.clog_of_two_le (by decide) hone]
        omega
      rw [merkleLoop, if_pos hone, if_neg hpos]
    · rw [merkleLoop, if_neg hone, Nat.clog_of_right_le_one (not_lt.mp hone)]
      rfl
  | succ fuel ih =>
    by_cases hone : 1 < hashes.length
    · have hclog : Nat.clog 2 hashes.length
          = Nat.clog 2 (above (parent sha256) hashes).length + 1 := by
        rw [Nat.clog_of_two_le (by decide) hone, HashTree.length_above]
        rfl
      rw [merkleLoop, if_pos hone, pairHashes_evened, ih, hclog]
      simp only [Nat.add_le_add_iff_right, Function.iterate_succ_apply]
    · rw [merkleLoop, if_neg hone, Nat.clog_of_right_le_one (not_lt.mp hone),
        if_pos (Nat.zero_le _)]
      rfl

lemma createMerkleRoot_of_ne_nil {hashes : List String} (h : hashes ≠ []) (fuel : ℕ) :
    createMerkleRoot sha256 fuel hashes = if Nat.clog 2 hashes.length ≤ fuel then
      ((above (parent sha256))^[Nat.clog 2 hashes.length] hashes).head? else none := by
  rw [createMerkleRoot, if_neg h]
  by_cases hone : hashes.length = 1
  · rw [if_pos hone, Nat.clog_of_right_le_one hone.le, if_pos (Nat.zero_le _)]
    rfl
  · rw [if_neg hone, merkleLoop_eq]
    split_ifs <;> rfl

/-- **Termination.**  The call returns for every list. -/
theorem exists_returns (hashes : List String) : ∃ root, Returns sha256 hashes root := by
  by_cases h : hashes = []
  · exact ⟨sha256 "empty", 0, if_pos h⟩
  · obtain ⟨root, hroot⟩ := List.length_eq_one_iff.mp
      (HashTree.length_iterate_above (c := parent sha256) h)
    refine ⟨root, Nat.clog 2 hashes.length, ?_⟩
    rw [createMerkleRoot_of_ne_nil sha256 h, if_pos le_rfl, hroot]
    rfl

variable {sha256}

/-- What is returned is on the last level. -/
lemma iterate_of_returns {hashes : List String} (h : hashes ≠ []) {root : String}
    (hroot : Returns sha256 hashes root) :
    (above (parent sha256))^[Nat.clog 2 hashes.length] hashes = [root] := by
  obtain ⟨fuel, hfuel⟩ := hroot
  obtain ⟨node, hnode⟩ := List.length_eq_one_iff.mp
    (HashTree.length_iterate_above (c := parent sha256) h)
  rw [createMerkleRoot_of_ne_nil sha256 h, hnode] at hfuel
  split_ifs at hfuel
  rw [hnode, ← Option.some.inj hfuel]

/-- Two texts that begin with parts of one length. -/
lemma append_inj_of_length {a b a' b' : String} (hlen : a.length = a'.length)
    (h : a ++ b = a' ++ b') : a = a' ∧ b = b' := by
  have hlist : a.toList ++ b.toList = a'.toList ++ b'.toList := by
    rw [← String.toList_append, h, String.toList_append]
  obtain ⟨ha, hb⟩ := List.append_inj hlist (by rwa [String.length_toList, String.length_toList])
  exact ⟨String.toList_inj.mp ha, String.toList_inj.mp hb⟩

lemma evened_evened (hashes : List String) : evened (evened hashes) = evened hashes := by
  by_cases hodd : hashes.length % 2 = 1
  · have hne : hashes ≠ [] := by
      rintro rfl
      exact absurd hodd (by decide)
    have heven : ¬(hashes ++ hashes.getLast?.toList).length % 2 = 1 := by
      rw [List.length_append, List.getLast?_eq_some_getLast hne, Option.toList_some,
        List.length_singleton]
      omega
    rw [evened, evened, if_pos hodd, if_neg heven]
  · rw [evened, evened, if_neg hodd, if_neg hodd]

/-- **The last hash once more** does not change the root of an odd number of hashes. -/
theorem createMerkleRoot_evened {hashes : List String} (h : 1 < hashes.length) (fuel : ℕ) :
    createMerkleRoot sha256 fuel (evened hashes) = createMerkleRoot sha256 fuel hashes := by
  have hlen : hashes.length ≤ (evened hashes).length := by
    rw [evened]
    split_ifs
    · exact List.length_append ▸ Nat.le_add_right _ _
    · exact le_rfl
  have hloop : merkleLoop sha256 fuel (evened hashes) = merkleLoop sha256 fuel hashes := by
    cases fuel with
    | zero => rw [merkleLoop, merkleLoop, if_pos h, if_pos (h.trans_le hlen)]
    | succ fuel =>
      rw [merkleLoop, merkleLoop, if_pos h, if_pos (h.trans_le hlen), evened_evened]
  have hne : ∀ {l : List String}, 1 < l.length → l ≠ [] := fun hl =>
    List.length_pos_iff.mp (Nat.zero_lt_of_lt hl)
  rw [createMerkleRoot, createMerkleRoot, if_neg (hne h), if_neg (hne (h.trans_le hlen)),
    if_neg h.ne', if_neg (h.trans_le hlen).ne', hloop]

/-- **Binding.** -/
theorem eq_of_returns (hsha : ∀ text, (sha256 text).length = 64) {hashes hashes' : List String}
    (hleaves : ∀ leaf ∈ hashes, leaf.length = 64) (hleaves' : ∀ leaf ∈ hashes', leaf.length = 64)
    (hcount : hashes.length = hashes'.length)
    (hinj : ∀ s ∈ hashedTexts sha256 hashes, ∀ t ∈ hashedTexts sha256 hashes',
      sha256 s = sha256 t → s = t) {root : String} (hroot : Returns sha256 hashes root)
    (hroot' : Returns sha256 hashes' root) : hashes = hashes' := by
  by_cases hnil : hashes = []
  · rw [hnil, List.length_nil] at hcount
    rw [hnil, List.length_eq_zero_iff.mp hcount.symm]
  have hnil' : hashes' ≠ [] := by
    rintro rfl
    exact hnil (List.length_eq_zero_iff.mp hcount)
  have hlevel := (iterate_of_returns hnil hroot).trans (iterate_of_returns hnil' hroot').symm
  rw [← hcount] at hlevel
  refine HashTree.eq_of_iterate_above_eq hcount (fun p hp q hq hpq => ?_) hlevel
  have hp64 := HashTree.forall_combined (P := fun s : String => s.length = 64)
    (fun _ _ => hsha _) _ hleaves p hp
  have hq64 := HashTree.forall_combined (P := fun s : String => s.length = 64)
    (fun _ _ => hsha _) _ hleaves' q hq
  have htext : p.1 ++ p.2 = q.1 ++ q.2 := by
    refine hinj _ (List.mem_map.mpr ⟨p, hp, rfl⟩) _ (List.mem_map.mpr ⟨q, ?_, rfl⟩) hpq
    rwa [← hcount]
  obtain ⟨hfst, hsnd⟩ := append_inj_of_length (hp64.1.trans hq64.1.symm) htext
  exact Prod.ext hfst hsnd

/-- **The Merkle root.**  The loop ends for every list, and two lists of the same number of leaves
of 64 characters with the same root are the same, if no two of the texts that are hashed on the way
collide. -/
theorem merkle_root_binds (sha256 : String → String) (hsha : ∀ text, (sha256 text).length = 64) :
    (∀ hashes, ∃ root, Returns sha256 hashes root) ∧
    ∀ hashes hashes' : List String, (∀ leaf ∈ hashes, leaf.length = 64) →
      (∀ leaf ∈ hashes', leaf.length = 64) → hashes.length = hashes'.length →
      (∀ s ∈ hashedTexts sha256 hashes, ∀ t ∈ hashedTexts sha256 hashes',
        sha256 s = sha256 t → s = t) →
      ∀ root, Returns sha256 hashes root → Returns sha256 hashes' root → hashes = hashes' :=
  ⟨exists_returns sha256, fun _ _ hleaves hleaves' hcount hinj _ hroot hroot' =>
    eq_of_returns hsha hleaves hleaves' hcount hinj hroot hroot'⟩

/-! ### Three leaves -/

/-- A leaf. -/
def leaf (c : Char) : String := String.ofList (List.replicate 64 c)

/-- SHA-256 on the nodes over two orders of three leaves. -/
def sha256OfNodes (text : String) : String :=
  if text = leaf 'a' ++ leaf 'b' then
    "fa0dafbf43f1f551e536353e9d1a942a8e86e41a0b58dfeaf264ef217f6b862a"
  else if text = leaf 'c' ++ leaf 'c' then
    "e5dc28d67309c1f3b41b160e5e06c7881007cde8f74949c9cf6c890ad1bdd032"
  else if text = leaf 'a' ++ leaf 'c' then
    "8def7ba4ab0fa01954841fecc38955832e67b63404934baea608a1f95a538182"
  else if text = leaf 'b' ++ leaf 'b' then
    "70ae1c5307f5250d5cb9e40742ba9613fcdf9b8d9eb6dd393330443b2d5effbd"
  else if text = "fa0dafbf43f1f551e536353e9d1a942a8e86e41a0b58dfeaf264ef217f6b862a" ++
      "e5dc28d67309c1f3b41b160e5e06c7881007cde8f74949c9cf6c890ad1bdd032" then
    "f372961e0178fea099eb05057b8b6a363a21f7ee2456e6e17a8f92990d01d1f9"
  else "ebfb1bd89056961071334873a160316d8309f623e758ad70bca9c10606e6391e"

lemma length_sha256OfNodes (text : String) : (sha256OfNodes text).length = 64 := by
  rw [sha256OfNodes]
  split_ifs <;> decide +kernel

/-- The order of the leaves matters. -/
theorem order_of_leaves : ¬∃ root, Returns sha256OfNodes [leaf 'a', leaf 'b', leaf 'c'] root ∧
    Returns sha256OfNodes [leaf 'a', leaf 'c', leaf 'b'] root := fun ⟨root, hroot, hroot'⟩ =>
  absurd ((merkle_root_binds sha256OfNodes length_sha256OfNodes).2
    [leaf 'a', leaf 'b', leaf 'c'] [leaf 'a', leaf 'c', leaf 'b'] (by decide +kernel)
    (by decide +kernel) rfl (by decide +kernel) root hroot hroot') (by decide +kernel)

/-- A list with an odd number of leaves has the same root as the list with the last leaf twice, and
a node has the same root as the list of its leaves. -/
theorem duplicated_leaf : (∀ c, (leaf c).length = 64) ∧ ∀ sha256 : String → String,
    (∃ root, Returns sha256 [leaf 'a', leaf 'b', leaf 'c'] root ∧
      Returns sha256 [leaf 'a', leaf 'b', leaf 'c', leaf 'c'] root) ∧
    ∃ root, Returns sha256 [sha256 (leaf 'a' ++ leaf 'b')] root ∧
      Returns sha256 [leaf 'a', leaf 'b'] root := by
  refine ⟨fun c => by simp [leaf], fun sha256 => ?_⟩
  obtain ⟨root, fuel, hroot⟩ := exists_returns sha256 [leaf 'a', leaf 'b', leaf 'c']
  have hodd : 1 < [leaf 'a', leaf 'b', leaf 'c'].length := by simp
  have hsame := (createMerkleRoot_evened hodd fuel).trans hroot
  exact ⟨⟨root, ⟨fuel, hroot⟩, fuel, hsame⟩, sha256 (leaf 'a' ++ leaf 'b'), ⟨0, rfl⟩, 1, rfl⟩

end QuantumFoundation.AuditEnhancer
