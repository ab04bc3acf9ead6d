import Mathlib.Data.List.Induction
import Mathlib.Data.List.Nodup
import Mathlib.Data.List.Sort

/-!
# Insertion-ordered dictionaries

A finite map kept as the list of its entries in the order in which the keys were
first inserted, with the proof that no key occurs twice.  Assigning to a key that is
present replaces its value in place; assigning to a new key appends an entry.  The
iteration order is therefore part of the value, which `AList` does not offer.
-/

namespace QuantumFoundation

/-- A dictionary: its entries in insertion order, with pairwise distinct keys. -/
structure Dict (κ υ : Type*) where
  /-- The entries, oldest key first. -/
  entries : List (κ × υ)
  nodup : (entries.map Prod.fst).Nodup
deriving DecidableEq

namespace Dict

variable {κ υ υ' : Type*}

@[ext] lemma ext {d d' : Dict κ υ} (h : d.entries = d'.entries) : d = d' := by
  cases d; cases d'; cases h; rfl

/-- The dictionary without entries. -/
def empty : Dict κ υ := ⟨[], List.nodup_nil⟩

/-- The keys, in insertion order. -/
def keys (d : Dict κ υ) : List κ := d.entries.map Prod.fst

/-- The values, in the order of their keys. -/
def values (d : Dict κ υ) : List υ := d.entries.map Prod.snd

/-- The number of entries. -/
def size (d : Dict κ υ) : ℕ := d.entries.length

@[simp] lemma keys_empty : (empty : Dict κ υ).keys = [] := rfl

lemma mem_keys {d : Dict κ υ} {k : κ} : k ∈ d.keys ↔ ∃ v, (k, v) ∈ d.entries := by
  simp [keys]

/-- The same entries, in the order of their keys. -/
def sorted [LE κ] [DecidableLE κ] (d : Dict κ υ) : Dict κ υ where
  entries := d.entries.insertionSort fun p q => p.1 ≤ q.1
  nodup := ((List.perm_insertionSort _ d.entries).map _).nodup_iff.mpr d.nodup

lemma mem_entries_sorted [LE κ] [DecidableLE κ] {d : Dict κ υ} {p : κ × υ} :
    p ∈ d.sorted.entries ↔ p ∈ d.entries := List.mem_insertionSort _

lemma entries_sorted_eq_nil [LE κ] [DecidableLE κ] {d : Dict κ υ} :
    d.sorted.entries = [] ↔ d.entries = [] := by
  rw [← List.length_eq_zero_iff, ← List.length_eq_zero_iff, sorted, List.length_insertionSort]

lemma pairwise_sorted [LinearOrder κ] (d : Dict κ υ) :
    d.sorted.entries.Pairwise fun p q => p.1 ≤ q.1 :=
  have : Std.Total fun p q : κ × υ => p.1 ≤ q.1 := ⟨fun p q => le_total p.1 q.1⟩
  have : IsTrans (κ × υ) fun p q => p.1 ≤ q.1 := ⟨fun _ _ _ => le_trans⟩
  List.pairwise_insertionSort _ _

@[simp] lemma sorted_sorted [LinearOrder κ] (d : Dict κ υ) : d.sorted.sorted = d.sorted :=
  ext d.pairwise_sorted.insertionSort_eq

/-- The entries that satisfy a condition. -/
def filter (p : κ × υ → Bool) (d : Dict κ υ) : Dict κ υ where
  entries := d.entries.filter p
  nodup := d.nodup.sublist (List.filter_sublist.map _)

/-- The entries with other values, computed from their keys. -/
def ofKeys (d : Dict κ υ) (f : κ → υ') : Dict κ υ' where
  entries := d.entries.map fun p => (p.1, f p.1)
  nodup := by
    rw [List.map_map]
    exact d.nodup

/-- The entries with their values mapped. -/
def mapValues (f : κ → υ → υ') (d : Dict κ υ) : Dict κ υ' where
  entries := d.entries.map fun p => (p.1, f p.1 p.2)
  nodup := by
    rw [List.map_map]
    exact d.nodup

@[simp] lemma keys_mapValues (f : κ → υ → υ') (d : Dict κ υ) : (d.mapValues f).keys = d.keys := by
  rw [keys, mapValues, List.map_map]
  rfl

lemma mapValues_mapValues {υ'' : Type*} (f : κ → υ → υ') (g : κ → υ' → υ'') (d : Dict κ υ) :
    (d.mapValues f).mapValues g = d.mapValues fun k v => g k (f k v) := by
  ext1
  simp [mapValues]

variable [DecidableEq κ]

/-- The value stored under a key. -/
def get? (d : Dict κ υ) (k : κ) : Option υ := (d.entries.find? fun p => p.1 = k).map Prod.snd

/-- Does the key occur? -/
def contains (d : Dict κ υ) (k : κ) : Bool := decide (k ∈ d.keys)

/-- Remove a key, if it is present. -/
def erase (d : Dict κ υ) (k : κ) : Dict κ υ where
  entries := d.entries.filter fun p => p.1 ≠ k
  nodup := d.nodup.sublist (List.filter_sublist.map _)

/-- Apply a function to the value stored under a key, if it is present. -/
def modify (d : Dict κ υ) (k : κ) (f : υ → υ) : Dict κ υ where
  entries := d.entries.map fun p => if p.1 = k then (p.1, f p.2) else p
  nodup := by
    have : (d.entries.map fun p => if p.1 = k then (p.1, f p.2) else p).map Prod.fst
        = d.entries.map Prod.fst := by
      rw [List.map_map]
      refine List.map_congr_left fun p _ => ?_
      by_cases h : p.1 = k <;> simp [h]
    rw [this]
    exact d.nodup

/-- Append an entry for a key that is not present. -/
def push (d : Dict κ υ) (k : κ) (v : υ) (h : k ∉ d.keys) : Dict κ υ where
  entries := d.entries ++ [(k, v)]
  nodup := by
    rw [List.map_append]
    exact d.nodup.append (by simp) (by simpa [keys] using h)

/-- Assign a value to a key: in place when the key is present, at the end otherwise. -/
def set (d : Dict κ υ) (k : κ) (v : υ) : Dict κ υ :=
  if h : k ∈ d.keys then d.modify k fun _ => v else d.push k v h

/-- The dictionary that a list of assignments, made in order, builds. -/
def ofList (l : List (κ × υ)) : Dict κ υ := l.foldl (fun d p => d.set p.1 p.2) empty

/-! ### Lookup -/

lemma get?_eq_some {d : Dict κ υ} {k : κ} {v : υ} :
    d.get? k = some v ↔ (k, v) ∈ d.entries := by
  constructor
  · intro h
    obtain ⟨p, hp, rfl⟩ := Option.map_eq_some_iff.mp h
    have hk : p.1 = k := by simpa using List.find?_some hp
    have hmem := List.mem_of_find?_eq_some hp
    rwa [← hk]
  · intro h
    have hne : (d.entries.find? fun p => p.1 = k) ≠ none := by
      intro hnone
      exact absurd (List.find?_eq_none.mp hnone _ h) (by simp)
    obtain ⟨p, hp⟩ := Option.ne_none_iff_exists'.mp hne
    have hk : p.1 = k := by simpa using List.find?_some hp
    have hpe : p = (k, v) :=
      List.inj_on_of_nodup_map d.nodup (List.mem_of_find?_eq_some hp) h hk
    rw [get?, hp, hpe]
    rfl

lemma get?_eq_none {d : Dict κ υ} {k : κ} : d.get? k = none ↔ k ∉ d.keys := by
  rw [Option.eq_none_iff_forall_ne_some, mem_keys, not_exists]
  exact forall_congr' fun v => not_congr get?_eq_some

lemma mem_keys_of_get? {d : Dict κ υ} {k : κ} {v : υ} (h : d.get? k = some v) :
    k ∈ d.keys := mem_keys.mpr ⟨v, get?_eq_some.mp h⟩

@[simp] lemma contains_eq_true {d : Dict κ υ} {k : κ} : d.contains k = true ↔ k ∈ d.keys := by
  simp [contains]

lemma get?_eq_none_of_contains {d : Dict κ υ} {k : κ} (h : ¬d.contains k = true) :
    d.get? k = none := by
  rw [get?_eq_none, ← contains_eq_true]
  exact h

@[simp] lemma get?_empty (k : κ) : (empty : Dict κ υ).get? k = none := rfl

lemma get?_erase (d : Dict κ υ) (k j : κ) :
    (d.erase k).get? j = if j = k then none else d.get? j := by
  ext v
  rw [get?_eq_some]
  by_cases hj : j = k
  · simp [erase, hj]
  · simp [erase, hj, get?_eq_some]

lemma get?_modify (d : Dict κ υ) (k j : κ) (f : υ → υ) :
    (d.modify k f).get? j = if j = k then (d.get? j).map f else d.get? j := by
  ext v
  rw [get?_eq_some]
  simp only [modify, List.mem_map]
  by_cases hj : j = k
  · subst hj
    simp only [if_true, Option.map_eq_some_iff, get?_eq_some]
    constructor
    · rintro ⟨⟨i, w⟩, hp, he⟩
      by_cases hi : i = j
      · subst hi
        exact ⟨w, hp, by simpa using he⟩
      · rw [if_neg hi] at he
        exact absurd (congrArg Prod.fst he) hi
    · rintro ⟨w, hw, rfl⟩
      exact ⟨(j, w), hw, by simp⟩
  · rw [if_neg hj, get?_eq_some]
    constructor
    · rintro ⟨⟨i, w⟩, hp, he⟩
      by_cases hi : i = k
      · rw [if_pos hi] at he
        exact absurd ((congrArg Prod.fst he).symm.trans hi) hj
      · rw [if_neg hi] at he
        rwa [← he]
    · intro h
      exact ⟨(j, v), h, by simp [hj]⟩

lemma get?_set (d : Dict κ υ) (k j : κ) (v : υ) :
    (d.set k v).get? j = if j = k then some v else d.get? j := by
  by_cases h : k ∈ d.keys
  · rw [set, dif_pos h, get?_modify]
    by_cases hj : j = k
    · subst hj
      obtain ⟨w, hw⟩ := mem_keys.mp h
      rw [if_pos rfl, if_pos rfl, get?_eq_some.mpr hw]
      rfl
    · rw [if_neg hj, if_neg hj]
  · rw [set, dif_neg h]
    ext w
    rw [get?_eq_some]
    by_cases hj : j = k
    · subst hj
      have : (j, w) ∉ d.entries := fun hw => h (mem_keys.mpr ⟨w, hw⟩)
      simp [push, this, eq_comm]
    · simp [push, hj, get?_eq_some]

@[simp] lemma get?_set_self (d : Dict κ υ) (k : κ) (v : υ) : (d.set k v).get? k = some v := by
  rw [get?_set, if_pos rfl]

/-- A change of one value that does not change it. -/
lemma modify_eq_self {d : Dict κ υ} {k : κ} {f : υ → υ} (h : ∀ v, d.get? k = some v → f v = v) :
    d.modify k f = d := by
  refine ext ((List.map_congr_left fun p hp => ?_).trans (List.map_id _))
  by_cases hk : p.1 = k
  · rw [if_pos hk, h p.2 (get?_eq_some.mpr (hk ▸ hp))]
    rfl
  · rw [if_neg hk]
    rfl

/-- Assigning the value that is stored. -/
lemma set_eq_self {d : Dict κ υ} {k : κ} {v : υ} (h : d.get? k = some v) : d.set k v = d := by
  rw [set, dif_pos (mem_keys_of_get? h)]
  exact modify_eq_self fun w hw => Option.some.inj (h.symm.trans hw)

lemma mem_keys_set {d : Dict κ υ} {k j : κ} {v : υ} :
    j ∈ (d.set k v).keys ↔ j = k ∨ j ∈ d.keys := by
  rw [← not_iff_not, not_or, ← get?_eq_none, ← get?_eq_none, get?_set]
  by_cases hj : j = k <;> simp [hj]

lemma mem_values {d : Dict κ υ} {v : υ} : v ∈ d.values ↔ ∃ k, d.get? k = some v := by
  simp only [values, List.mem_map, get?_eq_some]
  constructor
  · rintro ⟨⟨k, w⟩, hp, rfl⟩
    exact ⟨k, hp⟩
  · rintro ⟨k, hk⟩
    exact ⟨(k, v), hk, rfl⟩

/-! ### Mapping the values -/

lemma get?_mapValues (f : κ → υ → υ') (d : Dict κ υ) (k : κ) :
    (d.mapValues f).get? k = (d.get? k).map (f k) := by
  ext v
  rw [get?_eq_some, Option.map_eq_some_iff]
  simp only [mapValues, List.mem_map, get?_eq_some, Prod.mk.injEq]
  constructor
  · rintro ⟨⟨j, w⟩, hp, rfl, rfl⟩
    exact ⟨w, hp, rfl⟩
  · rintro ⟨w, hp, rfl⟩
    exact ⟨(k, w), hp, rfl, rfl⟩

/-- Mapping leaves a dictionary as it is exactly if it leaves every value as it is. -/
lemma mapValues_eq_self {f : κ → υ → υ} {d : Dict κ υ} :
    d.mapValues f = d ↔ ∀ k v, d.get? k = some v → f k v = v := by
  constructor
  · intro h k v hv
    have hk := get?_mapValues f d k
    rw [h, hv] at hk
    exact (Option.some.inj hk).symm
  · intro h
    ext1
    refine (List.map_congr_left fun p hp => ?_).trans d.entries.map_id
    exact congrArg (Prod.mk p.1) (h p.1 p.2 (get?_eq_some.mpr hp))

lemma mapValues_erase (f : κ → υ → υ') (d : Dict κ υ) (k : κ) :
    (d.erase k).mapValues f = (d.mapValues f).erase k := by
  ext1
  simp only [mapValues, erase, List.filter_map]
  rfl

lemma mapValues_set (f : κ → υ → υ') (d : Dict κ υ) (k : κ) (v : υ) :
    (d.set k v).mapValues f = (d.mapValues f).set k (f k v) := by
  ext1
  by_cases h : k ∈ d.keys
  · rw [set, dif_pos h, set, dif_pos (by rwa [keys_mapValues])]
    simp only [mapValues, modify, List.map_map]
    refine List.map_congr_left fun p _ => ?_
    by_cases hp : p.1 = k <;> simp [hp]
  · rw [set, dif_neg h, set, dif_neg (by rwa [keys_mapValues])]
    simp [mapValues, push]

/-! ### Building from a list -/

lemma ofList_append_singleton (l : List (κ × υ)) (p : κ × υ) :
    ofList (l ++ [p]) = (ofList l).set p.1 p.2 := by
  simp [ofList]

/-- An entry of the dictionary was assigned. -/
lemma mem_of_get?_ofList {l : List (κ × υ)} {k : κ} {v : υ} (h : (ofList l).get? k = some v) :
    (k, v) ∈ l := by
  induction l using List.reverseRecOn with
  | nil => exact absurd h (by simp [ofList])
  | append_singleton l p ih =>
    rw [ofList_append_singleton, get?_set] at h
    rw [List.mem_append, List.mem_singleton]
    split at h
    · next hk => exact Or.inr (by rw [hk, ← Option.some.inj h])
    · exact Or.inl (ih h)

lemma mem_keys_ofList {l : List (κ × υ)} {k : κ} :
    k ∈ (ofList l).keys ↔ k ∈ l.map Prod.fst := by
  induction l using List.reverseRecOn with
  | nil => simp [ofList]
  | append_singleton l p ih =>
    rw [ofList_append_singleton, mem_keys_set, ih, List.map_append, List.mem_append, or_comm]
    exact or_congr_right (by simp)

/-- Assignments to distinct keys are the entries. -/
lemma entries_ofList {l : List (κ × υ)} (h : (l.map Prod.fst).Nodup) :
    (ofList l).entries = l := by
  induction l using List.reverseRecOn with
  | nil => rfl
  | append_singleton l p ih =>
    rw [List.map_append] at h
    have hp : p.1 ∉ (ofList l).keys := by
      rw [mem_keys_ofList]
      exact fun hmem => (List.nodup_append.mp h).2.2 _ hmem _ (by simp) rfl
    rw [ofList_append_singleton, set, dif_neg hp]
    show (ofList l).entries ++ [p] = l ++ [p]
    rw [ih (List.nodup_append.mp h).1]

@[simp] lemma ofList_entries (d : Dict κ υ) : ofList d.entries = d :=
  Dict.ext (entries_ofList d.nodup)

/-- Lookup after a list of assignments: the assignments come first. -/
lemma get?_foldl_set (l : List (κ × υ)) (d : Dict κ υ) (k : κ) :
    (l.foldl (fun d p => d.set p.1 p.2) d).get? k = ((ofList l).get? k).or (d.get? k) := by
  induction l using List.reverseRecOn with
  | nil => simp [ofList]
  | append_singleton l p ih =>
    rw [List.foldl_append, List.foldl_cons, List.foldl_nil, get?_set, ofList_append_singleton,
      get?_set, ih]
    split <;> rfl

lemma get?_sorted [LE κ] [DecidableLE κ] (d : Dict κ υ) (k : κ) : d.sorted.get? k = d.get? k := by
  ext v
  rw [get?_eq_some, get?_eq_some, mem_entries_sorted]

/-- A dictionary in the order of its keys is fixed by what is found in it. -/
lemma eq_of_pairwise_le [PartialOrder κ] {d d' : Dict κ υ}
    (h : d.entries.Pairwise fun p q => p.1 ≤ q.1) (h' : d'.entries.Pairwise fun p q => p.1 ≤ q.1)
    (hget : ∀ k, d.get? k = d'.get? k) : d = d' := by
  have hmem : ∀ p, p ∈ d.entries ↔ p ∈ d'.entries := fun p => by
    rw [← get?_eq_some, hget, get?_eq_some]
  have hperm : d.entries.Perm d'.entries :=
    (List.perm_ext_iff_of_nodup d.nodup.of_map d'.nodup.of_map).mpr hmem
  refine ext (hperm.eq_of_pairwise (fun p q hp hq hpq hqp => ?_) h h')
  exact List.inj_on_of_nodup_map d.nodup hp ((hmem q).mpr hq) (le_antisymm hpq hqp)

omit [DecidableEq κ] in
/-- The keys of dictionaries in the order of their keys are the same list if they are the same. -/
lemma keys_eq_of_pairwise_le [PartialOrder κ] {d : Dict κ υ} {d' : Dict κ υ'}
    (h : d.entries.Pairwise fun p q => p.1 ≤ q.1) (h' : d'.entries.Pairwise fun p q => p.1 ≤ q.1)
    (hkeys : ∀ k, k ∈ d.keys ↔ k ∈ d'.keys) : d.keys = d'.keys := by
  have hperm : d.keys.Perm d'.keys := (List.perm_ext_iff_of_nodup d.nodup d'.nodup).mpr hkeys
  have hsorted : d.keys.Pairwise (· ≤ ·) := List.pairwise_map.mpr h
  have hsorted' : d'.keys.Pairwise (· ≤ ·) := List.pairwise_map.mpr h'
  exact hperm.eq_of_pairwise (fun _ _ _ _ => le_antisymm) hsorted hsorted'

/-- Every value of a dictionary built from a list was assigned. -/
lemma mem_values_ofList {l : List (κ × υ)} {v : υ} (h : v ∈ (ofList l).values) :
    v ∈ l.map Prod.snd := by
  obtain ⟨k, hk⟩ := mem_values.mp h
  exact List.mem_map.mpr ⟨(k, v), mem_of_get?_ofList hk, rfl⟩

lemma values_ofList {l : List (κ × υ)} (h : (l.map Prod.fst).Nodup) :
    (ofList l).values = l.map Prod.snd := by
  rw [values, entries_ofList h]

lemma values_ofList_ne_nil {l : List (κ × υ)} (h : l ≠ []) : (ofList l).values ≠ [] := by
  obtain ⟨⟨k, w⟩, hp⟩ := List.exists_mem_of_ne_nil l h
  have hk : k ∈ (ofList l).keys := mem_keys_ofList.mpr (List.mem_map.mpr ⟨_, hp, rfl⟩)
  obtain ⟨v, hv⟩ := mem_keys.mp hk
  exact List.ne_nil_of_mem (mem_values.mpr ⟨k, get?_eq_some.mpr hv⟩)

/-! ### Dictionaries of lists -/

/-- Every member of every list that is stored is in `L`. -/
def ListsIn {α : Type*} (L : List α) (d : Dict κ (List α)) : Prop :=
  ∀ k l, d.get? k = some l → ∀ e ∈ l, e ∈ L

namespace ListsIn

variable {α : Type*} {L L' : List α} {d : Dict κ (List α)}

lemma mono (h : d.ListsIn L) (hL : L ⊆ L') : d.ListsIn L' :=
  fun k l hl e he => hL (h k l hl e he)

lemma empty : (empty : Dict κ (List α)).ListsIn L := fun k l hl => absurd hl (by simp)

lemma set_nil (h : d.ListsIn L) (k : κ) : (d.set k []).ListsIn L := by
  intro j l hl e he
  rw [get?_set] at hl
  split at hl
  · rw [← Option.some.inj hl] at he
    exact absurd he List.not_mem_nil
  · exact h j l hl e he

/-- Appending a member of `L` to a list. -/
lemma modify_append (h : d.ListsIn L) (k : κ) {a : α} (ha : a ∈ L) :
    (d.modify k fun l => l ++ [a]).ListsIn L := by
  intro j l hl e he
  rw [get?_modify] at hl
  split at hl
  · obtain ⟨l', hl', rfl⟩ := Option.map_eq_some_iff.mp hl
    rcases List.mem_append.mp he with he | he
    · exact h j l' hl' e he
    · rwa [List.mem_singleton.mp he]
  · exact h j l hl e he

lemma mem_getD (h : d.ListsIn L) {k : κ} {e : α} (he : e ∈ (d.get? k).getD []) : e ∈ L := by
  cases hl : d.get? k with
  | none =>
    rw [hl] at he
    exact absurd he List.not_mem_nil
  | some l =>
    rw [hl] at he
    exact h k l hl e he

end ListsIn

/-- The list that is stored under a key, empty if there is none. -/
def listAt {α : Type*} (d : Dict κ (List α)) (k : κ) : List α := (d.get? k).getD []

section ListAt

variable {α : Type*} {d : Dict κ (List α)} {k j : κ}

@[simp] lemma listAt_empty : (empty : Dict κ (List α)).listAt k = [] := rfl

lemma listAt_set (l : List α) : (d.set k l).listAt j = if j = k then l else d.listAt j := by
  rw [listAt, get?_set]
  split <;> rfl

lemma mem_keys_modify {f : υ → υ} {d : Dict κ υ} : j ∈ (d.modify k f).keys ↔ j ∈ d.keys := by
  rw [← not_iff_not, ← get?_eq_none, ← get?_eq_none, get?_modify]
  split <;> simp

lemma listAt_modify_append (a : α) : (d.modify k fun l => l ++ [a]).listAt j
    = if j = k ∧ k ∈ d.keys then d.listAt j ++ [a] else d.listAt j := by
  rw [listAt, get?_modify]
  by_cases hj : j = k
  · subst hj
    rw [if_pos rfl]
    cases hl : d.get? j with
    | none => simp [listAt, hl, get?_eq_none.mp hl]
    | some l => simp [listAt, hl, mem_keys_of_get? hl]
  · rw [if_neg hj, if_neg fun h => hj h.1]
    rfl

lemma ListsIn.mem_listAt {L : List α} (h : d.ListsIn L) {e : α} (he : e ∈ d.listAt k) : e ∈ L :=
  h.mem_getD he

end ListAt

/-! ### Size -/

lemma size_eq_zero {d : Dict κ υ} : d.size = 0 ↔ ∀ k, d.get? k = none := by
  rw [size, List.length_eq_zero_iff, List.eq_nil_iff_forall_not_mem]
  constructor
  · intro h k
    rw [get?_eq_none, mem_keys]
    rintro ⟨v, hv⟩
    exact h _ hv
  · rintro h ⟨k, v⟩ hv
    have := h k
    rw [get?_eq_some.mpr hv] at this
    exact absurd this (by simp)

/-- Removing a key that is present makes the dictionary smaller. -/
lemma size_erase_lt {d : Dict κ υ} {k : κ} {v : υ} (h : d.get? k = some v) :
    (d.erase k).size < d.size := by
  refine List.length_filter_lt_length_iff_exists.mpr ⟨(k, v), get?_eq_some.mp h, by simp⟩

end Dict

end QuantumFoundation
