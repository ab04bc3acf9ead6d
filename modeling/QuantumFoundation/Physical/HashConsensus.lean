import QuantumFoundation.Physical.Preimages

/-!
# Agreement by hash

The nodes compare their vectors by `global_hash`, which hashes the zone ids and the hashes of the
states, one behind the other.  Between vectors with the same zones the ids are known, so every
text can be read, and vectors with the same hash have the same numbers, with eight decimals, in
every zone.
-/

namespace QuantumFoundation

variable {F : Type*} [LT F] [OfScientific F] {E : FloatEnv F}

/-- **States of one zone.**  If the hashes of two states of a zone are the same, so are their
numbers. -/
theorem ShipState.fields_eq_of_stateHash_eq (hE : IdealDigest E.sha256)
    (hfmt : ∀ x, E.fmt8 x ∈ renderings) {s t : ShipState F} (hz : s.zoneId = t.zoneId)
    (h : s.stateHash E = t.stateHash E) : s.fields.map E.fmt8 = t.fields.map E.fmt8 := by
  rw [s.stateHash_eq, t.stateHash_eq] at h
  have hsep : Separable s.zoneId t.zoneId := by
    rw [hz]
    exact Separable.refl t.zoneId
  have hlen : s.fields.length = t.fields.length := rfl
  exact ((namedText_eq_iff_of_separable hfmt hsep hlen).mp (hE.injective h)).2

namespace ShipStateVector

/-- What is hashed of a zone. -/
def entryText (E : FloatEnv F) (p : String × ShipState F) : String := p.1 ++ p.2.stateHash E

variable {v w : ShipStateVector F}

lemma zoneIds_eq (h : ∀ zoneId, zoneId ∈ v.zoneIds ↔ zoneId ∈ w.zoneIds) :
    v.zoneIds = w.zoneIds :=
  Dict.keys_eq_of_pairwise_le v.zones.pairwise_sorted w.zones.pairwise_sorted h

/-- A zone that is visited carries the id under which it is visited, which is not empty. -/
lemma zoneId_of_mem {p : String × ShipState F} (hp : p ∈ v.zones.sorted.entries) :
    p.2.zoneId = p.1 :=
  v.keyed p (Dict.mem_entries_sorted.mp hp)

lemma entryText_ne {p : String × ShipState F} (hp : p ∈ v.zones.sorted.entries) :
    entryText E p ≠ "" := by
  intro h
  have hid := (String.append_eq_empty_iff.mp h).1
  rw [← zoneId_of_mem hp] at hid
  exact p.2.zoneId_ne hid

/-- At the same place the vectors have the same zone, so its entries can be told apart. -/
lemma readsAs_of_mem_zip (hE : IdealDigest E.sha256) (hfmt : ∀ x, E.fmt8 x ∈ renderings)
    (hids : v.zoneIds = w.zoneIds) {p : (String × ShipState F) × String × ShipState F}
    (hp : p ∈ v.zones.sorted.entries.zip w.zones.sorted.entries) :
    ReadsAs (entryText E) (fun p q => p.1 = q.1 ∧ p.2.fields.map E.fmt8 = q.2.fields.map E.fmt8)
      p.1 p.2 := by
  have hkeys : List.Forall₂ (fun p q : String × ShipState F => p.1 = q.1)
      v.zones.sorted.entries w.zones.sorted.entries := by
    rw [← List.forall₂_map_left_iff (R := fun k (q : String × ShipState F) => k = q.1),
      ← List.forall₂_map_right_iff (R := fun k k' => k = k'), List.forall₂_eq_eq_eq]
    exact hids
  have hid : p.1.1 = p.2.1 := List.forall₂_zip hkeys hp
  obtain ⟨hpv, hpw⟩ := List.of_mem_zip (a := p.1) (b := p.2) hp
  intro x y hxy
  rw [entryText, entryText, hid, String.append_assoc, String.append_assoc,
    String.append_right_inj] at hxy
  rw [ShipState.stateHash_eq, ShipState.stateHash_eq] at hxy
  obtain ⟨htext, hrest⟩ := hE.append_inj hxy
  have hzone : p.1.2.zoneId = p.2.2.zoneId := by
    rw [zoneId_of_mem hpv, zoneId_of_mem hpw, hid]
  refine ⟨⟨hid, ?_⟩, hrest⟩
  refine ShipState.fields_eq_of_stateHash_eq hE hfmt hzone ?_
  rw [ShipState.stateHash_eq, ShipState.stateHash_eq, htext]

/-- **Agreement by hash.**  With an ideal digest, vectors with the same zones and the same hash
have the same numbers, with eight decimals, in every zone. -/
theorem same_fields_of_same_hash (hE : IdealDigest E.sha256) (hfmt : ∀ x, E.fmt8 x ∈ renderings)
    (hids : ∀ zoneId, zoneId ∈ v.zoneIds ↔ zoneId ∈ w.zoneIds)
    (h : v.globalHash E = w.globalHash E) (zoneId : String) :
    (v.get zoneId).map (fun s => s.fields.map E.fmt8)
      = (w.get zoneId).map fun s => s.fields.map E.fmt8 := by
  have htexts : String.join (v.zones.sorted.entries.map (entryText E))
      = String.join (w.zones.sorted.entries.map (entryText E)) := hE.injective h
  have hentries := forall₂_of_join_eq
    (fun p hp => readsAs_of_mem_zip hE hfmt (zoneIds_eq hids) hp)
    (fun p hp => entryText_ne hp) (fun p hp => entryText_ne hp) htexts
  have hnumbers : (v.zones.sorted.mapValues fun _ s => s.fields.map E.fmt8)
      = w.zones.sorted.mapValues fun _ s => s.fields.map E.fmt8 := by
    refine Dict.ext (List.forall₂_eq_eq_eq ▸ ?_)
    rw [Dict.mapValues, Dict.mapValues, List.forall₂_map_left_iff, List.forall₂_map_right_iff]
    exact hentries.imp fun p q hpq => Prod.ext hpq.1 hpq.2
  have hget := congrArg (fun d => d.get? zoneId) hnumbers
  simpa only [get, Dict.get?_mapValues, Dict.get?_sorted] using hget

/-- A vector with a bow that has corrosion. -/
def corrodedBow (corrosionDepth : ℚ) : ShipStateVector ℚ where
  zones := ⟨[("bow", corroded "bow" bow_ne_empty corrosionDepth)], List.nodup_singleton _⟩
  keyed := by simp [corroded, restingZone]
  sorted := List.pairwise_singleton _ _

-- what the eight decimals do not show, the hash does not show either
theorem same_fields_of_same_hash_bow :
    (corrodedBow 1e-9).get "bow" ≠ (corrodedBow 0).get "bow" ∧
      ((corrodedBow 1e-9).get "bow").map (fun s => s.fields.map decimalEnv.fmt8)
        = ((corrodedBow 0).get "bow").map fun s => s.fields.map decimalEnv.fmt8 := by
  have hids : (corrodedBow 1e-9).zoneIds = (corrodedBow 0).zoneIds := by decide +kernel
  have hnine : decimalEnv.fmt8 1e-9 = decimalEnv.fmt8 0 := by decide +kernel
  have hstate : (corroded "bow" (by decide) 1e-9).stateHash decimalEnv
      = (corroded "bow" (by decide) 0).stateHash decimalEnv := by
    rw [ShipState.stateHash, ShipState.stateHash, corroded, corroded, hnine]
  have hhash : (corrodedBow 1e-9).globalHash decimalEnv = (corrodedBow 0).globalHash decimalEnv :=
    congrArg (fun digest => decimalEnv.sha256 (String.join ["bow" ++ digest])) hstate
  refine ⟨by decide +kernel, same_fields_of_same_hash (E := decimalEnv) idealDigest_announcedText
    decimal8_mem (fun zoneId => ?_) hhash "bow"⟩
  rw [hids]

end ShipStateVector

end QuantumFoundation
