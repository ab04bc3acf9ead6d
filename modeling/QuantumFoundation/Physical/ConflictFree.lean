import QuantumFoundation.Lib.Footprint
import QuantumFoundation.Physical.Atomicity

/-!
# Conflict-free merging

`execution_interface_v2.md` has two clients update different zones.  To the zones a batch is an
operation that may fail and is confined to the zones it has inputs for.  So two batches over
disjoint zones that go through one after the other also go through in the other order, and leave
the same state vector.
-/

namespace QuantumFoundation

variable {F : Type*} [LT F] [OfScientific F]

namespace ShipStateVector

/-- A vector is fixed by what is found in it. -/
lemma ext_get {v w : ShipStateVector F} (h : v.get = w.get) : v = w := by
  have hzones : v.zones = w.zones :=
    Dict.eq_of_pairwise_le v.sorted w.sorted fun k => congrFun h k
  cases v
  cases w
  congr

end ShipStateVector

variable [LE F]

namespace MultiZoneExecutor

/-! ### What a batch does to the zones -/

/-- What becomes of a zone for which there is an input, if something does that the vector
accepts. -/
def zoneEffect (fns : Dict String (TransitionFunction F)) (transitionName : String)
    (zones : String → Option (ShipState F)) (p : String × TransitionInput F) :
    Option (ShipState F) :=
  ((fns.get? transitionName).bind fun fn =>
    (zones p.1).bind fun zoneState => (fn zoneState p.2).toOption).filter
      fun s => s.zoneId = p.1

/-- What becomes of the zones, if the batch goes through. -/
def batchEffect (fns : Dict String (TransitionFunction F))
    (transitions : Dict String (TransitionInput F)) (transitionName : String)
    (zones : String → Option (ShipState F)) : Option (String → Option (ShipState F)) :=
  if ∀ p ∈ transitions.entries,
      p.2.zoneId = p.1 ∧ (zoneEffect fns transitionName zones p).isSome = true then
    some fun zoneId => match transitions.get? zoneId with
      | none => zones zoneId
      | some inp => zoneEffect fns transitionName zones (zoneId, inp)
  else none

/-- A batch is confined to the zones it has inputs for. -/
lemma confinedTo_batchEffect (fns : Dict String (TransitionFunction F))
    (transitions : Dict String (TransitionInput F)) (transitionName : String) :
    ConfinedTo {zoneId | zoneId ∈ transitions.keys}
      (batchEffect fns transitions transitionName) where
  frame := by
    intro zones zones' h zoneId hz
    have hnone : transitions.get? zoneId = none := Dict.get?_eq_none.mpr hz
    rw [batchEffect] at h
    split at h
    · rw [← Option.some.inj h]
      simp only [hnone]
    · cases h
  reads := by
    intro zones zones' others h hagree
    -- the effect on a zone depends on the state of that zone only
    have heffect : ∀ p ∈ transitions.entries,
        zoneEffect fns transitionName others p = zoneEffect fns transitionName zones p := by
      intro p hp
      rw [zoneEffect, zoneEffect, hagree p.1 (Dict.mem_keys.mpr ⟨p.2, hp⟩)]
    rw [batchEffect] at h
    split at h
    · next hall =>
      refine ⟨_, if_pos fun p hp => ?_, fun zoneId hz => ?_⟩
      · rw [heffect p hp]
        exact hall p hp
      · obtain ⟨inp, hinp⟩ := Dict.mem_keys.mp hz
        rw [← Option.some.inj h]
        simp only [Dict.get?_eq_some.mpr hinp]
        exact heffect _ hinp
    · cases h

/-! ### The executor has this effect -/

variable {E : FloatEnv F} {transitions : Dict String (TransitionInput F)} {transitionName : String}
  {x x' : MultiZoneExecutor F} {batch : ZoneBatch F}

lemma zoneEffect_eq_some {p : String × TransitionInput F} {s : ShipState F} :
    zoneEffect x.engine.transitionFns transitionName x.state.get p = some s ↔
      zoneResult x.state x.engine.transitionFns transitionName p = some s ∧ s.zoneId = p.1 := by
  rw [zoneEffect, Option.filter_eq_some_iff, decide_eq_true_eq]
  rfl

/-- A batch that goes through has its effect, and the transitions stay registered. -/
lemma batchEffect_of_ok (h : x.executeBatch E transitions transitionName = (x', .ok batch)) :
    batchEffect x.engine.transitionFns transitions transitionName x.state.get
        = some x'.state.get ∧
      x'.engine.transitionFns = x.engine.transitionFns := by
  rcases executeBatch_cases E transitions transitionName x with ⟨exc, -, hr⟩ |
    ⟨hv, done, recs, -, hdone, ⟨p, post, exc, -, -, hr⟩ | ⟨hall, ⟨-, exc, hr⟩ |
      ⟨hids, x'', batch', hr, hengine, -, -, -, -, hget, hframe⟩⟩⟩
  · exact absurd (hr.symm.trans h) (by simp)
  · exact absurd (hr.symm.trans h) (by simp)
  · exact absurd (hr.symm.trans h) (by simp)
  · obtain ⟨rfl, -⟩ := Prod.mk.inj (hr.symm.trans h)
    -- every input is that of a zone the loop is through with
    have heffect : ∀ p ∈ transitions.entries,
        zoneEffect x.engine.transitionFns transitionName x.state.get p = x''.state.get p.1 := by
      intro p hp
      obtain ⟨d, hd, rfl⟩ := List.mem_map.mp (hall ▸ Dict.mem_entries_sorted.mpr hp)
      rw [hget d hd]
      exact zoneEffect_eq_some.mpr ⟨hdone d hd, hids d hd⟩
    refine ⟨?_, by rw [hengine]; rfl⟩
    rw [batchEffect, if_pos]
    · congr 1
      ext zoneId : 1
      cases hz : transitions.get? zoneId with
      | none => exact (hframe zoneId (Dict.get?_eq_none.mp hz)).symm
      | some inp => exact heffect _ (Dict.get?_eq_some.mp hz)
    · intro p hp
      refine ⟨(validate_eq_none.mp hv p hp).2, ?_⟩
      obtain ⟨d, hd, rfl⟩ := List.mem_map.mp (hall ▸ Dict.mem_entries_sorted.mpr hp)
      rw [heffect _ hp, hget d hd]
      rfl

/-- A batch that has an effect goes through. -/
lemma ok_of_batchEffect (E : FloatEnv F)
    (h : (batchEffect x.engine.transitionFns transitions transitionName x.state.get).isSome) :
    ∃ x' batch, x.executeBatch E transitions transitionName = (x', .ok batch) := by
  rw [batchEffect] at h
  split at h
  · next hall =>
    have hresult : ∀ p ∈ transitions.entries, ∃ s,
        zoneResult x.state x.engine.transitionFns transitionName p = some s ∧ s.zoneId = p.1 := by
      intro p hp
      obtain ⟨s, hs⟩ := Option.isSome_iff_exists.mp (hall p hp).2
      exact ⟨s, zoneEffect_eq_some.mp hs⟩
    have hv : x.validate transitions = none := by
      refine validate_eq_none.mpr fun p hp => ⟨?_, (hall p hp).1⟩
      obtain ⟨s, hs, -⟩ := hresult p hp
      obtain ⟨fn, -, hfn⟩ := Option.bind_eq_some_iff.mp hs
      obtain ⟨zoneState, hz, -⟩ := Option.bind_eq_some_iff.mp hfn
      exact ShipStateVector.contains_iff.mpr ⟨zoneState, hz⟩
    exact executeBatch_ok_iff.mpr ⟨hv, hresult⟩
  · exact absurd h (by simp)

/-! ### Batches over disjoint zones -/

/-- **Conflict-free merging.**  Two batches over disjoint zones that go through one after the
other go through in the other order as well, and both orders leave the same state vector with
the same hash. -/
theorem execute_batch_comm (E : FloatEnv F) (x : MultiZoneExecutor F)
    (transitions transitions' : Dict String (TransitionInput F)) (name name' : String)
    (hdisjoint : ∀ zoneId ∈ transitions.keys, zoneId ∉ transitions'.keys)
    {x₁ x₁₂ : MultiZoneExecutor F} {batch₁ batch₂ : ZoneBatch F}
    (h₁ : x.executeBatch E transitions name = (x₁, .ok batch₁))
    (h₂ : x₁.executeBatch E transitions' name' = (x₁₂, .ok batch₂)) :
    ∃ x₂ x₂₁ batch₂' batch₁',
      x.executeBatch E transitions' name' = (x₂, .ok batch₂') ∧
      x₂.executeBatch E transitions name = (x₂₁, .ok batch₁') ∧
      x₂₁.state = x₁₂.state ∧ x₂₁.globalHash E = x₁₂.globalHash E := by
  obtain ⟨heffect₁, hfns₁⟩ := batchEffect_of_ok h₁
  obtain ⟨heffect₂, -⟩ := batchEffect_of_ok h₂
  rw [hfns₁] at heffect₂
  have hzones : Disjoint {zoneId | zoneId ∈ transitions.keys}
      {zoneId | zoneId ∈ transitions'.keys} := Set.disjoint_left.mpr hdisjoint
  -- to the zones the batches are confined operations, and those commute
  have hcomm := (confinedTo_batchEffect x.engine.transitionFns transitions name).bind_comm
    (confinedTo_batchEffect x.engine.transitionFns transitions' name') hzones x.state.get
  obtain ⟨zones₂, hzones₂, hrest⟩ := Option.bind_eq_some_iff.mp
    (hcomm.symm.trans (Option.bind_eq_some_iff.mpr ⟨_, heffect₁, heffect₂⟩))
  obtain ⟨x₂, batch₂', hr₂⟩ := ok_of_batchEffect E (Option.isSome_of_eq_some hzones₂)
  obtain ⟨heffect, hfns⟩ := batchEffect_of_ok hr₂
  obtain rfl := Option.some.inj (hzones₂.symm.trans heffect)
  rw [← hfns] at hrest
  obtain ⟨x₂₁, batch₁', hr₁⟩ := ok_of_batchEffect E (Option.isSome_of_eq_some hrest)
  have hstate : x₂₁.state = x₁₂.state := ShipStateVector.ext_get
    (Option.some.inj ((batchEffect_of_ok hr₁).1.symm.trans hrest))
  exact ⟨x₂, x₂₁, batch₂', batch₁', hr₂, hr₁, hstate, by rw [globalHash, globalHash, hstate]⟩

/-- The bow through a registered transition and the stern through the standard one. -/
theorem execute_batch_comm_bow_stern :
    let bow := Dict.ofList [("bow", restingInput "bow" (by decide))]
    let stern := Dict.ofList [("stern", restingInput "stern" (by decide))]
    let x₁ := (bowAndStern.executeBatch exactEnv bow "stern_fault").1
    let x₁₂ := (x₁.executeBatch exactEnv stern "standard").1
    ∃ x₂ x₂₁ batch₂ batch₁,
      bowAndStern.executeBatch exactEnv stern "standard" = (x₂, .ok batch₂) ∧
      x₂.executeBatch exactEnv bow "stern_fault" = (x₂₁, .ok batch₁) ∧
      x₂₁.state = x₁₂.state ∧ x₂₁.globalHash exactEnv = x₁₂.globalHash exactEnv := by
  intro bow stern x₁ x₁₂
  obtain ⟨batch₁, hr₁⟩ : ∃ batch, (bowAndStern.executeBatch exactEnv bow "stern_fault").2
      = .ok batch := exists_of_isSome (by decide +kernel)
  obtain ⟨batch₂, hr₂⟩ : ∃ batch, (x₁.executeBatch exactEnv stern "standard").2 = .ok batch :=
    exists_of_isSome (by decide +kernel)
  have h₁ : bowAndStern.executeBatch exactEnv bow "stern_fault" = (x₁, .ok batch₁) :=
    congrArg (Prod.mk x₁) hr₁
  have h₂ : x₁.executeBatch exactEnv stern "standard" = (x₁₂, .ok batch₂) :=
    congrArg (Prod.mk x₁₂) hr₂
  exact execute_batch_comm exactEnv bowAndStern bow stern "stern_fault" "standard" (by decide)
    h₁ h₂

end MultiZoneExecutor

end QuantumFoundation
