import Mathlib.Algebra.Order.Field.Basic
import Mathlib.Tactic.GCongr
import Mathlib.Tactic.Positivity
import QuantumFoundation.Physical.Atomicity

/-!
# Wear

What the two built-in transitions do in exact arithmetic, with a rounding that is monotone.  They
never raise, and they only wear a zone: corrosion and barnacles grow, the coating shrinks, and so
does the score of the zone not fall, unless its surface is polished.  A batch replaces zones by
worn ones and leaves the others alone, so the same holds over every run.
-/

namespace QuantumFoundation

section Order

variable {F : Type*} [LinearOrder F]

/-- Python's maximum is that of a linear order. -/
lemma pyMax_eq_max (a b : F) : pyMax a b = max a b := by
  rw [pyMax]
  split
  · next h => rw [max_eq_right h.le]
  · next h => rw [max_eq_left (not_lt.mp h)]

end Order

variable {F : Type*} [Field F] [LinearOrder F] [IsStrictOrderedRing F] {E : FloatEnv F}

lemma ofScientific_zero : (0.0 : F) = 0 := by norm_num

lemma pyMax_zero_eq (a : F) : pyMax 0.0 a = max 0 a := by
  rw [pyMax_eq_max, ofScientific_zero]

/-! ### The score -/

/-- The larger the thickness of the coating, the smaller its reciprocal. -/
lemma coatingInv_anti {t t' : F} (h : t' ≤ t) :
    (1.0 : F) / pyMax t 1e-6 ≤ 1.0 / pyMax t' 1e-6 := by
  have hpos : (0 : F) < max t' 1e-6 := lt_max_of_lt_right (by norm_num)
  rw [pyMax_eq_max, pyMax_eq_max]
  gcongr

/-- **The score is monotone.**  It grows with the corrosion, the barnacles and the roughness, and
as the coating gets thinner. -/
theorem computeRiskScore_mono (hround : Monotone E.round8) {c c' t t' b b' r r' : F}
    (hc : c ≤ c') (ht : t' ≤ t) (hb : b ≤ b') (hr : r ≤ r') :
    computeRiskScore E c t b r ≤ computeRiskScore E c' t' b' r' := by
  have hcoating : (0.25 : F) * (1.0 / pyMax t 1e-6) ≤ 0.25 * (1.0 / pyMax t' 1e-6) :=
    mul_le_mul_of_nonneg_left (coatingInv_anti ht) (by norm_num)
  have hcorrosion : (0.35 : F) * c ≤ 0.35 * c' := mul_le_mul_of_nonneg_left hc (by norm_num)
  have hbarnacle : (0.20 : F) * b ≤ 0.20 * b' := mul_le_mul_of_nonneg_left hb (by norm_num)
  have hroughness : (0.20 : F) * r ≤ 0.20 * r' := mul_le_mul_of_nonneg_left hr (by norm_num)
  exact hround (add_le_add (add_le_add (add_le_add hcorrosion hcoating) hbarnacle) hroughness)

/-! ### One zone -/

namespace ShipState

/-- The state is in the physical range, and carries the score of its fields. -/
structure Sound (E : FloatEnv F) (s : ShipState F) : Prop where
  coating : 0 ≤ s.coatingThickness
  barnacle : 0 ≤ s.barnacleDensity
  roughness : 0 ≤ s.roughness
  riskScore : s.riskScore
    = computeRiskScore E s.corrosionDepth s.coatingThickness s.barnacleDensity s.roughness

/-- The second state is the first one, worn. -/
structure Wears (s s' : ShipState F) : Prop where
  zoneId : s'.zoneId = s.zoneId
  corrosion : s.corrosionDepth ≤ s'.corrosionDepth
  coating : s'.coatingThickness ≤ s.coatingThickness
  barnacle : s.barnacleDensity ≤ s'.barnacleDensity

/-- The second state is the first one, worn by the input. -/
structure WornBy (E : FloatEnv F) (s : ShipState F) (inp : TransitionInput F) (s' : ShipState F) :
    Prop extends Wears s s' where
  sound : Sound E s'
  rough : 0 ≤ inp.roughnessRate → s.roughness ≤ s'.roughness

omit [IsStrictOrderedRing F] in
lemma Wears.refl (s : ShipState F) : Wears s s := ⟨rfl, le_rfl, le_rfl, le_rfl⟩

omit [IsStrictOrderedRing F] in
lemma Wears.trans {s t u : ShipState F} (h : Wears s t) (h' : Wears t u) : Wears s u :=
  ⟨h'.zoneId.trans h.zoneId, h.corrosion.trans h'.corrosion, h'.coating.trans h.coating,
    h.barnacle.trans h'.barnacle⟩

/-- The score of a worn state is not lower, unless the state is smoother. -/
lemma Wears.riskScore_le (hround : Monotone E.round8) {s s' : ShipState F} (h : Wears s s')
    (hs : Sound E s) (hs' : Sound E s') (hrough : s.roughness ≤ s'.roughness) :
    s.riskScore ≤ s'.riskScore := by
  rw [hs.riskScore, hs'.riskScore]
  exact computeRiskScore_mono hround h.corrosion h.coating h.barnacle hrough

/-- **Creating.**  A state is made of a name and of fields in the physical range, and carries
their score. -/
theorem create_ok {zoneId : String} (hid : zoneId ≠ "") {c t b r : F} (ht : 0 ≤ t) (hb : 0 ≤ b)
    (hr : 0 ≤ r) : ∃ s, create E zoneId c t b r = .ok s ∧ s.zoneId = zoneId ∧
      s.corrosionDepth = c ∧ s.coatingThickness = t ∧ s.barnacleDensity = b ∧ s.roughness = r ∧
      s.riskScore = computeRiskScore E c t b r := by
  have hnot : ∀ {x : F}, 0 ≤ x → ¬x < 0.0 := by
    intro x hx
    rw [ofScientific_zero]
    exact not_lt.mpr hx
  rw [create, new, dif_neg hid, dif_neg (hnot ht), dif_neg (hnot hb), dif_neg (hnot hr)]
  exact ⟨_, rfl, rfl, rfl, rfl, rfl, rfl, rfl⟩

/-- The fields of a state are in the physical range, however it was made. -/
lemma fields_nonneg (s : ShipState F) :
    0 ≤ s.coatingThickness ∧ 0 ≤ s.barnacleDensity ∧ 0 ≤ s.roughness := by
  have hzero := ofScientific_zero (F := F)
  exact ⟨hzero ▸ not_lt.mp s.coating_nonneg, hzero ▸ not_lt.mp s.barnacle_nonneg,
    hzero ▸ not_lt.mp s.roughness_nonneg⟩

/-- What `create` has made is sound, and carries the name it was made for. -/
lemma sound_of_create {zoneId : String} {c t b r : F} {s : ShipState F}
    (h : create E zoneId c t b r = .ok s) : Sound E s ∧ s.zoneId = zoneId := by
  obtain ⟨ht, hb, hr⟩ := s.fields_nonneg
  rw [create, new] at h
  obtain ⟨_, h⟩ := dite_guard_eq_ok h
  obtain ⟨_, h⟩ := dite_guard_eq_ok h
  obtain ⟨_, h⟩ := dite_guard_eq_ok h
  obtain ⟨_, h⟩ := dite_guard_eq_ok h
  rw [← Except.ok.inj h] at ht hb hr ⊢
  exact ⟨⟨ht, hb, hr, rfl⟩, rfl⟩

end ShipState

namespace TransitionInput

/-- The rates of an input, roughness aside, are not negative, and time goes on. -/
lemma rates_nonneg (inp : TransitionInput F) :
    0 ≤ inp.corrosionRate ∧ 0 ≤ inp.coatingDegradationRate ∧ 0 ≤ inp.barnacleGrowthRate ∧
      0 < inp.dt := by
  have hzero := ofScientific_zero (F := F)
  exact ⟨hzero ▸ not_lt.mp inp.corrosion_nonneg, hzero ▸ not_lt.mp inp.coating_nonneg,
    hzero ▸ not_lt.mp inp.barnacle_nonneg, hzero ▸ not_le.mp inp.dt_pos⟩

end TransitionInput

/-- Whatever corrosion it adds, a transition that updates the other fields at the rates of the
input wears the zone. -/
lemma wornBy_create (s : ShipState F) (inp : TransitionInput F) {c : F}
    (hc : s.corrosionDepth ≤ c) : ∃ s', ShipState.create E s.zoneId c
        (pyMax 0.0 (s.coatingThickness - inp.coatingDegradationRate * inp.dt))
        (pyMax 0.0 (s.barnacleDensity + inp.barnacleGrowthRate * inp.dt))
        (pyMax 0.0 (s.roughness + inp.roughnessRate * inp.dt)) = .ok s' ∧
      ShipState.WornBy E s inp s' := by
  obtain ⟨-, hcoating, hbarnacle, hdt⟩ := inp.rates_nonneg
  obtain ⟨hs, -, -⟩ := s.fields_nonneg
  rw [pyMax_zero_eq, pyMax_zero_eq, pyMax_zero_eq]
  obtain ⟨s', hcreate, hid, hc', ht', hb', hr', hrisk⟩ := ShipState.create_ok (E := E) (c := c)
    s.zoneId_ne (le_max_left 0 (s.coatingThickness - inp.coatingDegradationRate * inp.dt))
    (le_max_left 0 (s.barnacleDensity + inp.barnacleGrowthRate * inp.dt))
    (le_max_left 0 (s.roughness + inp.roughnessRate * inp.dt))
  refine ⟨s', hcreate, ⟨hid, hc'.symm ▸ hc, ?coating, ?barnacle⟩,
    (ShipState.sound_of_create hcreate).1, fun hrate => ?rough⟩
  case coating =>
    rw [ht']
    exact max_le hs (sub_le_self _ (mul_nonneg hcoating hdt.le))
  case barnacle =>
    rw [hb']
    exact le_max_of_le_right (le_add_of_nonneg_right (mul_nonneg hbarnacle hdt.le))
  case rough =>
    rw [hr']
    exact le_max_of_le_right (le_add_of_nonneg_right (mul_nonneg hrate hdt.le))

/-- **The standard transition** wears the zone. -/
theorem standardPhysicalTransition_wears (s : ShipState F) (inp : TransitionInput F) :
    ∃ s', standardPhysicalTransition E s inp = .ok s' ∧ ShipState.WornBy E s inp s' := by
  obtain ⟨hcorrosion, -, -, hdt⟩ := inp.rates_nonneg
  exact wornBy_create s inp (le_add_of_nonneg_right (mul_nonneg hcorrosion hdt.le))

/-- **The accelerated transition** wears the zone: the factor of the coating is positive. -/
theorem acceleratedCorrosionTransition_wears (s : ShipState F) (inp : TransitionInput F) :
    ∃ s', acceleratedCorrosionTransition E s inp = .ok s' ∧ ShipState.WornBy E s inp s' := by
  obtain ⟨hcorrosion, -, -, hdt⟩ := inp.rates_nonneg
  have hmax : (0 : F) < pyMax s.coatingThickness 1e-6 := by
    rw [pyMax_eq_max]
    exact lt_max_of_lt_right (by norm_num)
  have hfactor : (0 : F) ≤ 1.0 + 1.0 / pyMax s.coatingThickness 1e-6 := by
    have hone : (1.0 : F) = 1 := by norm_num
    rw [hone]
    positivity
  exact wornBy_create s inp
    (le_add_of_nonneg_right (mul_nonneg (mul_nonneg hcorrosion hdt.le) hfactor))

/-! ### Batches -/

namespace DeterministicTransitionEngine

/-- The engine has the two built-in transitions under their names. -/
structure HasBuiltIns (E : FloatEnv F) (engine : DeterministicTransitionEngine F) : Prop where
  standard : engine.transitionFns.get? "standard" = some (standardPhysicalTransition E)
  accelerated : engine.transitionFns.get? "accelerated_corrosion"
    = some (acceleratedCorrosionTransition E)

omit [IsStrictOrderedRing F] in
/-- A fresh engine has them. -/
lemma hasBuiltIns_new (E : FloatEnv F) : (new E).HasBuiltIns E := ⟨rfl, rfl⟩

omit [IsStrictOrderedRing F] in
/-- What is registered stays registered. -/
lemma HasBuiltIns.registerTransition {engine : DeterministicTransitionEngine F}
    (h : engine.HasBuiltIns E) (name : String) (fn : TransitionFunction F) :
    (engine.registerTransition name fn).1.HasBuiltIns E := by
  rw [DeterministicTransitionEngine.registerTransition]
  split
  · exact h
  · next hnew =>
    have hkeep : ∀ {k g}, engine.transitionFns.get? k = some g →
        (engine.transitionFns.set name fn).get? k = some g := by
      intro k g hk
      have hne : k ≠ name := by
        rintro rfl
        exact hnew (Dict.contains_eq_true.mpr (Dict.mem_keys_of_get? hk))
      rw [Dict.get?_set, if_neg hne, hk]
    exact ⟨hkeep h.standard, hkeep h.accelerated⟩

end DeterministicTransitionEngine

namespace MultiZoneExecutor

/-- The name of a built-in transition. -/
def IsBuiltIn (transitionName : String) : Prop :=
  transitionName = "standard" ∨ transitionName = "accelerated_corrosion"

variable {x : MultiZoneExecutor F} {c : Dict String (TransitionInput F) × String}

/-- The result of a built-in transition is the zone, worn. -/
lemma wornBy_zoneResult (hx : x.engine.HasBuiltIns E) (hc : IsBuiltIn c.2)
    {p : String × TransitionInput F} {s s' : ShipState F} (hs : x.state.get p.1 = some s)
    (h : zoneResult x.state x.engine.transitionFns c.2 p = some s') :
    ShipState.WornBy E s p.2 s' := by
  have hok : ∀ {fn : TransitionFunction F}, x.engine.transitionFns.get? c.2 = some fn →
      (∃ t, fn s p.2 = .ok t ∧ ShipState.WornBy E s p.2 t) → ShipState.WornBy E s p.2 s' := by
    rintro fn hfn ⟨t, ht, hworn⟩
    rw [zoneResult, hfn, Option.bind_some, hs, Option.bind_some, ht] at h
    exact Option.some.inj h ▸ hworn
  rcases hc with hc | hc
  · exact hok (hc ▸ hx.standard) (standardPhysicalTransition_wears s p.2)
  · exact hok (hc ▸ hx.accelerated) (acceleratedCorrosionTransition_wears s p.2)

/-- **Step lemma.**  A batch with a built-in transition keeps the zones and the transitions; a
zone stays as it is, or it is listed, and worn by its input. -/
theorem call_wears (hx : x.engine.HasBuiltIns E) (hc : IsBuiltIn c.2) :
    (call E x c).engine.HasBuiltIns E ∧
      (∀ zoneId, x.state.get zoneId = none → (call E x c).state.get zoneId = none) ∧
      ∀ zoneId s, x.state.get zoneId = some s → ∃ s', (call E x c).state.get zoneId = some s' ∧
        (s' = s ∨ ∃ inp, c.1.get? zoneId = some inp ∧ ShipState.WornBy E s inp s') := by
  have hsame : ∀ {y : MultiZoneExecutor F}, y.state = x.state → ∀ zoneId s,
      x.state.get zoneId = some s → ∃ s', y.state.get zoneId = some s' ∧
        (s' = s ∨ ∃ inp, c.1.get? zoneId = some inp ∧ ShipState.WornBy E s inp s') := by
    intro y hy zoneId s hs
    exact ⟨s, hy ▸ hs, Or.inl rfl⟩
  rw [call]
  rcases executeBatch_cases E c.1 c.2 x with ⟨exc, -, hr⟩ |
    ⟨hv, done, recs, -, hdone, ⟨p, post, exc, -, -, hr⟩ |
      ⟨hall, ⟨-, exc, hr⟩ | ⟨-, x', batch, hr, hengine, -, -, -, -, hget, hframe⟩⟩⟩
  · rw [hr]
    exact ⟨hx, fun _ h => h, hsame rfl⟩
  · rw [hr]
    exact ⟨⟨hx.standard, hx.accelerated⟩, fun _ h => h, hsame rfl⟩
  · rw [hr]
    exact ⟨⟨hx.standard, hx.accelerated⟩, fun _ h => h, hsame rfl⟩
  · rw [hr]
    refine ⟨hengine ▸ ⟨hx.standard, hx.accelerated⟩, fun zoneId hnone => ?_,
      fun zoneId s hs => ?_⟩
    · -- a listed zone would have been found by the validation
      have hkeys : zoneId ∉ c.1.keys := by
        intro hmem
        obtain ⟨inp, hinp⟩ := Dict.mem_keys.mp hmem
        obtain ⟨s, hs⟩ := ShipStateVector.contains_iff.mp (validate_eq_none.mp hv _ hinp).1
        exact absurd (hs.symm.trans hnone) (by simp)
      rw [hframe zoneId hkeys, hnone]
    · by_cases hkeys : zoneId ∈ c.1.keys
      · obtain ⟨inp, hinp⟩ := Dict.mem_keys.mp hkeys
        obtain ⟨d, hd, hp⟩ := List.mem_map.mp (hall ▸ Dict.mem_entries_sorted.mpr hinp)
        have hz : x.state.get d.1.1 = some s := by rw [hp]; exact hs
        have hworn := wornBy_zoneResult hx hc hz (hdone d hd)
        have hnew := hget d hd
        rw [hp] at hworn hnew
        exact ⟨d.2, hnew, Or.inr ⟨inp, Dict.get?_eq_some.mpr hinp, hworn⟩⟩
      · exact ⟨s, (hframe zoneId hkeys).trans hs, Or.inl rfl⟩

/-! ### Runs -/

/-- Every zone of the first executor is a zone of the second, worn, and still sound if it was; and
the second has no other zones. -/
structure WearsTo (E : FloatEnv F) (x y : MultiZoneExecutor F) : Prop where
  builtIns : y.engine.HasBuiltIns E
  absent : ∀ zoneId, x.state.get zoneId = none → y.state.get zoneId = none
  worn : ∀ zoneId s, x.state.get zoneId = some s → ∃ s', y.state.get zoneId = some s' ∧
    ShipState.Wears s s' ∧ (s.Sound E → s'.Sound E)

omit [IsStrictOrderedRing F] in
lemma WearsTo.trans {x y z : MultiZoneExecutor F} (h : WearsTo E x y) (h' : WearsTo E y z) :
    WearsTo E x z := by
  refine ⟨h'.builtIns, fun zoneId hnone => h'.absent _ (h.absent _ hnone), fun zoneId s hs => ?_⟩
  obtain ⟨t, ht, hst, hsound⟩ := h.worn zoneId s hs
  obtain ⟨u, hu, htu, hsound'⟩ := h'.worn zoneId t ht
  exact ⟨u, hu, hst.trans htu, fun hs => hsound' (hsound hs)⟩

/-- One batch. -/
lemma wearsTo_call (hx : x.engine.HasBuiltIns E) (hc : IsBuiltIn c.2) :
    WearsTo E x (call E x c) := by
  obtain ⟨hbuiltIns, habsent, hworn⟩ := call_wears hx hc
  refine ⟨hbuiltIns, habsent, fun zoneId s hs => ?_⟩
  obtain ⟨s', hs', rfl | ⟨inp, -, hinp⟩⟩ := hworn zoneId s hs
  · exact ⟨s', hs', ShipState.Wears.refl s', id⟩
  · exact ⟨s', hs', hinp.toWears, fun _ => hinp.sound⟩

/-- **Run lemma.** -/
theorem wearsTo_exec {calls : List (Dict String (TransitionInput F) × String)}
    (hcalls : ∀ c ∈ calls, IsBuiltIn c.2) :
    x.engine.HasBuiltIns E → WearsTo E x (Run.exec (call E) x calls) := by
  refine Run.rel_exec (R := fun x y => x.engine.HasBuiltIns E → WearsTo E x y)
    (C := fun _ (c : Dict String (TransitionInput F) × String) => IsBuiltIn c.2)
    (fun x hx => ?_) (fun x y z hxy hyz hx => ?_) (fun x c hc hx => wearsTo_call hx hc)
    (Run.along_of_forall x fun _ => hcalls)
  · exact ⟨hx, fun _ h => h, fun _ s hs => ⟨s, hs, ShipState.Wears.refl s, id⟩⟩
  · exact (hxy hx).trans (hyz (hxy hx).builtIns)

omit [IsStrictOrderedRing F] in
/-- The zones are the same. -/
lemma WearsTo.mem_zoneIds {x y : MultiZoneExecutor F} (h : WearsTo E x y) {zoneId : String} :
    zoneId ∈ y.state.zoneIds ↔ zoneId ∈ x.state.zoneIds := by
  rw [ShipStateVector.mem_zoneIds, ShipStateVector.mem_zoneIds, ShipStateVector.contains_iff,
    ShipStateVector.contains_iff]
  constructor
  · rintro ⟨s', hs'⟩
    cases hs : x.state.get zoneId with
    | none => exact absurd (hs'.symm.trans (h.absent zoneId hs)) (by simp)
    | some s => exact ⟨s, rfl⟩
  · rintro ⟨s, hs⟩
    obtain ⟨s', hs', -⟩ := h.worn zoneId s hs
    exact ⟨s', hs'⟩

/-- **Wear.**  Over every run of batches with the built-in transitions, from zones that `create`
has made: every zone is in the physical range and carries the score of its fields; the zones are
the same; what comes later only wears them; and a batch leaves the zones that it does not list
alone, and does not lower the score of a zone that it does not polish. -/
theorem wear_of_run (hround : Monotone E.round8) {initialState : ShipStateVector F}
    (hcreated : ∀ zoneId s, initialState.get zoneId = some s →
      ∃ c t b r, ShipState.create E zoneId c t b r = .ok s)
    {engine : DeterministicTransitionEngine F} (hengine : engine.HasBuiltIns E)
    {calls later : List (Dict String (TransitionInput F) × String)}
    (hcalls : ∀ c ∈ calls, IsBuiltIn c.2) (hlater : ∀ c ∈ later, IsBuiltIn c.2) :
    let x := Run.exec (call E) (new initialState engine) calls
    (∀ zoneId s, x.state.get zoneId = some s → s.Sound E) ∧
      (∀ zoneId, zoneId ∈ x.state.zoneIds ↔ zoneId ∈ initialState.zoneIds) ∧
      (∀ zoneId s, x.state.get zoneId = some s →
        ∃ s', (Run.exec (call E) x later).state.get zoneId = some s' ∧ ShipState.Wears s s') ∧
      ∀ c : Dict String (TransitionInput F) × String, IsBuiltIn c.2 →
        (∀ zoneId ∉ c.1.keys, (call E x c).state.get zoneId = x.state.get zoneId) ∧
        ∀ zoneId s, x.state.get zoneId = some s →
          (∀ inp, c.1.get? zoneId = some inp → 0 ≤ inp.roughnessRate) →
          ∃ s', (call E x c).state.get zoneId = some s' ∧ s.riskScore ≤ s'.riskScore := by
  intro x
  have hx : WearsTo E (new initialState engine) x := wearsTo_exec hcalls hengine
  have hsound : ∀ zoneId s, x.state.get zoneId = some s → s.Sound E := by
    intro zoneId s hs
    cases h₀ : initialState.get zoneId with
    | none => exact absurd (hs.symm.trans (hx.absent zoneId h₀)) (by simp)
    | some s₀ =>
      obtain ⟨c, t, b, r, hcreate⟩ := hcreated zoneId s₀ h₀
      obtain ⟨s', hs', -, hkeeps⟩ := hx.worn zoneId s₀ h₀
      rw [Option.some.inj (hs.symm.trans hs')]
      exact hkeeps (ShipState.sound_of_create hcreate).1
  refine ⟨hsound, fun zoneId => hx.mem_zoneIds, fun zoneId s hs => ?_, fun c hc => ⟨?_, ?_⟩⟩
  · obtain ⟨s', hs', hwears, -⟩ := (wearsTo_exec hlater hx.builtIns).worn zoneId s hs
    exact ⟨s', hs', hwears⟩
  · intro zoneId hkeys
    obtain ⟨-, habsent, hworn⟩ := call_wears hx.builtIns hc
    cases hs : x.state.get zoneId with
    | none => exact habsent zoneId hs
    | some s =>
      obtain ⟨s', hs', rfl | ⟨inp, hinp, -⟩⟩ := hworn zoneId s hs
      · exact hs'
      · exact absurd (Dict.mem_keys_of_get? hinp) hkeys
  · intro zoneId s hs hrates
    obtain ⟨s', hs', rfl | ⟨inp, hinp, hworn⟩⟩ := (call_wears hx.builtIns hc).2.2 zoneId s hs
    · exact ⟨s', hs', le_rfl⟩
    · exact ⟨s', hs', hworn.toWears.riskScore_le hround (hsound zoneId s hs) hworn.sound
        (hworn.rough (hrates inp hinp))⟩

/-! ### A bow that wears -/

/-- A new bow, as `create` makes it. -/
def createdBow : ShipState ℚ :=
  ⟨"bow", 0, 5, 0, 0, 0.05, bow_ne_empty, by norm_num, zero_not_negative, zero_not_negative⟩

lemma create_createdBow : ShipState.create exactEnv "bow" 0 5 0 0 = .ok createdBow := by
  decide +kernel

/-- A ship with a new bow. -/
def newShip : ShipStateVector ℚ := ⟨.ofList [("bow", createdBow)], by decide, by decide⟩

lemma create_newShip (zoneId : String) (s : ShipState ℚ) (h : newShip.get zoneId = some s) :
    ∃ c t b r, ShipState.create exactEnv zoneId c t b r = .ok s := by
  have hmem : (zoneId, s) ∈ [("bow", createdBow)] := Dict.get?_eq_some.mp h
  obtain ⟨rfl, rfl⟩ := Prod.mk.inj (List.mem_singleton.mp hmem)
  exact ⟨0, 5, 0, 0, create_createdBow⟩

/-- The bow at sea for one unit of time. -/
def seaBatch : Dict String (TransitionInput ℚ) :=
  .ofList [("bow", ⟨"bow", 0.1, 0.2, 3, -1, 1, bow_ne_empty, by norm_num, by norm_num,
    by norm_num, one_positive⟩)]

/-- After one batch with each of the transitions the bow is there, and sound. -/
theorem wear_of_bow :
    let x := Run.exec (call exactEnv) (new newShip (DeterministicTransitionEngine.new exactEnv))
      [(seaBatch, "standard"), (seaBatch, "accelerated_corrosion")]
    x.batches.length = 2 ∧ x.state.contains "bow" = true ∧
      ∀ zoneId s, x.state.get zoneId = some s → s.Sound exactEnv := by
  intro x
  refine ⟨by decide +kernel, by decide +kernel, ?_⟩
  have hcalls : ∀ c ∈ [(seaBatch, "standard"), (seaBatch, "accelerated_corrosion")],
      IsBuiltIn c.2 := by
    intro c hc
    rcases List.mem_pair.mp hc with rfl | rfl
    · exact Or.inl rfl
    · exact Or.inr rfl
  exact (wear_of_run (E := exactEnv) monotone_id create_newShip
    (DeterministicTransitionEngine.hasBuiltIns_new exactEnv) hcalls (List.forall_mem_nil _)).1

end MultiZoneExecutor

end QuantumFoundation
