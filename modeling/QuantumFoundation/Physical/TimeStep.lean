import Mathlib.Algebra.Order.Positive.Ring
import Mathlib.Tactic.Ring
import QuantumFoundation.Physical.ConflictFree
import QuantumFoundation.Physical.Wear

/-!
# Splitting a time step

In exact arithmetic the standard transition over two intervals of time, one after the other, does
what it does over their sum.  The fields that are cut off at zero are no exception: a rate drives
its field in one direction, so the cut of the first interval is undone or repeated by the second.
Hence an interval of a simulation may be split into any number of batches.
-/

namespace QuantumFoundation

variable {F : Type*} [Field F] [LinearOrder F] [IsStrictOrderedRing F] {E : FloatEnv F}

/-- Cutting off at zero in between changes nothing, if the first value is not negative or the
second step goes down. -/
lemma max_zero_add {a b : F} (h : 0 ≤ a ∨ b ≤ 0) : max 0 (max 0 a + b) = max 0 (a + b) := by
  rcases h with ha | hb
  · rw [max_eq_right ha]
  · rw [← max_add_add_right, zero_add, ← max_assoc, max_eq_left hb]

/-- A length of time. -/
abbrev Duration (F : Type*) [Field F] [LinearOrder F] := { d : F // 0 < d }

/-- The input at the same rates, for the given time. -/
def TransitionInput.lasting (inp : TransitionInput F) (d : Duration F) : TransitionInput F :=
  { inp with
    dt := d.1
    dt_pos := by
      rw [ofScientific_zero]
      exact not_le.mpr d.2 }

/-! ### One zone -/

/-- What the standard transition makes of a zone in the given time. -/
lemma standardPhysicalTransition_lasting (s : ShipState F) (inp : TransitionInput F)
    (d : Duration F) : standardPhysicalTransition E s (inp.lasting d) = ShipState.create E s.zoneId
      (s.corrosionDepth + inp.corrosionRate * d.1)
      (max 0 (s.coatingThickness - inp.coatingDegradationRate * d.1))
      (max 0 (s.barnacleDensity + inp.barnacleGrowthRate * d.1))
      (max 0 (s.roughness + inp.roughnessRate * d.1)) := by
  rw [standardPhysicalTransition, pyMax_zero_eq, pyMax_zero_eq, pyMax_zero_eq]
  rfl

/-- A field that only shrinks. -/
lemma max_zero_sub_add {a k : F} (hk : 0 ≤ k) (d d' : Duration F) :
    max 0 (max 0 (a - k * d.1) - k * d'.1) = max 0 (a - k * (d + d').1) := by
  have hdown : -(k * d'.1) ≤ 0 := neg_nonpos.mpr (mul_nonneg hk d'.2.le)
  rw [sub_eq_add_neg (max 0 _), max_zero_add (Or.inr hdown), Positive.coe_add]
  congr 1
  ring

/-- A field that changes in one direction from a value that is not negative. -/
lemma max_zero_add_add {a : F} (ha : 0 ≤ a) (k : F) (d d' : Duration F) :
    max 0 (max 0 (a + k * d.1) + k * d'.1) = max 0 (a + k * (d + d').1) := by
  have hsign : 0 ≤ a + k * d.1 ∨ k * d'.1 ≤ 0 := by
    rcases le_total 0 k with hup | hdown
    · exact Or.inl (add_nonneg ha (mul_nonneg hup d.2.le))
    · exact Or.inr (mul_nonpos_of_nonpos_of_nonneg hdown d'.2.le)
  rw [max_zero_add hsign, Positive.coe_add]
  congr 1
  ring

/-- **The law of time steps.**  The standard transition over two intervals in a row makes the
state that it makes over their sum. -/
theorem standardPhysicalTransition_add (s : ShipState F) (inp : TransitionInput F)
    (d d' : Duration F) : ∃ s₁ s₂, standardPhysicalTransition E s (inp.lasting d) = .ok s₁ ∧
      standardPhysicalTransition E s₁ (inp.lasting d') = .ok s₂ ∧
      standardPhysicalTransition E s (inp.lasting (d + d')) = .ok s₂ := by
  obtain ⟨-, hcoating, -, -⟩ := inp.rates_nonneg
  obtain ⟨-, hb, hr⟩ := s.fields_nonneg
  -- the fields of the state in between
  obtain ⟨s₁, hs₁, hid, hc₁, ht₁, hb₁, hr₁, -⟩ := ShipState.create_ok (E := E)
    (c := s.corrosionDepth + inp.corrosionRate * d.1) s.zoneId_ne
    (le_max_left 0 (s.coatingThickness - inp.coatingDegradationRate * d.1))
    (le_max_left 0 (s.barnacleDensity + inp.barnacleGrowthRate * d.1))
    (le_max_left 0 (s.roughness + inp.roughnessRate * d.1))
  rw [← standardPhysicalTransition_lasting] at hs₁
  obtain ⟨s₂, hs₂, -⟩ := standardPhysicalTransition_wears (E := E) s₁ (inp.lasting d')
  refine ⟨s₁, s₂, hs₁, hs₂, ?_⟩
  have hcorrosion : s.corrosionDepth + inp.corrosionRate * d.1 + inp.corrosionRate * d'.1
      = s.corrosionDepth + inp.corrosionRate * (d + d').1 := by
    rw [Positive.coe_add]
    ring
  rw [standardPhysicalTransition_lasting] at hs₂ ⊢
  rwa [hid, hc₁, ht₁, hb₁, hr₁, hcorrosion, max_zero_sub_add hcoating, max_zero_add_add hb,
    max_zero_add_add hr] at hs₂

/-! ### Batches -/

namespace MultiZoneExecutor

/-- The batch at the same rates, for the given time. -/
def lasting (transitions : Dict String (TransitionInput F)) (d : Duration F) :
    Dict String (TransitionInput F) × String :=
  (transitions.mapValues fun _ inp => inp.lasting d, "standard")

variable {x y : MultiZoneExecutor F} {transitions : Dict String (TransitionInput F)}

/-- What a batch with the standard transition makes of a zone. -/
def passed (E : FloatEnv F) (transitions : Dict String (TransitionInput F)) (zoneId : String)
    (s : ShipState F) : ShipState F :=
  ((transitions.get? zoneId).bind fun inp => (standardPhysicalTransition E s inp).toOption).getD s

/-- The standard transition has a result for every zone with an input. -/
lemma zoneResult_standard (hx : x.engine.HasBuiltIns E) {p : String × TransitionInput F}
    (hp : p ∈ transitions.entries) {s : ShipState F} (hs : x.state.get p.1 = some s) :
    zoneResult x.state x.engine.transitionFns "standard" p = some (passed E transitions p.1 s) ∧
      (passed E transitions p.1 s).zoneId = p.1 := by
  obtain ⟨s', hs', hworn⟩ := standardPhysicalTransition_wears (E := E) s p.2
  have hpassed : passed E transitions p.1 s = s' := by
    rw [passed, Dict.get?_eq_some.mpr hp, Option.bind_some, hs']
    rfl
  rw [hpassed]
  refine ⟨?_, hworn.zoneId.trans (ShipStateVector.zoneId_of_get hs)⟩
  rw [zoneResult, hx.standard, Option.bind_some, hs, Option.bind_some, hs']
  rfl

/-- **Step lemma.**  A batch with the standard transition that passes the validation goes through,
and makes of every zone what the transition does; any other changes no zone. -/
theorem get_call_standard (hx : x.engine.HasBuiltIns E)
    (transitions : Dict String (TransitionInput F)) (zoneId : String) :
    (call E x (transitions, "standard")).state.get zoneId
      = if x.validate transitions = none then (x.state.get zoneId).map (passed E transitions zoneId)
        else x.state.get zoneId := by
  by_cases hv : x.validate transitions = none
  · rw [if_pos hv]
    have hzone : ∀ p ∈ transitions.entries, ∃ s, x.state.get p.1 = some s := fun p hp =>
      ShipStateVector.contains_iff.mp (validate_eq_none.mp hv p hp).1
    obtain ⟨x', batch, hok⟩ := (executeBatch_ok_iff (E := E)).mpr ⟨hv, fun p hp => by
      obtain ⟨s, hs⟩ := hzone p hp
      exact ⟨_, zoneResult_standard hx hp hs⟩⟩
    have heffect := (batchEffect_of_ok hok).1
    rw [batchEffect] at heffect
    split at heffect
    · rw [call, hok, ← Option.some.inj heffect]
      cases hinp : transitions.get? zoneId with
      | none =>
        have hpassed : passed E transitions zoneId = id := by
          funext s
          rw [passed, hinp]
          rfl
        rw [hpassed, Option.map_id, id]
        simp only [hinp]
      | some inp =>
        have hp := Dict.get?_eq_some.mp hinp
        obtain ⟨s, hs⟩ := hzone _ hp
        simp only [hinp, hs]
        exact zoneEffect_eq_some.mpr (zoneResult_standard hx hp hs)
    · cases heffect
  · rw [if_neg hv]
    obtain ⟨exc, hexc⟩ := Option.ne_none_iff_exists'.mp hv
    rw [call, executeBatch, hexc]

/-- The validation looks at the zones and at the ids of the inputs, not at the time. -/
lemma validate_lasting (hzones : ∀ zoneId, zoneId ∈ x.state.zoneIds → zoneId ∈ y.state.zoneIds)
    (transitions : Dict String (TransitionInput F)) (d d' : Duration F)
    (h : x.validate (lasting transitions d).1 = none) :
    y.validate (lasting transitions d').1 = none := by
  rw [validate_eq_none] at h ⊢
  intro p hp
  obtain ⟨q, hq, rfl⟩ := List.mem_map.mp hp
  obtain ⟨hzone, hid⟩ := h (q.1, q.2.lasting d) (List.mem_map_of_mem hq)
  exact ⟨ShipStateVector.mem_zoneIds.mp (hzones _ (ShipStateVector.mem_zoneIds.mpr hzone)), hid⟩

/-- The law of time steps for a zone of a batch. -/
lemma passed_passed (transitions : Dict String (TransitionInput F)) (zoneId : String)
    (s : ShipState F) (d d' : Duration F) :
    passed E (lasting transitions d').1 zoneId (passed E (lasting transitions d).1 zoneId s)
      = passed E (lasting transitions (d + d')).1 zoneId s := by
  have hget : ∀ d : Duration F, (lasting transitions d).1.get? zoneId
      = (transitions.get? zoneId).map fun inp => inp.lasting d := fun d => Dict.get?_mapValues _ _ _
  rw [passed, passed, passed, hget, hget, hget]
  cases transitions.get? zoneId with
  | none => rfl
  | some inp =>
    obtain ⟨s₁, s₂, h₁, h₂, h₁₂⟩ := standardPhysicalTransition_add (E := E) s inp d d'
    simp [h₁, h₂, h₁₂, Except.toOption]

/-- Two batches in a row leave the zones that one batch over the sum of their times leaves. -/
lemma state_call_add (hx : x.engine.HasBuiltIns E)
    (transitions : Dict String (TransitionInput F)) (d d' : Duration F) :
    (call E (call E x (lasting transitions d)) (lasting transitions d')).state
      = (call E x (lasting transitions (d + d'))).state := by
  have hstep : WearsTo E x (call E x (lasting transitions d)) := wearsTo_call hx (Or.inl rfl)
  refine ShipStateVector.ext_get (funext fun zoneId => ?_)
  have h₁ := get_call_standard hx (lasting transitions d).1 zoneId
  have h₂ := get_call_standard hstep.builtIns (lasting transitions d').1 zoneId
  have h₃ := get_call_standard hx (lasting transitions (d + d')).1 zoneId
  by_cases hv : x.validate (lasting transitions d).1 = none
  · have hv₂ := validate_lasting (fun _ => hstep.mem_zoneIds.mpr) transitions d d' hv
    have hv₃ := validate_lasting (fun _ => id) transitions d (d + d') hv
    rw [if_pos hv] at h₁
    rw [if_pos hv₂] at h₂
    rw [if_pos hv₃] at h₃
    refine h₂.trans ((congrArg _ h₁).trans (Eq.trans ?_ h₃.symm))
    rw [Option.map_map]
    exact congrArg (Option.map · _) (funext fun s => passed_passed transitions zoneId s d d')
  · -- a batch that is refused is refused for any time
    have hv₂ := fun h => hv (validate_lasting (fun _ => hstep.mem_zoneIds.mp) transitions d' d h)
    have hv₃ := fun h => hv (validate_lasting (fun _ => id) transitions (d + d') d h)
    rw [if_neg hv] at h₁
    rw [if_neg hv₂] at h₂
    rw [if_neg hv₃] at h₃
    exact h₂.trans (h₁.trans h₃.symm)

/-- What a run of batches with the standard transition makes of the zones depends on the zones
only. -/
lemma state_exec_congr (hx : x.engine.HasBuiltIns E) (hy : y.engine.HasBuiltIns E)
    (h : x.state = y.state) (transitions : Dict String (TransitionInput F))
    (ds : List (Duration F)) :
    (Run.exec (call E) x (ds.map (lasting transitions))).state
      = (Run.exec (call E) y (ds.map (lasting transitions))).state := by
  induction ds generalizing x y with
  | nil => exact h
  | cons d ds ih =>
    have hvalid : x.validate (lasting transitions d).1 = y.validate (lasting transitions d).1 := by
      rw [validate, validate, h]
    refine ih (wearsTo_call hx (Or.inl rfl)).builtIns (wearsTo_call hy (Or.inl rfl)).builtIns ?_
    refine ShipStateVector.ext_get (funext fun zoneId => ?_)
    refine (get_call_standard hx (lasting transitions d).1 zoneId).trans ?_
    rw [hvalid, h]
    exact (get_call_standard hy (lasting transitions d).1 zoneId).symm

/-- **Run lemma.**  Batches in a row leave the zones that one batch over the sum of their times
leaves. -/
theorem state_exec_lasting (hx : x.engine.HasBuiltIns E)
    (transitions : Dict String (TransitionInput F)) (d : Duration F) (ds : List (Duration F)) :
    (Run.exec (call E) x ((d :: ds).map (lasting transitions))).state
      = (call E x (lasting transitions (ds.foldl (· + ·) d))).state := by
  induction ds generalizing d with
  | nil => rfl
  | cons d' ds ih =>
    have hstep := (wearsTo_call (c := lasting transitions d) hx (Or.inl rfl)).builtIns
    have hstep' := (wearsTo_call (c := lasting transitions d') hstep (Or.inl rfl)).builtIns
    have hsum := (wearsTo_call (c := lasting transitions (d + d')) hx (Or.inl rfl)).builtIns
    rw [List.foldl_cons, ← ih]
    exact state_exec_congr hstep' hsum (state_call_add hx transitions d d') transitions ds

/-- **Splitting a time step.**  The standard transition over two intervals in a row makes of every
state what it makes over their sum; and an interval that is split into any number of batches
leaves the same state vector as one batch over the whole of it. -/
theorem time_step_splits :
    (∀ (s : ShipState F) (inp : TransitionInput F) (d d' : Duration F), ∃ s₁ s₂,
      standardPhysicalTransition E s (inp.lasting d) = .ok s₁ ∧
        standardPhysicalTransition E s₁ (inp.lasting d') = .ok s₂ ∧
        standardPhysicalTransition E s (inp.lasting (d + d')) = .ok s₂) ∧
    ∀ (x : MultiZoneExecutor F), x.engine.HasBuiltIns E →
      ∀ (transitions : Dict String (TransitionInput F)) (d : Duration F) (ds : List (Duration F)),
        (Run.exec (call E) x ((d :: ds).map (lasting transitions))).state
          = (call E x (lasting transitions (ds.foldl (· + ·) d))).state :=
  ⟨standardPhysicalTransition_add, fun _ hx => state_exec_lasting hx⟩

/-- One batch over three units of time, and three over one unit each. -/
theorem time_step_splits_sea :
    let x := new newShip (DeterministicTransitionEngine.new exactEnv)
    let one : Duration ℚ := ⟨1, one_pos⟩
    (Run.exec (call exactEnv) x ([one, one, one].map (lasting seaBatch))).state
      = (call exactEnv x (lasting seaBatch (one + one + one))).state ∧
    ((call exactEnv x (lasting seaBatch (one + one + one))).state.get "bow").map
      (·.barnacleDensity) = some 9 :=
  ⟨time_step_splits.2 _ (DeterministicTransitionEngine.hasBuiltIns_new exactEnv) seaBatch _ _,
    by decide +kernel⟩

end MultiZoneExecutor

end QuantumFoundation
