import QuantumFoundation.Physical.ConflictFree
import QuantumFoundation.Physical.Replay
import QuantumFoundation.Physical.Wear

/-!
# Saving a ship and going on

The dictionary form of a state vector, and the way back.  The decoder does not take the risk score
from the dictionary: it has `create` compute it again.  So a vector comes back as it was exactly if
its zones carry the scores that `create` computes, and in the runs of an executor whose transitions
make their states with `create` they always do; no law of arithmetic is needed for that.  An
executor that is started with a saved vector then does what the saved one would have done.
-/

namespace QuantumFoundation

variable {F : Type*} [LT F] [OfScientific F]

/-- The dictionary of a zone, as `to_dict` writes it. -/
structure ShipStateDict (F : Type*) where
  zoneId : String
  corrosionDepth : F
  coatingThickness : F
  barnacleDensity : F
  roughness : F
  riskScore : F
deriving DecidableEq

namespace ShipState

/-- `to_dict`. -/
def toDict (s : ShipState F) : ShipStateDict F where
  zoneId := s.zoneId
  corrosionDepth := s.corrosionDepth
  coatingThickness := s.coatingThickness
  barnacleDensity := s.barnacleDensity
  roughness := s.roughness
  riskScore := s.riskScore

variable [Add F] [Mul F] [Div F] [DecidableLT F] (E : FloatEnv F)

/-- `from_dict`.  The score is not read. -/
def fromDict (d : ShipStateDict F) : Except PyError (ShipState F) :=
  create E d.zoneId d.corrosionDepth d.coatingThickness d.barnacleDensity d.roughness

end ShipState

namespace ShipStateVector

/-- `to_dict`. -/
def toDict (v : ShipStateVector F) : Dict String (ShipStateDict F) :=
  v.zones.sorted.mapValues fun _ s => s.toDict

variable [Add F] [Mul F] [Div F] [DecidableLT F] (E : FloatEnv F)

/-- The loop of `from_dict` over the items. -/
def zonesFromDict : List (String × ShipStateDict F) → Dict String (ShipState F) →
    Except PyError (Dict String (ShipState F))
  | [], zones => .ok zones
  | (zid, zdata) :: rest, zones =>
    match ShipState.fromDict E zdata with
    | .error exc => .error exc
    | .ok state => zonesFromDict rest (zones.set zid state)

/-- `from_dict`. -/
def fromDict (d : Dict String (ShipStateDict F)) : Except PyError (ShipStateVector F) :=
  match zonesFromDict E d.entries .empty with
  | .error exc => .error exc
  | .ok zones => new zones

end ShipStateVector

/-! ### What comes back -/

section RoundTrip

variable [Add F] [Mul F] [Div F] [DecidableLT F] {E : FloatEnv F}

namespace ShipState

/-- The score that `create` gives to a zone with these fields. -/
def score (E : FloatEnv F) (s : ShipState F) : F :=
  computeRiskScore E s.corrosionDepth s.coatingThickness s.barnacleDensity s.roughness

/-- The zone with its score computed again. -/
def rescored (E : FloatEnv F) (s : ShipState F) : ShipState F := { s with riskScore := s.score E }

lemma rescored_eq_self {s : ShipState F} : s.rescored E = s ↔ s.riskScore = s.score E := by
  rw [rescored]
  cases s
  simp only [mk.injEq, true_and, eq_comm]

lemma fromDict_toDict (s : ShipState F) : fromDict E s.toDict = .ok (s.rescored E) := by
  rw [fromDict, create, new, toDict, dif_neg s.zoneId_ne, dif_neg s.coating_nonneg,
    dif_neg s.barnacle_nonneg, dif_neg s.roughness_nonneg]
  rfl

/-- What `create` makes carries its score. -/
lemma riskScore_of_create {zoneId : String} {c t b r : F} {s : ShipState F}
    (h : create E zoneId c t b r = .ok s) : s.riskScore = s.score E := by
  rw [create, new] at h
  obtain ⟨_, h⟩ := dite_guard_eq_ok h
  obtain ⟨_, h⟩ := dite_guard_eq_ok h
  obtain ⟨_, h⟩ := dite_guard_eq_ok h
  obtain ⟨_, h⟩ := dite_guard_eq_ok h
  rw [← Except.ok.inj h]
  rfl

end ShipState

namespace ShipStateVector

/-- The loop decodes zone by zone. -/
lemma zonesFromDict_toDict (l : List (String × ShipState F)) (zones : Dict String (ShipState F)) :
    zonesFromDict E (l.map fun p => (p.1, p.2.toDict)) zones
      = .ok (l.foldl (fun zones p => zones.set p.1 (p.2.rescored E)) zones) := by
  induction l generalizing zones with
  | nil => rfl
  | cons p l ih =>
    rw [List.map_cons, zonesFromDict, ShipState.fromDict_toDict]
    exact ih _

/-- The vector comes back with the scores computed again. -/
lemma fromDict_toDict (v : ShipStateVector F) :
    ∃ w, fromDict E v.toDict = .ok w ∧ w.get = fun zoneId => (v.get zoneId).map (·.rescored E) := by
  have hzones : v.zones.sorted.entries.foldl (fun zones p => zones.set p.1 (p.2.rescored E)) .empty
      = v.zones.sorted.mapValues fun _ s => s.rescored E := by
    rw [← Dict.ofList_entries (v.zones.sorted.mapValues _), Dict.ofList, Dict.mapValues,
      List.foldl_map]
  have hkeyed : ∀ p ∈ (v.zones.sorted.mapValues fun _ s => s.rescored E).entries,
      p.2.zoneId = p.1 := fun p hp => by
    obtain ⟨q, hq, rfl⟩ := List.mem_map.mp hp
    exact v.keyed q (Dict.mem_entries_sorted.mp hq)
  obtain ⟨w, hw, hwzones⟩ := new_ok hkeyed
  refine ⟨w, ?_, funext fun zoneId => ?_⟩
  · have hloop := zonesFromDict_toDict (E := E) v.zones.sorted.entries .empty
    rw [hzones] at hloop
    rw [fromDict, toDict, Dict.mapValues]
    dsimp only
    rw [hloop]
    exact hw
  · rw [get, hwzones, Dict.get?_sorted, Dict.get?_mapValues, Dict.get?_sorted]
    rfl

/-- **Round trip.**  A vector comes back as it was exactly if its zones carry their scores. -/
theorem fromDict_toDict_eq_iff (v : ShipStateVector F) :
    fromDict E v.toDict = .ok v ↔ ∀ zoneId s, v.get zoneId = some s → s.riskScore = s.score E := by
  obtain ⟨w, hw, hget⟩ := fromDict_toDict (E := E) v
  rw [hw]
  constructor
  · intro h zoneId s hs
    have hself := congrFun hget zoneId
    rw [Except.ok.inj h, hs, Option.map_some] at hself
    exact ShipState.rescored_eq_self.mp (Option.some.inj hself).symm
  · intro h
    refine congrArg _ (ext_get (hget.trans (funext fun zoneId => ?_)))
    cases hs : v.get zoneId with
    | none => rfl
    | some s => rw [Option.map_some, ShipState.rescored_eq_self.mpr (h zoneId s hs)]

end ShipStateVector

end RoundTrip

/-! ### Runs -/

variable [LE F]

/-- What a batch tells of the ship: its inputs, and the hashes before and after it. -/
def ZoneBatch.account (b : ZoneBatch F) : List (String × TransitionInput F) × String × String :=
  (b.zoneTransitions, b.preGlobalHash, b.postGlobalHash)

namespace MultiZoneExecutor

variable {E : FloatEnv F} {x y : MultiZoneExecutor F}
  {c : Dict String (TransitionInput F) × String}

/-- The executors have the same zones and the same transitions. -/
structure SameShip (x y : MultiZoneExecutor F) : Prop where
  state : x.state = y.state
  transitionFns : x.engine.transitionFns = y.engine.transitionFns

/-- A batch that raises changes neither the zones nor the batches nor the transitions. -/
lemma keeps_of_error {x' : MultiZoneExecutor F} {exc : PyError}
    (h : x.executeBatch E c.1 c.2 = (x', .error exc)) :
    SameShip x' x ∧ x'.batches = x.batches := by
  rcases executeBatch_cases E c.1 c.2 x with ⟨exc', -, hr⟩ |
    ⟨-, done, recs, -, -, ⟨p, post, exc', -, -, hr⟩ | ⟨-, ⟨-, exc', hr⟩ | ⟨-, x₁, batch, hr, -⟩⟩⟩
  · obtain rfl := (Prod.mk.inj (h.symm.trans hr)).1
    exact ⟨⟨rfl, rfl⟩, rfl⟩
  · obtain rfl := (Prod.mk.inj (h.symm.trans hr)).1
    exact ⟨⟨rfl, rfl⟩, rfl⟩
  · obtain rfl := (Prod.mk.inj (h.symm.trans hr)).1
    exact ⟨⟨rfl, rfl⟩, rfl⟩
  · exact absurd (h.symm.trans hr) (by simp)

/-- A batch that goes through on one executor goes through on another with the same ship, to the
same effect, and is recorded with the same account. -/
lemma SameShip.ok (h : SameShip x y) {x' : MultiZoneExecutor F} {batch : ZoneBatch F}
    (hx : x.executeBatch E c.1 c.2 = (x', .ok batch)) :
    ∃ y' batch', y.executeBatch E c.1 c.2 = (y', .ok batch') ∧ SameShip x' y' ∧
      batch.account = batch'.account := by
  obtain ⟨heffect, hfns⟩ := batchEffect_of_ok hx
  rw [h.state, h.transitionFns] at heffect
  obtain ⟨y', batch', hy⟩ := ok_of_batchEffect E (Option.isSome_of_eq_some heffect)
  obtain ⟨heffect', hfns'⟩ := batchEffect_of_ok hy
  have hstate : x'.state = y'.state :=
    ShipStateVector.ext_get (Option.some.inj (heffect.symm.trans heffect'))
  obtain ⟨-, ⟨⟨exc, hexc⟩, -⟩ | ⟨b, hb, -, -, -, hpre, hpost, -⟩⟩ := executeBatch_record E c.1 c.2 x
  · exact absurd hexc (by simp [hx])
  obtain ⟨-, ⟨⟨exc, hexc⟩, -⟩ | ⟨b', hb', -, -, -, hpre', hpost', -⟩⟩ :=
    executeBatch_record E c.1 c.2 y
  · exact absurd hexc (by simp [hy])
  rw [hx] at hb hpost
  rw [hy] at hb' hpost'
  obtain rfl := Except.ok.inj hb
  obtain rfl := Except.ok.inj hb'
  refine ⟨y', batch', hy, ⟨hstate, by rw [hfns, hfns', h.transitionFns]⟩, ?_⟩
  rw [ZoneBatch.account, ZoneBatch.account, (recordOf_executeBatch hx).1.zoneTransitions,
    (recordOf_executeBatch hy).1.zoneTransitions, hpre, hpre', hpost, hpost', globalHash,
    globalHash, globalHash, globalHash, h.state, hstate]

/-- **Step lemma.**  A batch does the same to executors with the same ship. -/
theorem SameShip.call (h : SameShip x y) (c : Dict String (TransitionInput F) × String) :
    SameShip (call E x c) (call E y c) ∧ ∃ bs cs, (call E x c).batches = x.batches ++ bs ∧
      (call E y c).batches = y.batches ++ cs ∧
      bs.map ZoneBatch.account = cs.map ZoneBatch.account := by
  rw [MultiZoneExecutor.call, MultiZoneExecutor.call]
  rcases hx : x.executeBatch E c.1 c.2 with ⟨x', exc | batch⟩
  · rcases hy : y.executeBatch E c.1 c.2 with ⟨y', exc' | batch'⟩
    · obtain ⟨hsame, hbatches⟩ := keeps_of_error hx
      obtain ⟨hsame', hbatches'⟩ := keeps_of_error hy
      refine ⟨⟨?_, ?_⟩, [], [], ?_, ?_, rfl⟩
      · rw [hsame.state, hsame'.state, h.state]
      · rw [hsame.transitionFns, hsame'.transitionFns, h.transitionFns]
      · rw [hbatches, List.append_nil]
      · rw [hbatches', List.append_nil]
    · obtain ⟨x₁, batch, hr, -⟩ := SameShip.ok ⟨h.state.symm, h.transitionFns.symm⟩ hy
      exact absurd (hx.symm.trans hr) (by simp)
  · obtain ⟨y', batch', hy, hsame, haccount⟩ := h.ok hx
    rw [hy]
    exact ⟨hsame, [batch], [batch'], (recordOf_executeBatch hx).2.1, (recordOf_executeBatch hy).2.1,
      congrArg (fun a => [a]) haccount⟩

/-- **Run lemma.** -/
theorem SameShip.exec (h : SameShip x y) (calls : List (Dict String (TransitionInput F) × String)) :
    SameShip (Run.exec (MultiZoneExecutor.call E) x calls)
        (Run.exec (MultiZoneExecutor.call E) y calls) ∧
      ∃ bs cs, (Run.exec (MultiZoneExecutor.call E) x calls).batches = x.batches ++ bs ∧
        (Run.exec (MultiZoneExecutor.call E) y calls).batches = y.batches ++ cs ∧
        bs.map ZoneBatch.account = cs.map ZoneBatch.account := by
  induction calls generalizing x y with
  | nil => exact ⟨h, [], [], (List.append_nil _).symm, (List.append_nil _).symm, rfl⟩
  | cons c calls ih =>
    obtain ⟨hstep, bs, cs, hbs, hcs, haccount⟩ := h.call (E := E) c
    obtain ⟨hend, bs', cs', hbs', hcs', haccount'⟩ := ih hstep
    refine ⟨hend, bs ++ bs', cs ++ cs', ?_, ?_, ?_⟩
    · rw [Run.exec_cons, hbs', hbs, List.append_assoc]
    · rw [Run.exec_cons, hcs', hcs, List.append_assoc]
    · rw [List.map_append, List.map_append, haccount, haccount']

end MultiZoneExecutor

/-! ### The scores of a run -/

section Scores

variable [Add F] [Mul F] [Div F] [DecidableLT F] {E : FloatEnv F}

/-- Every zone carries the score that `create` gives it. -/
def ShipStateVector.Scored (E : FloatEnv F) (v : ShipStateVector F) : Prop :=
  ∀ zoneId s, v.get zoneId = some s → s.riskScore = s.score E

/-- The states that the registered transitions make carry their scores. -/
def DeterministicTransitionEngine.Scores (E : FloatEnv F)
    (fns : Dict String (TransitionFunction F)) : Prop :=
  ∀ name fn, fns.get? name = some fn → ∀ s inp s', fn s inp = .ok s' → s'.riskScore = s'.score E

namespace DeterministicTransitionEngine

/-- The built-in transitions make their states with `create`. -/
lemma scores_new [Sub F] (E : FloatEnv F) : Scores E (new E).transitionFns := by
  intro name fn hfn s inp s' hok
  rcases MultiZoneExecutor.name_of_default hfn with rfl | rfl
  · obtain rfl : acceleratedCorrosionTransition E = fn := Option.some.inj hfn
    exact ShipState.riskScore_of_create hok
  · obtain rfl : standardPhysicalTransition E = fn := Option.some.inj hfn
    exact ShipState.riskScore_of_create hok

/-- A transition that makes its states with `create` may be registered. -/
lemma Scores.registerTransition {engine : DeterministicTransitionEngine F}
    (h : Scores E engine.transitionFns) (name : String) {fn : TransitionFunction F}
    (hfn : ∀ s inp s', fn s inp = .ok s' → s'.riskScore = s'.score E) :
    Scores E (engine.registerTransition name fn).1.transitionFns := by
  rw [DeterministicTransitionEngine.registerTransition]
  split
  · exact h
  · intro name' fn' hfn'
    rw [Dict.get?_set] at hfn'
    split at hfn'
    · rwa [← Option.some.inj hfn']
    · exact h name' fn' hfn'

end DeterministicTransitionEngine

namespace MultiZoneExecutor

variable {x : MultiZoneExecutor F}

/-- **Step lemma.**  A batch keeps the scores right and the transitions registered. -/
theorem scored_call (hscores : DeterministicTransitionEngine.Scores E x.engine.transitionFns)
    (h : x.state.Scored E) (c : Dict String (TransitionInput F) × String) :
    (call E x c).engine.transitionFns = x.engine.transitionFns ∧
      (call E x c).state.Scored E := by
  rw [call]
  rcases hx : x.executeBatch E c.1 c.2 with ⟨x', exc | batch⟩
  · obtain ⟨hsame, -⟩ := keeps_of_error hx
    exact ⟨hsame.transitionFns, fun zoneId s hs => h zoneId s (hsame.state ▸ hs)⟩
  · obtain ⟨heffect, hfns⟩ := batchEffect_of_ok hx
    refine ⟨hfns, fun zoneId s hs => ?_⟩
    rw [batchEffect] at heffect
    split at heffect
    · rw [← Option.some.inj heffect] at hs
      cases hz : c.1.get? zoneId with
      | none =>
        simp only [hz] at hs
        exact h zoneId s hs
      | some inp =>
        simp only [hz] at hs
        -- the zone is what its transition has made of it
        obtain ⟨hresult, -⟩ := zoneEffect_eq_some.mp hs
        obtain ⟨fn, hfn, hresult⟩ := Option.bind_eq_some_iff.mp hresult
        obtain ⟨t, -, hok⟩ := Option.bind_eq_some_iff.mp hresult
        cases hfnt : fn t inp with
        | error exc => simp [hfnt, Except.toOption] at hok
        | ok s' =>
          rw [hfnt] at hok
          exact hscores c.2 fn hfn t inp s (Option.some.inj hok ▸ hfnt)
    · cases heffect

/-- **Going on from a saved ship.**  After every run of batches, whichever raise, the vector comes
back from its dictionary as it was.  An executor started with what comes back, on an engine of its
own with the same transitions, then does what the first one would have done: whatever batches
follow, both end with the same vector, and they record the same inputs with the same hashes. -/
theorem resume_of_run (E : FloatEnv F) {initialState : ShipStateVector F}
    (h₀ : initialState.Scored E) {engine engine' : DeterministicTransitionEngine F}
    (hscores : DeterministicTransitionEngine.Scores E engine.transitionFns)
    (hfns : engine'.transitionFns = engine.transitionFns)
    (earlier later : List (Dict String (TransitionInput F) × String)) :
    let x := Run.exec (call E) (new initialState engine) earlier
    let z := Run.exec (call E) x later
    ∃ v, ShipStateVector.fromDict E x.state.toDict = .ok v ∧ v = x.state ∧
      let y := Run.exec (call E) (new v engine') later
      y.state = z.state ∧ ∃ bs, z.batches = x.batches ++ bs ∧
        y.batches.map ZoneBatch.account = bs.map ZoneBatch.account := by
  intro x z
  have hx : x.engine.transitionFns = engine.transitionFns ∧ x.state.Scored E :=
    Run.invariant_of_forall
      (I := fun x : MultiZoneExecutor F =>
        x.engine.transitionFns = engine.transitionFns ∧ x.state.Scored E)
      (fun x c hx => by
        obtain ⟨hfns, hscored⟩ := scored_call (hx.1.symm ▸ hscores) hx.2 c
        exact ⟨hfns.trans hx.1, hscored⟩)
      ⟨rfl, h₀⟩ earlier
  refine ⟨x.state, (ShipStateVector.fromDict_toDict_eq_iff x.state).mpr hx.2, rfl, ?_⟩
  have hstart : SameShip (new x.state engine') x := ⟨rfl, hfns.trans hx.1.symm⟩
  obtain ⟨hsame, bs, cs, hbs, hcs, haccount⟩ := hstart.exec (E := E) later
  refine ⟨hsame.state, cs, hcs, ?_⟩
  rw [hbs]
  exact haccount

end MultiZoneExecutor

end Scores

/-! ### A bow that is saved -/

lemma ShipStateVector.scored_newShip : MultiZoneExecutor.newShip.Scored exactEnv := by
  intro zoneId s hs
  obtain ⟨c, t, b, r, hcreate⟩ := MultiZoneExecutor.create_newShip zoneId s hs
  exact ShipState.riskScore_of_create hcreate

/-- A bow is saved after a batch, and goes on with another one, that goes through. -/
theorem MultiZoneExecutor.resume_of_bow :
    let engine := DeterministicTransitionEngine.new exactEnv
    let x := Run.exec (call exactEnv) (new newShip engine) [(seaBatch, "standard")]
    let later := [(seaBatch, "accelerated_corrosion")]
    let z := Run.exec (call exactEnv) x later
    z.batches.length = 2 ∧
      ∃ v, ShipStateVector.fromDict exactEnv x.state.toDict = .ok v ∧ v = x.state ∧
        let y := Run.exec (call exactEnv) (new v engine) later
        y.state = z.state ∧ ∃ bs, z.batches = x.batches ++ bs ∧
          y.batches.map ZoneBatch.account = bs.map ZoneBatch.account := by
  intro engine x later z
  exact ⟨by decide +kernel, resume_of_run exactEnv ShipStateVector.scored_newShip
    (DeterministicTransitionEngine.scores_new exactEnv) rfl [(seaBatch, "standard")] later⟩

end QuantumFoundation
