import QuantumFoundation.Json
import QuantumFoundation.Quantum.StateRuns
import QuantumFoundation.Quantum.UnitaryRules
import QuantumFoundation.Quantum.WeakEntropy

/-!
# The built-in rules

The rules that `state_evolution_engine.py` comes with: one that changes nothing, one that turns the
phase of every amplitude, and one that dampens one amplitude and normalises.  In exact arithmetic
an engine that knows no other rules only ever scales the amplitudes of its initial state, each by
the dampings of its own label and all by one common factor.  So the probabilities after a run
neither depend on the phases nor on the order of the observations.
-/

namespace QuantumFoundation

variable {R : Type*}

lemma Dict.modify_eq_mapValues {κ υ : Type*} [DecidableEq κ] (d : Dict κ υ) (k : κ)
    (f : υ → υ) : d.modify k f = d.mapValues fun j v => if j = k then f v else v := by
  ext1
  refine List.map_congr_left fun p _ => ?_
  by_cases h : p.1 = k
  · simp only [if_pos h]
  · simp only [if_neg h]

/-! ### The rules -/

section Rules

/-- `obs.payload[i]`. -/
def Observation.item {ω : Type*} (obs : Observation ω) (i : ℕ) : Except Raised ω :=
  match obs.payload[i]? with
  | none => .error ⟨.other "IndexError", "tuple index out of range"⟩
  | some value => .ok value

variable [PyFloat R] [PyQuotient R] (N : NumberEnv R) (text : Json R → String)

/-- `identity_rule`. -/
def identityRule : TransitionRule R (Json R) := fun state _ => .ok state

/-- `phase_rotation_rule`. -/
def phaseRotationRule : TransitionRule R (Json R) := fun state obs =>
  match (obs.item 0).bind (Json.toFloat N) with
  | .error exc => .error exc
  | .ok theta =>
    let rotation := PyComplex.expI theta
    StateVector.new (state.asDict.mapValues fun _ value => value * rotation)

/-- The label to be dampened: a text, that is a key of the amplitudes. -/
def targetLabel (newAmps : Dict String (PyComplex R)) (label : Json R) : Except Raised String :=
  match label with
  | .str l =>
    if newAmps.contains l then .ok l
    else .error ⟨.valueError, "Basis label '" ++ l ++ "' not found in state"⟩
  | .list _ => .error ⟨.typeError, "unhashable type: 'list'"⟩
  | .dict _ => .error ⟨.typeError, "unhashable type: 'dict'"⟩
  | label => .error ⟨.valueError, "Basis label '" ++ text label ++ "' not found in state"⟩

/-- `dampened_amplitude_rule`. -/
def dampenedAmplitudeRule : TransitionRule R (Json R) := fun state obs =>
  match obs.item 0, (obs.item 1).bind (Json.toFloat N) with
  | .error exc, _ => .error exc
  | .ok _, .error exc => .error exc
  | .ok label, .ok damping =>
    if ¬((0.0 : R) ≤ damping ∧ damping ≤ (1.0 : R)) then
      .error ⟨.valueError, "damping must be in [0, 1]"⟩
    else
      match targetLabel text state.asDict label with
      | .error exc => .error exc
      | .ok label =>
        let newAmps := state.asDict.modify label fun value => value * .ofReal damping
        let rawNorm := PyFloat.sqrt (pySum (newAmps.values.map fun v => PyQuotient.square v.abs))
        if rawNorm < (1e-15 : R) then
          .error ⟨.valueError,
            "[FORBIDDEN STATE] Damping drove norm to zero — state annihilated."⟩
        else StateVector.new (newAmps.mapValues fun _ v => PyQuotient.divReal v rawNorm)

/-- The three rules. -/
inductive BuiltInRule
  | identity
  | phaseRotation
  | dampenedAmplitude
deriving DecidableEq

/-- The rule that is meant. -/
def BuiltInRule.rule : BuiltInRule → TransitionRule R (Json R)
  | identity => identityRule
  | phaseRotation => phaseRotationRule N
  | dampenedAmplitude => dampenedAmplitudeRule N text

/-! ### Runs -/

/-- A call of an engine to which no other rules are given. -/
inductive BuiltInCall (R : Type*)
  | registerRule (observationType : String) (rule : BuiltInRule) (description : String)
  | observe (observation : Observation (Json R))

/-- The call as one of the engine. -/
def BuiltInCall.toCall : BuiltInCall R → SovereignStateEngine.Call R (Json R)
  | registerRule observationType rule description =>
    .registerRule observationType (rule.rule N text) description
  | observe observation => .observe observation

omit [PyFloat R] [PyQuotient R] in
/-- The rule for a type of observations: the first one that was registered. -/
def ruleFor (calls : List (BuiltInCall R)) (observationType : String) : Option BuiltInRule :=
  calls.findSome? fun call => match call with
    | .registerRule t rule _ => if t = observationType then some rule else none
    | .observe _ => none

omit [PyFloat R] [PyQuotient R] in
/-- The label to be dampened is a text. -/
lemma targetLabel_ok {newAmps : Dict String (PyComplex R)} {label : Json R} {l : String}
    (h : targetLabel text newAmps label = .ok l) : label = .str l := by
  rw [targetLabel.eq_def] at h
  split at h
  · split at h
    · rw [← Except.ok.inj h]
    · cases h
  all_goals cases h

omit [PyFloat R] [PyQuotient R] in
lemma ruleFor_append (calls : List (BuiltInCall R)) (call : BuiltInCall R)
    (observationType : String) : ruleFor (calls ++ [call]) observationType
      = (ruleFor calls observationType).or (ruleFor [call] observationType) :=
  List.findSome?_append

/-- The engine knows the rules that were given to it first. -/
lemma rules_of_run (s : StateVector R) (calls : List (BuiltInCall R)) (observationType : String) :
    ((Run.exec SovereignStateEngine.perform (.new s)
        (calls.map (BuiltInCall.toCall N text))).rules.get? observationType).map RegisteredRule.rule
      = (ruleFor calls observationType).map (BuiltInRule.rule N text) := by
  induction calls using List.reverseRecOn with
  | nil => rfl
  | append_singleton calls call ih =>
    rw [List.map_append, Run.exec_append, ruleFor_append]
    generalize Run.exec SovereignStateEngine.perform (.new s)
      (calls.map (BuiltInCall.toCall N text)) = engine at ih ⊢
    show ((engine.perform (call.toCall N text)).rules.get? observationType).map _ = _
    cases call with
    | registerRule t rule description =>
      have hone : ruleFor [BuiltInCall.registerRule (R := R) t rule description] observationType
          = if t = observationType then some rule else none := by
        rw [ruleFor, List.findSome?_cons]
        split <;> simp_all
      rw [BuiltInCall.toCall, SovereignStateEngine.perform, SovereignStateEngine.call, hone,
        SovereignStateEngine.registerRule]
      by_cases hmem : engine.rules.contains t = true
      · -- a rule that is registered stays
        rw [if_pos hmem, ih]
        split
        · rename_i ht
          obtain ⟨reg, hreg⟩ := Dict.mem_keys.mp (Dict.contains_eq_true.mp hmem)
          rw [Dict.get?_eq_some.mpr (ht ▸ hreg)] at ih
          cases hrule : ruleFor calls observationType with
          | none => cases hrule ▸ ih
          | some rule' => rfl
        · rw [Option.or_none]
      · rw [if_neg hmem, Dict.get?_set]
        split
        · rename_i ht
          rw [ht, Dict.get?_eq_none_of_contains hmem] at ih
          rw [ht, if_pos rfl, Option.map_eq_none_iff.mp ih.symm]
          rfl
        · rename_i ht
          rw [if_neg fun heq => ht heq.symm, Option.or_none, ih]
    | observe observation =>
      have hnone : ruleFor [BuiltInCall.observe observation] observationType = none := rfl
      rw [hnone, Option.or_none, ← ih, BuiltInCall.toCall, SovereignStateEngine.perform,
        SovereignStateEngine.call]
      rcases engine.observe_cases observation with ⟨exc, hr, -⟩ | ⟨delta, hr, -⟩
      · rw [hr]
      · rw [hr]
        rfl

end Rules

/-! ### What the rules do -/

section Exact

variable [Field R] [LinearOrder R] [MathLibrary R]

/-- The factor by which an observation dampens a label. -/
def dampingFactor (N : NumberEnv R) (rule : BuiltInRule) (obs : Observation (Json R))
    (label : String) : R :=
  match rule, obs.payload with
  | .dampenedAmplitude, .str l :: damping :: _ =>
    if label = l then (damping.toFloat N).toOption.getD 1 else 1
  | _, _ => 1

variable {N : NumberEnv R} {text : Json R → String} {s t u : StateVector R}
  {obs : Observation (Json R)}

/-- The amplitudes of a state are those of another one, each times the factor of its label, and all
times a constant. -/
structure StateVector.Scaled (f : String → R) (c : PyComplex R) (s t : StateVector R) : Prop where
  keys_eq : t.asDict.keys = s.asDict.keys
  coeff_eq : ∀ l, t.asDict.coeff l = c * .ofReal (f l) * s.asDict.coeff l

namespace StateVector.Scaled

variable {f g : String → R} {c d : PyComplex R}

/-- Values that are mapped are scaled. -/
lemma of_mapValues {φ : String → PyComplex R → PyComplex R} (h : t.asDict = s.asDict.mapValues φ)
    (hφ : ∀ l z, φ l z = c * .ofReal (f l) * z) : Scaled f c s t where
  keys_eq := by rw [h, Dict.keys_mapValues]
  coeff_eq l := by
    have hzero : ∀ k, φ k 0 = 0 := fun k => by rw [hφ, mul_zero]
    rw [h, Dict.coeff_mapValues hzero, hφ]

lemma refl (s : StateVector R) : Scaled (fun _ => 1) 1 s s where
  keys_eq := rfl
  coeff_eq l := by
    show _ = 1 * 1 * _
    rw [one_mul, one_mul]

lemma trans (hst : Scaled f c s t) (htu : Scaled g d t u) :
    Scaled (fun l => f l * g l) (c * d) s u where
  keys_eq := htu.keys_eq.trans hst.keys_eq
  coeff_eq l := by
    have hreal : PyComplex.ofReal (f l * g l) = .ofReal (f l) * .ofReal (g l) := by
      ext <;> simp [PyComplex.ofReal]
    rw [htu.coeff_eq, hst.coeff_eq, hreal]
    ring

lemma born_eq (h : Scaled f c s t) (l : String) :
    (t.asDict.coeff l).born = c.born * (f l ^ 2 * (s.asDict.coeff l).born) := by
  rw [h.coeff_eq, PyComplex.born_mul, PyComplex.born_mul, PyComplex.born_ofReal, mul_assoc]

/-- The total probability of the scaled state. -/
lemma totalProbability_eq (h : Scaled f c s t) : totalProbability t.amplitudes
    = c.born * ∑ l ∈ s.asDict.keys.toFinset, f l ^ 2 * (s.asDict.coeff l).born := by
  have hlabels : ∀ k ∈ t.asDict.keys, k ∈ s.asDict.keys.toFinset := fun k hk =>
    List.mem_toFinset.mpr (h.keys_eq ▸ hk)
  rw [t.totalProbability_eq_sum hlabels, Finset.mul_sum]
  exact Finset.sum_congr rfl fun l _ => h.born_eq l

/-- A phase keeps the total probability. -/
lemma totalProbability_of_phase (h : Scaled (fun _ => 1) c s t) (hc : c.born = 1) :
    totalProbability t.amplitudes = totalProbability s.amplitudes := by
  have hlabels : ∀ k ∈ s.asDict.keys, k ∈ s.asDict.keys.toFinset := fun _ =>
    List.mem_toFinset.mpr
  rw [h.totalProbability_eq, hc, one_mul, s.totalProbability_eq_sum hlabels]
  exact Finset.sum_congr rfl fun l _ => by rw [one_pow, one_mul]

end StateVector.Scaled

lemma identityRule_ok (obs : Observation (Json R)) (h : identityRule s obs = .ok t) : t = s :=
  (Except.ok.inj h).symm

/-- **Turning the phase** multiplies every amplitude with a number of absolute value one. -/
theorem phaseRotationRule_ok [IsStrictOrderedRing R] [LawfulMathLibrary R]
    (h : phaseRotationRule N s obs = .ok t) :
    ∃ c, PyComplex.born c = 1 ∧ StateVector.Scaled (fun _ => 1) c s t := by
  rw [phaseRotationRule] at h
  split at h
  · cases h
  · rename_i theta _
    refine ⟨.expI theta, ?_, .of_mapValues (StateVector.asDict_of_new h) fun l z => ?_⟩
    · have hborn := PyComplex.born_mul_expI (1 : PyComplex R) theta
      rw [one_mul] at hborn
      rw [hborn, PyComplex.born_eq]
      simp
    · have hone : PyComplex.ofReal (1 : R) = 1 := rfl
      rw [hone, mul_one, mul_comm]

/-- What `dampened_amplitude_rule` reads of the observation. -/
lemma dampingFactor_eq {label : Json R} {damping : R} {l : String}
    (hlabel : obs.item 0 = .ok label) (hl : label = .str l)
    (hdamping : (obs.item 1).bind (Json.toFloat N) = .ok damping) (label' : String) :
    dampingFactor N .dampenedAmplitude obs label' = if label' = l then damping else 1 := by
  subst hl
  rw [Observation.item] at hlabel hdamping
  rw [dampingFactor.eq_def]
  cases hpayload : obs.payload with
  | nil =>
    rw [hpayload] at hlabel
    cases hlabel
  | cons first rest =>
    rw [hpayload] at hlabel hdamping
    cases hlabel
    cases rest with
    | nil => cases hdamping
    | cons second rest =>
      have hvalue : second.toFloat N = .ok damping := hdamping
      simp only [hvalue]
      rfl

/-- The norm by which the amplitudes are divided. -/
lemma sqrt_pySum_mul_self [IsStrictOrderedRing R] [ExactMathLibrary R]
    (l : List (PyComplex R)) :
    PyFloat.sqrt (pySum (l.map fun v => PyQuotient.square v.abs))
        * PyFloat.sqrt (pySum (l.map fun v => PyQuotient.square v.abs))
      = (l.map PyComplex.born).sum := by
  have hborn : (l.map fun v => PyQuotient.square v.abs) = l.map PyComplex.born := by
    refine List.map_congr_left fun v _ => ?_
    exact (sq v.abs).trans v.abs_mul_self
  rw [hborn, pySum_eq_sum]
  refine ExactMathLibrary.sqrt_mul_self _ (List.sum_nonneg fun x hx => ?_)
  obtain ⟨v, -, rfl⟩ := List.mem_map.mp hx
  exact v.born_nonneg

lemma divReal_eq (z : PyComplex R) (x : R) :
    PyQuotient.divReal z x = .ofReal (1 / x) * z := by
  ext
  · show z.re / x = 1 / x * z.re - 0 * z.im
    ring
  · show z.im / x = 1 / x * z.im + 0 * z.re
    ring

/-- Divided by their norm, amplitudes have the total probability one. -/
lemma totalProbability_divReal [IsStrictOrderedRing R] [ExactMathLibrary R]
    {amps : Dict String (PyComplex R)}
    (h : PyFloat.sqrt (pySum (amps.values.map fun v => PyQuotient.square v.abs)) ≠ 0) :
    totalProbability ((amps.mapValues fun _ v => PyQuotient.divReal v
      (PyFloat.sqrt (pySum (amps.values.map fun v => PyQuotient.square v.abs)))).entries.map
        fun p => (⟨p.1, p.2⟩ : Amplitude R)) = 1 := by
  have hself := sqrt_pySum_mul_self amps.values
  generalize PyFloat.sqrt (pySum (amps.values.map fun v => PyQuotient.square v.abs)) = n at h hself
  calc
    _ = (amps.values.map fun v => v.born * (n * n)⁻¹).sum := by
      rw [totalProbability, Dict.mapValues, List.map_map, List.map_map, Dict.values, List.map_map]
      refine congrArg List.sum (List.map_congr_left fun p _ => ?_)
      exact (WeakMeasurementPolicy.born_divReal p.2 n).trans (div_eq_mul_inv _ _)
    _ = (amps.values.map PyComplex.born).sum * (n * n)⁻¹ :=
      List.sum_map_mul_right _ _ _
    _ = 1 := by rw [← hself, mul_inv_cancel₀ (mul_ne_zero h h)]

/-- **Dampening** scales one amplitude by a number, and all by another one, so that the total
probability is one. -/
theorem dampenedAmplitudeRule_ok [IsStrictOrderedRing R] [ExactMathLibrary R]
    (h : dampenedAmplitudeRule N text s obs = .ok t) :
    ∃ c, 0 < PyComplex.born c ∧
      StateVector.Scaled (dampingFactor N .dampenedAmplitude obs) c s t ∧
      totalProbability t.amplitudes = 1 := by
  rw [dampenedAmplitudeRule] at h
  split at h
  · cases h
  · cases h
  · rename_i label damping hlabel hdamping
    split at h
    · cases h
    · split at h
      · cases h
      · rename_i l hl
        dsimp only at h
        split at h
        · cases h
        · rename_i hlarge
          obtain ⟨n, hn⟩ : ∃ n, n = PyFloat.sqrt (pySum ((s.asDict.modify l fun value =>
            value * .ofReal damping).values.map fun v => PyQuotient.square v.abs)) := ⟨_, rfl⟩
          rw [← hn] at h hlarge
          have hpos : 0 < n := lt_of_lt_of_le (by norm_num : (0 : R) < 1e-15) (not_lt.mp hlarge)
          have hdict := StateVector.asDict_of_new h
          refine ⟨.ofReal (1 / n), ?constant, ?scaled, ?total⟩
          case constant =>
            rw [PyComplex.born_ofReal]
            positivity
          case scaled =>
            rw [Dict.modify_eq_mapValues, Dict.mapValues_mapValues] at hdict
            refine .of_mapValues hdict fun l' z => ?_
            rw [dampingFactor_eq hlabel (targetLabel_ok text hl) hdamping, divReal_eq]
            split
            · ring
            · have hone : PyComplex.ofReal (1 : R) = 1 := rfl
              rw [hone, mul_one]
          case total =>
            rw [t.amplitudes_eq, hdict, hn]
            exact totalProbability_divReal (hn ▸ hpos.ne')

/-- **The built-in rules** scale the amplitudes. -/
theorem BuiltInRule.rule_ok [IsStrictOrderedRing R] [ExactMathLibrary R] {rule : BuiltInRule}
    (h : rule.rule N text s obs = .ok t) :
    ∃ c, 0 < PyComplex.born c ∧ StateVector.Scaled (dampingFactor N rule obs) c s t ∧
      (rule = .dampenedAmplitude → totalProbability t.amplitudes = 1) ∧
      (rule ≠ .dampenedAmplitude → PyComplex.born c = 1 ∧
        totalProbability t.amplitudes = totalProbability s.amplitudes) := by
  cases rule with
  | identity =>
    have hborn : PyComplex.born (1 : PyComplex R) = 1 := by simp [PyComplex.born_eq]
    rw [identityRule_ok obs h]
    exact ⟨1, hborn ▸ one_pos, .refl s, by simp, fun _ => ⟨hborn, rfl⟩⟩
  | phaseRotation =>
    obtain ⟨c, hc, hscaled⟩ := phaseRotationRule_ok h
    exact ⟨c, hc ▸ one_pos, hscaled, by simp, fun _ =>
      ⟨hc, hscaled.totalProbability_of_phase hc⟩⟩
  | dampenedAmplitude =>
    obtain ⟨c, hc, hscaled, htotal⟩ := dampenedAmplitudeRule_ok h
    exact ⟨c, hc, hscaled, fun _ => htotal, fun hrule => absurd rfl hrule⟩

/-! ### What a run does -/

/-- The factor by which the logged observations dampen a label. -/
def damping (N : NumberEnv R) (calls : List (BuiltInCall R)) (log : List (StateDelta R (Json R)))
    (label : String) : R :=
  (log.map fun d => (ruleFor calls d.observation.observationType).elim 1 fun rule =>
    dampingFactor N rule d.observation label).prod

/-- An observation for the rule that dampens is in the log. -/
def IsDampened (calls : List (BuiltInCall R)) (log : List (StateDelta R (Json R))) : Prop :=
  ∃ d ∈ log, ruleFor calls d.observation.observationType = some .dampenedAmplitude

instance decidableIsDampened (calls : List (BuiltInCall R)) (log : List (StateDelta R (Json R))) :
    Decidable (IsDampened calls log) :=
  inferInstanceAs (Decidable (∃ d ∈ log, _ = _))

/-- A delta that one of the rules has made scales the amplitudes. -/
lemma scaled_of_delta [IsStrictOrderedRing R] [ExactMathLibrary R] {calls : List (BuiltInCall R)}
    {rules : Dict String (RegisteredRule R (Json R))} {d : StateDelta R (Json R)}
    (hrules : ∀ t, (rules.get? t).map RegisteredRule.rule
      = (ruleFor calls t).map (BuiltInRule.rule N text))
    (h : SovereignStateEngine.RuleOf rules d) :
    ∃ c, 0 < PyComplex.born c ∧
      StateVector.Scaled (damping N calls [d]) c d.priorState d.nextState ∧
      (IsDampened calls [d] → totalProbability d.nextState.amplitudes = 1) ∧
      (¬IsDampened calls [d] → PyComplex.born c = 1 ∧
        totalProbability d.nextState.amplitudes = totalProbability d.priorState.amplitudes) := by
  obtain ⟨reg, hreg, hnext⟩ := h
  have hrule := hrules d.observation.observationType
  rw [hreg] at hrule
  obtain ⟨rule, hfor, heq⟩ := Option.map_eq_some_iff.mp hrule.symm
  rw [← heq] at hnext
  obtain ⟨c, hc, hscaled, htotal, hborn⟩ := BuiltInRule.rule_ok hnext
  have hfactor : damping N calls [d] = dampingFactor N rule d.observation := by
    funext label
    simp [damping, hfor]
  have hdampened : IsDampened calls [d] ↔ rule = .dampenedAmplitude := by
    simp [IsDampened, hfor]
  rw [hfactor, hdampened]
  exact ⟨c, hc, hscaled, htotal, hborn⟩

lemma damping_append (calls : List (BuiltInCall R)) (L M : List (StateDelta R (Json R)))
    (label : String) :
    damping N calls (L ++ M) label = damping N calls L label * damping N calls M label := by
  simp [damping]

lemma isDampened_append {calls : List (BuiltInCall R)} {L M : List (StateDelta R (Json R))} :
    IsDampened calls (L ++ M) ↔ IsDampened calls L ∨ IsDampened calls M := by
  simp [IsDampened, or_and_right, exists_or]

/-- **A log of such deltas** scales the amplitudes of the state that it begins with. -/
theorem scaled_of_linked [IsStrictOrderedRing R] [ExactMathLibrary R]
    {calls : List (BuiltInCall R)} {rules : Dict String (RegisteredRule R (Json R))}
    (hrules : ∀ t, (rules.get? t).map RegisteredRule.rule
      = (ruleFor calls t).map (BuiltInRule.rule N text))
    {L : List (StateDelta R (Json R))}
    (hlinked : Linked StateDelta.priorState StateDelta.nextState s L)
    (hmade : ∀ d ∈ L, SovereignStateEngine.RuleOf rules d) :
    ∃ c, 0 < PyComplex.born c ∧
      StateVector.Scaled (damping N calls L) c s (tip StateDelta.nextState s L) ∧
      (IsDampened calls L → totalProbability (tip StateDelta.nextState s L).amplitudes = 1) ∧
      (¬IsDampened calls L → PyComplex.born c = 1) := by
  induction L using List.reverseRecOn with
  | nil =>
    have hborn : PyComplex.born (1 : PyComplex R) = 1 := by simp [PyComplex.born_eq]
    exact ⟨1, hborn ▸ one_pos, .refl s, by simp [IsDampened], fun _ => hborn⟩
  | append_singleton L d ih =>
    obtain ⟨hL, hprior⟩ := linked_append_singleton.mp hlinked
    obtain ⟨c, hc, hscaled, htotal, hborn⟩ :=
      ih hL fun d' hd' => hmade d' (List.mem_append_left _ hd')
    obtain ⟨c', hc', hscaled', htotal', hborn'⟩ :=
      scaled_of_delta hrules (hmade d (List.mem_append_right _ (List.mem_singleton_self d)))
    rw [hprior] at hscaled'
    rw [tip_append_singleton, isDampened_append]
    have hpos : 0 < (c * c').born := PyComplex.born_mul c c' ▸ mul_pos hc hc'
    refine ⟨c * c', hpos, ?_, ?_, ?_⟩
    · rw [show damping N calls (L ++ [d]) = _ from funext fun l => damping_append calls L [d] l]
      exact hscaled.trans hscaled'
    · intro hdampened
      by_cases hd : IsDampened calls [d]
      · exact htotal' hd
      · rw [(hborn' hd).2, hprior]
        exact htotal (hdampened.resolve_right hd)
    · intro hnot
      rw [PyComplex.born_mul, hborn fun h => hnot (.inl h), (hborn' fun h => hnot (.inr h)).1,
        one_mul]

/-- What the probabilities of a run are divided by. -/
def mass (N : NumberEnv R) (calls : List (BuiltInCall R)) (s : StateVector R)
    (log : List (StateDelta R (Json R))) : R :=
  if IsDampened calls log then
    ∑ l ∈ s.asDict.keys.toFinset, damping N calls log l ^ 2 * (s.asDict.coeff l).born
  else 1

/-- **The probabilities of a run.**  In exact arithmetic, after any calls of an engine to which only
the built-in rules are given, whichever calls raise: the state has the labels of the initial state
in their order, every amplitude is the initial one times the dampings of its label and a common
constant, and its probability is the initial one times the squares of the dampings, divided by what
these leave of the initial probabilities.  Phases and the order of the observations make no
difference to it. -/
theorem probabilities_of_run [IsStrictOrderedRing R] [ExactMathLibrary R] (N : NumberEnv R)
    (text : Json R → String) (s : StateVector R) (calls : List (BuiltInCall R)) :
    let engine := Run.exec SovereignStateEngine.perform (.new s)
      (calls.map (BuiltInCall.toCall N text))
    let log := engine.deltaLog
    let state := engine.currentState.asDict
    state.keys = s.asDict.keys ∧
      (∃ c, c ≠ 0 ∧ ∀ l, state.coeff l = c * .ofReal (damping N calls log l) * s.asDict.coeff l) ∧
      0 < mass N calls s log ∧
      ∀ l, (state.coeff l).born
        = damping N calls log l ^ 2 * (s.asDict.coeff l).born / mass N calls s log := by
  intro engine log state
  have hhistory : SovereignStateEngine.History s engine :=
    Run.invariant_of_forall (fun _ c h => h.perform c) (SovereignStateEngine.History.init s) _
  obtain ⟨c, hc, hscaled, htotal, hborn⟩ :=
    scaled_of_linked (rules_of_run N text s calls) hhistory.linked hhistory.rules_made
  rw [← hhistory.state_eq] at hscaled htotal
  change StateVector.Scaled (damping N calls log) c s engine.state at hscaled
  have hmass : c.born * mass N calls s log = 1 := by
    rw [mass]
    split
    · rename_i hdampened
      rw [← hscaled.totalProbability_eq]
      exact htotal hdampened
    · rename_i hnot
      rw [mul_one]
      exact hborn hnot
  have hpos : 0 < mass N calls s log := by
    refine pos_of_mul_pos_right ?_ hc.le
    rw [hmass]
    exact one_pos
  refine ⟨hscaled.keys_eq, ⟨c, ?_, hscaled.coeff_eq⟩, hpos, fun l => ?_⟩
  · rintro rfl
    simp at hc
  · refine (hscaled.born_eq l).trans ?_
    rw [eq_div_iff hpos.ne', mul_right_comm, hmass, one_mul]

end Exact

/-! ### A run over the real numbers -/

/-- The second amplitude is dampened to the first one, and turned. -/
noncomputable def levelling : List (BuiltInCall ℝ) :=
  [.registerRule "dampen" .dampenedAmplitude "", .registerRule "turn" .phaseRotation "",
    .observe ⟨"dampen", [.str "1", .float (3 / 4)], by simp⟩,
    .observe ⟨"turn", [.float 2], by simp⟩]

/-- Integers are converted, and no texts. -/
noncomputable def realNumbers : NumberEnv ℝ := ⟨fun i => some i, fun _ => none⟩

theorem probabilities_of_levelling :
    let engine := Run.exec SovereignStateEngine.perform (.new ProjectiveMeasurementPolicy.threeFour)
      (levelling.map (BuiltInCall.toCall realNumbers fun _ => ""))
    ∀ l, (engine.currentState.asDict.coeff l).born
      = damping realNumbers levelling engine.deltaLog l ^ 2
          * (ProjectiveMeasurementPolicy.threeFour.asDict.coeff l).born
          / mass realNumbers levelling ProjectiveMeasurementPolicy.threeFour engine.deltaLog :=
  (probabilities_of_run realNumbers (fun _ => "") ProjectiveMeasurementPolicy.threeFour
    levelling).2.2.2

end QuantumFoundation
