import QuantumFoundation.Quantum.MeasurementHarness
import QuantumFoundation.Quantum.SealedOperators

/-!
# Projections

What the harness makes of a state is a state exactly if the projector that is selected keeps its
expectation when it is applied.  Hermitian idempotent operators do, but the constructor looks at the
conjugate transpose only.  For a family of such operators that annihilate each other a measurement
that is repeated gives what it gave.
-/

namespace QuantumFoundation

variable {R : Type*} [Field R] [LinearOrder R] [MathLibrary R]

namespace LinearOperator

/-- The entry of the product of two operators. -/
def product (A B : LinearOperator R) (i k : String) : PyComplex R :=
  ∑ j ∈ A.columns, A.matrix.coeff (i, j) * B.matrix.coeff (j, k)

/-- The operator is its conjugate transpose. -/
def IsHermitian (A : LinearOperator R) : Prop :=
  ∀ i j, A.matrix.coeff (i, j) = star (A.matrix.coeff (j, i))

/-- The operator is its own square. -/
def IsIdempotent (A : LinearOperator R) : Prop :=
  ∀ i k, A.product A i k = A.matrix.coeff (i, k)

/-- The product is zero. -/
def Annihilates (A B : LinearOperator R) : Prop := ∀ i k, A.product B i k = 0

/-- The entry of `A† A - A`. -/
def defect (A : LinearOperator R) (i k : String) : PyComplex R :=
  A.gram i k - A.matrix.coeff (i, k)

/-- The expectation of `A† A - A`. -/
def excess (A : LinearOperator R) (v : ComplexVector R) : R :=
  (∑ i ∈ A.rows ∪ A.columns, star (v.get i) * ∑ k ∈ A.columns, A.defect i k * v.get k).re

variable [IsStrictOrderedRing R] [ExactMathLibrary R]

/-- One operator after another. -/
lemma get_apply_apply (A B : LinearOperator R) (v : ComplexVector R) (i : String) :
    (A.apply (B.apply v)).get i = ∑ k ∈ B.columns, A.product B i k * v.get k := by
  simp only [get_apply_eq_sum, product, Finset.mul_sum, Finset.sum_mul]
  rw [Finset.sum_comm]
  refine Finset.sum_congr rfl fun k _ => Finset.sum_congr rfl fun j _ => ?_
  ring

lemma IsIdempotent.apply_apply {A : LinearOperator R} (h : A.IsIdempotent)
    (v : ComplexVector R) : A.apply (A.apply v) ≈ A.apply v := by
  intro i
  rw [get_apply_apply, get_apply_eq_sum]
  exact Finset.sum_congr rfl fun k _ => by rw [h i k]

lemma Annihilates.get_apply_apply_eq_zero {A B : LinearOperator R} (h : A.Annihilates B)
    (v : ComplexVector R) (i : String) : (A.apply (B.apply v)).get i = 0 := by
  rw [get_apply_apply]
  exact Finset.sum_eq_zero fun k _ => by rw [h i k, zero_mul]

lemma IsHermitian.dagger_apply {A : LinearOperator R} (h : A.IsHermitian)
    (v : ComplexVector R) : A.dagger.apply v ≈ A.apply v := by
  intro i
  rw [get_apply A.supportedOn_dagger, get_apply A.supportedOn]
  exact Finset.sum_congr rfl fun j _ => by rw [coeff_dagger, h i j]

/-- A Hermitian operator passes the check exactly. -/
lemma IsHermitian.hermitianCheck_ok {A : LinearOperator R} (h : A.IsHermitian) (exc : Raised) :
    hermitianCheck exc A = .ok () := by
  refine if_neg fun hany => ?_
  obtain ⟨p, hp, hfar⟩ := List.any_eq_true.mp hany
  have hdagger : A.dagger.matrix.coeff p.1 = p.2 := by
    rw [coeff_dagger, ← h p.1.1 p.1.2]
    exact Dict.coeff_of_mem hp
  have hzero : (p.2 - A.dagger.matrix.coeff p.1).abs = 0 := by
    rw [hdagger, sub_self, PyComplex.abs_eq_zero]
  have hfar' : (p.2 - A.dagger.matrix.coeff p.1).abs > 1e-9 := of_decide_eq_true hfar
  rw [hzero] at hfar'
  exact absurd hfar' (not_lt.mpr (show (0 : R) ≤ 1e-9 by norm_num))

/-- **Applying**: the norm of what becomes of a vector, by the expectation. -/
theorem squareNorm_apply_eq_add_excess (O : SetOrder) (A : LinearOperator R)
    (v : ComplexVector R) :
    (A.apply v).squareNorm = (v.inner O (A.apply v)).re + A.excess v := by
  have hundone : ∀ l ∉ A.rows ∪ A.columns, (A.dagger.apply (A.apply v)).get l = 0 := by
    intro l hl
    refine get_apply_of_notMem_rows ?_ _
    rw [rows_dagger]
    exact fun hmem => hl (Finset.mem_union_right _ hmem)
  have hout : ∀ l ∉ A.rows ∪ A.columns, (A.apply v).get l = 0 := fun l hl =>
    get_apply_of_notMem_rows (fun hmem => hl (Finset.mem_union_left _ hmem)) v
  rw [ComplexVector.squareNorm_eq_re O, inner_apply, ComplexVector.inner_conj, PyComplex.re_star,
    ComplexVector.inner_eq_sum_right O hundone, ComplexVector.inner_eq_sum_right O hout, excess,
    ← PyComplex.re_add, ← Finset.sum_add_distrib]
  refine congrArg PyComplex.re (Finset.sum_congr rfl fun i _ => ?_)
  rw [get_dagger_apply_apply, get_apply_eq_sum, ← mul_add, ← Finset.sum_add_distrib]
  refine congrArg _ (Finset.sum_congr rfl fun k _ => ?_)
  rw [defect, sub_mul, add_sub_cancel]

/-- The expectation of a projection is the square of the norm of what it makes of the vector. -/
lemma IsIdempotent.inner_apply_eq {A : LinearOperator R} (h : A.IsIdempotent)
    (hherm : A.IsHermitian) (O : SetOrder) (v : ComplexVector R) :
    v.inner O (A.apply v) = .ofReal (A.apply v).squareNorm := by
  have hv : v ≈ v := Setoid.refl v
  calc v.inner O (A.apply v)
      = v.inner O (A.apply (A.apply v)) :=
        ComplexVector.inner_congr O hv (Setoid.symm (h.apply_apply v))
    _ = (A.dagger.apply v).inner O (A.apply v) := inner_apply O A v (A.apply v)
    _ = (A.apply v).inner O (A.apply v) :=
        ComplexVector.inner_congr O (hherm.dagger_apply v) (Setoid.refl _)
    _ = .ofReal (A.apply v).squareNorm := ComplexVector.inner_self O _

/-- A projection keeps the expectation. -/
lemma IsIdempotent.excess_eq_zero {A : LinearOperator R} (h : A.IsIdempotent)
    (hherm : A.IsHermitian) (v : ComplexVector R) : A.excess v = 0 := by
  have hnorm := squareNorm_apply_eq_add_excess .lastInsertion A v
  rw [h.inner_apply_eq hherm] at hnorm
  exact left_eq_add.mp hnorm

/-! ### Operators of one entry -/

variable {A : LinearOperator R} {l : String} {z : PyComplex R}

omit [IsStrictOrderedRing R] [ExactMathLibrary R] in
lemma coeff_single (h : A.matrix.entries = [((l, l), z)]) (k : String × String) :
    A.matrix.coeff k = if k = (l, l) then z else 0 := by
  by_cases hk : k = (l, l)
  · rw [if_pos hk, hk]
    exact Dict.coeff_of_mem (by rw [h]; exact List.mem_cons_self)
  · rw [if_neg hk]
    refine Dict.coeff_of_notMem fun hmem => hk ?_
    rw [Dict.keys, h] at hmem
    exact List.mem_singleton.mp hmem

lemma get_apply_single (h : A.matrix.entries = [((l, l), z)]) (v : ComplexVector R)
    (i : String) : (A.apply v).get i = if i = l then z * v.get l else 0 := by
  have hcolumns : A.columns = {l} := by
    rw [columns, Dict.keys, h]
    rfl
  rw [get_apply_eq_sum, hcolumns, Finset.sum_singleton, coeff_single h]
  by_cases hi : i = l
  · rw [hi, if_pos rfl, if_pos rfl]
  · rw [if_neg hi, if_neg fun hpair => hi (congrArg Prod.fst hpair), zero_mul]

omit [IsStrictOrderedRing R] [ExactMathLibrary R] in
lemma isHermitian_single (h : A.matrix.entries = [((l, l), z)]) (hz : star z = z) :
    A.IsHermitian := by
  intro i j
  rw [coeff_single h, coeff_single h]
  by_cases hi : (i, j) = (l, l)
  · obtain ⟨rfl, rfl⟩ := Prod.mk.inj hi
    rw [if_pos rfl, hz]
  · have hj : ¬(j, i) = (l, l) := fun hpair => hi (congrArg Prod.swap hpair)
    rw [if_neg hi, if_neg hj, star_zero]

omit [IsStrictOrderedRing R] [ExactMathLibrary R] in
lemma product_single (h : A.matrix.entries = [((l, l), z)]) (B : LinearOperator R)
    (i k : String) : A.product B i k = if i = l then z * B.matrix.coeff (l, k) else 0 := by
  have hcolumns : A.columns = {l} := by
    rw [columns, Dict.keys, h]
    rfl
  rw [product, hcolumns, Finset.sum_singleton, coeff_single h]
  by_cases hi : i = l
  · rw [hi, if_pos rfl, if_pos rfl]
  · rw [if_neg hi, if_neg fun hpair => hi (congrArg Prod.fst hpair), zero_mul]

omit [IsStrictOrderedRing R] [ExactMathLibrary R] in
lemma isIdempotent_single (h : A.matrix.entries = [((l, l), 1)]) : A.IsIdempotent := by
  intro i k
  rw [product_single h]
  by_cases hi : i = l
  · rw [if_pos hi, one_mul, hi]
  · rw [if_neg hi, coeff_single h, if_neg fun hpair => hi (congrArg Prod.fst hpair)]

omit [IsStrictOrderedRing R] [ExactMathLibrary R] in
lemma annihilates_single (h : A.matrix.entries = [((l, l), z)]) {B : LinearOperator R}
    {l' : String} {w : PyComplex R} (hB : B.matrix.entries = [((l', l'), w)]) (hne : l ≠ l') :
    A.Annihilates B := by
  intro i k
  rw [product_single h, coeff_single hB, if_neg fun hpair => hne (congrArg Prod.fst hpair),
    mul_zero, ite_self]

lemma inner_apply_single (h : A.matrix.entries = [((l, l), z)]) (O : SetOrder)
    (v : ComplexVector R) : v.inner O (A.apply v) = star (v.get l) * (z * v.get l) := by
  have hout : ∀ k ∉ ({l} : Finset String), (A.apply v).get k = 0 := fun k hk => by
    rw [get_apply_single h, if_neg (Finset.notMem_singleton.mp hk)]
  rw [ComplexVector.inner_eq_sum_right O hout, Finset.sum_singleton, get_apply_single h,
    if_pos rfl]

lemma squareNorm_apply_single (h : A.matrix.entries = [((l, l), z)]) (v : ComplexVector R) :
    (A.apply v).squareNorm = z.born * (v.get l).born := by
  have hout : ∀ k ∉ ({l} : Finset String), (A.apply v).get k = 0 := fun k hk => by
    rw [get_apply_single h, if_neg (Finset.notMem_singleton.mp hk)]
  rw [ComplexVector.squareNorm_eq_sum hout, Finset.sum_singleton, get_apply_single h, if_pos rfl,
    PyComplex.born_mul]

end LinearOperator

namespace MeasurementHarness

variable {O : SetOrder}

/-! ### The probabilities -/

/-- The expectation of a projector, in exact arithmetic. -/
def expected (state : QuantumState O R) (P : ProjectionOperator R) : R :=
  (state.vector.inner O (P.apply state.vector)).re

/-- The probabilities that are positive. -/
def positiveProbabilities (state : QuantumState O R)
    (projectors : Dict String (ProjectionOperator R)) : Dict String R :=
  (projectors.mapValues fun _ P => expected state P).filter fun p => decide (p.2 > 0)

/-- The expectations of the projectors are probabilities. -/
structure Complete (state : QuantumState O R) (projectors : Dict String (ProjectionOperator R)) :
    Prop where
  real : ∀ P ∈ projectors.values, (state.vector.inner O (P.apply state.vector)).im = 0
  nonneg : ∀ P ∈ projectors.values, 0 ≤ expected state P
  sum_eq : (projectors.values.map (expected state)).sum = 1

/-- Two projectors whose expectations are real probabilities with the sum one. -/
lemma Complete.pair {state : QuantumState O R} {P Q : ProjectionOperator R} {x y : R}
    (hP : state.vector.inner O (P.apply state.vector) = .ofReal x)
    (hQ : state.vector.inner O (Q.apply state.vector) = .ofReal y) (hx : 0 ≤ x) (hy : 0 ≤ y)
    (hsum : x + y = 1) {m n : String} (hne : m ≠ n) :
    Complete state (.ofList [(m, P), (n, Q)]) := by
  have hvalues : (Dict.ofList [(m, P), (n, Q)]).values = [P, Q] :=
    Dict.values_ofList (by simp [hne])
  have hexpectedP : expected state P = x := congrArg PyComplex.re hP
  have hexpectedQ : expected state Q = y := congrArg PyComplex.re hQ
  constructor
  · rw [hvalues]
    simp only [List.forall_mem_cons]
    exact ⟨congrArg PyComplex.im hP, congrArg PyComplex.im hQ, by simp⟩
  · rw [hvalues]
    simp only [List.forall_mem_cons]
    exact ⟨hexpectedP ▸ hx, hexpectedQ ▸ hy, by simp⟩
  · rw [hvalues]
    simpa [hexpectedP, hexpectedQ] using hsum

variable [IsStrictOrderedRing R]

lemma expectation_eq_ok {state : QuantumState O R} {P : ProjectionOperator R}
    (h : (state.vector.inner O (P.apply state.vector)).im = 0) :
    P.expectation state = .ok (expected state P) := by
  refine if_neg ?_
  rw [h]
  refine not_lt.mpr ?_
  show |(0 : R)| ≤ 1e-9
  rw [abs_zero]
  norm_num

omit [IsStrictOrderedRing R] in
/-- **The loop over the projectors**, if the expectations are none of them negative. -/
theorem probabilitiesLoop_eq {P : Type*} {expectation : P → Except Raised R} {f : P → R}
    {l : List (String × P)} (hok : ∀ p ∈ l, expectation p.2 = .ok (f p.2))
    (hnonneg : ∀ p ∈ l, 0 ≤ f p.2) (acc : Dict String R)
    (hnodup : (acc.keys ++ l.map Prod.fst).Nodup) (t : R) :
    ∃ probabilities, probabilitiesLoop expectation l acc t
        = .ok (probabilities, t + (l.map fun p => f p.2).sum) ∧
      probabilities.entries = acc.entries
        ++ (l.map fun p => (p.1, f p.2)).filter fun p => decide (p.2 > 0) := by
  induction l generalizing acc t with
  | nil => exact ⟨acc, by rw [List.map_nil, List.sum_nil, add_zero]; rfl, (List.append_nil _).symm⟩
  | cons p l ih =>
    obtain ⟨name, projector⟩ := p
    have hok' := (List.forall_mem_cons.mp hok).2
    have hnonneg' := (List.forall_mem_cons.mp hnonneg).2
    have hfirst : expectation projector = .ok (f projector) := hok _ List.mem_cons_self
    rw [List.map_cons, List.sum_cons, ← add_assoc, List.map_cons]
    simp only [probabilitiesLoop, hfirst]
    by_cases hpos : f projector > 0
    · rw [if_pos hpos, List.filter_cons, if_pos (decide_eq_true hpos)]
      -- the name is a new key, and so the entry is appended
      have hnew : name ∉ acc.keys := fun hmem =>
        List.disjoint_of_nodup_append hnodup hmem List.mem_cons_self
      have hset : (acc.set name (f projector)).entries = acc.entries ++ [(name, f projector)] := by
        rw [Dict.set, dif_neg hnew]
        rfl
      have hkeys : ((acc.set name (f projector)).keys ++ l.map Prod.fst).Nodup := by
        rw [Dict.keys, hset, List.map_append, List.append_assoc]
        exact hnodup
      obtain ⟨probabilities, hloop, hentries⟩ := ih hok' hnonneg' _ hkeys (t + f projector)
      refine ⟨probabilities, hloop, ?_⟩
      rw [hentries, hset, List.append_assoc]
      rfl
    · have hzero : f projector = 0 := le_antisymm (not_lt.mp hpos) (hnonneg _ List.mem_cons_self)
      have hkeys : (acc.keys ++ l.map Prod.fst).Nodup :=
        hnodup.sublist ((List.sublist_cons_self _ _).append_left _)
      rw [if_neg hpos, List.filter_cons, if_neg (by rwa [decide_eq_true_eq]), hzero, add_zero]
      exact ih hok' hnonneg' _ hkeys t

variable {state : QuantumState O R} {projectors : Dict String (ProjectionOperator R)}
  {random : ℤ → R} {seed : ℤ} {outcome : String}

omit [IsStrictOrderedRing R] in
lemma get?_positiveProbabilities {P : ProjectionOperator R}
    (hmem : outcome ∈ (positiveProbabilities state projectors).keys)
    (hP : projectors.get? outcome = some P) :
    0 < expected state P ∧
      (positiveProbabilities state projectors).get? outcome = some (expected state P) := by
  obtain ⟨p, hp⟩ := Dict.mem_keys.mp hmem
  obtain ⟨hentry, hpos⟩ := List.mem_filter.mp hp
  have hget := Dict.get?_eq_some.mpr hentry
  rw [Dict.get?_mapValues, hP] at hget
  obtain rfl := Option.some.inj hget
  exact ⟨of_decide_eq_true hpos, Dict.get?_eq_some.mpr hp⟩

omit [IsStrictOrderedRing R] in
lemma exists_projector (hmem : outcome ∈ (positiveProbabilities state projectors).keys) :
    ∃ P, projectors.get? outcome = some P := by
  obtain ⟨p, hp⟩ := Dict.mem_keys.mp hmem
  have hkey := Dict.mem_keys.mpr ⟨p, (List.mem_filter.mp hp).1⟩
  rw [Dict.keys_mapValues] at hkey
  obtain ⟨P, hP⟩ := Dict.mem_keys.mp hkey
  exact ⟨P, Dict.get?_eq_some.mpr hP⟩

/-- The outcomes that can be selected. -/
lemma Complete.select_eq_ok_iff (h : Complete state projectors)
    {probabilities : Dict String R} :
    select random state projectors seed = .ok (probabilities, outcome) ↔
      probabilities = positiveProbabilities state projectors ∧
        Selected (random seed) (positiveProbabilities state projectors) outcome := by
  have hvalues : ∀ p ∈ projectors.entries, p.2 ∈ projectors.values := fun _ hp =>
    List.mem_map_of_mem hp
  obtain ⟨d, hloop, hentries⟩ := probabilitiesLoop_eq
    (fun p hp => expectation_eq_ok (h.real p.2 (hvalues p hp)))
    (fun p hp => h.nonneg p.2 (hvalues p hp)) .empty projectors.nodup 0
  obtain rfl : d = positiveProbabilities state projectors := Dict.ext hentries
  have hsum : (projectors.entries.map fun p => expected state p.2).sum = 1 := by
    rw [← h.sum_eq, Dict.values, List.map_map]
    rfl
  rw [zero_add, hsum] at hloop
  have hnear : ¬PyFloat.abs ((1 : R) - 1) > 1e-6 := by
    refine not_lt.mpr ?_
    show |(1 : R) - 1| ≤ 1e-6
    rw [sub_self, abs_zero]
    norm_num
  constructor
  · intro hselect
    have hprobabilities : probabilities = positiveProbabilities state projectors := by
      rw [select, selection, hloop] at hselect
      simp only [if_neg hnear] at hselect
      cases hselected : selectOutcome (random seed) (positiveProbabilities state projectors) with
      | error exc => rw [hselected] at hselect; exact absurd hselect (by simp [Except.map])
      | ok name =>
        rw [hselected] at hselect
        exact (Prod.mk.inj (Except.ok.inj hselect)).1.symm
    subst hprobabilities
    exact ⟨rfl, (selection_eq_ok_iff hloop hnear).mp hselect⟩
  · rintro ⟨rfl, hselected⟩
    exact (selection_eq_ok_iff hloop hnear).mpr hselected

/-- Some outcome is selected. -/
lemma Complete.exists_selected (h : Complete state projectors) (roll : R) :
    ∃ name, Selected roll (positiveProbabilities state projectors) name := by
  refine QuantumFoundation.exists_selected roll fun hempty => ?_
  have hzero : ∀ x ∈ projectors.values.map (expected state), x = 0 := by
    intro x hx
    obtain ⟨P, hP, rfl⟩ := List.mem_map.mp hx
    obtain ⟨p, hp, rfl⟩ := List.mem_map.mp hP
    refine le_antisymm (not_lt.mp fun hpos => ?_) (h.nonneg _ hP)
    have hmem : (p.1, expected state p.2) ∈ (positiveProbabilities state projectors).entries :=
      List.mem_filter.mpr ⟨List.mem_map_of_mem hp, decide_eq_true hpos⟩
    rw [hempty] at hmem
    exact absurd hmem List.not_mem_nil
  have hsum := h.sum_eq
  rw [List.sum_eq_zero hzero] at hsum
  exact zero_ne_one hsum

/-! ### Collapsing -/

variable [ExactMathLibrary R]

omit [IsStrictOrderedRing R] [ExactMathLibrary R] in
/-- What the harness makes of the state. -/
def renormalized (state : QuantumState O R) (P : ProjectionOperator R) : ComplexVector R :=
  (P.apply state.vector).mul (.ofReal (PyReciprocal.reciprocal (PyFloat.sqrt (expected state P))))

lemma squareNorm_renormalized {P : ProjectionOperator R} (hpos : 0 < expected state P) :
    (renormalized state P).squareNorm = 1 + P.excess state.vector / expected state P := by
  have hnorm : (P.apply state.vector).squareNorm = expected state P + P.excess state.vector :=
    P.squareNorm_apply_eq_add_excess O state.vector
  rw [renormalized, ComplexVector.squareNorm_mul, ComplexVector.born_reciprocal_sqrt hpos, hnorm,
    one_div_mul_eq_div, add_div, div_self hpos.ne']

/-- If the expectation is kept, the harness normalises. -/
lemma normalized_eq_renormalized {P : ProjectionOperator R} (hpos : 0 < expected state P)
    (hexcess : P.excess state.vector = 0) :
    (P.apply state.vector).normalized O = .ok (renormalized state P) := by
  have hnorm : (P.apply state.vector).squareNorm = expected state P := by
    rw [P.squareNorm_apply_eq_add_excess O, hexcess, add_zero]
    rfl
  have hself : PyFloat.sqrt (expected state P) * PyFloat.sqrt (expected state P)
      = expected state P := ExactMathLibrary.sqrt_mul_self _ hpos.le
  rw [ComplexVector.normalized, ComplexVector.norm_eq, hnorm]
  refine if_neg fun hzero => hpos.ne ?_
  rw [← hself, of_decide_eq_true hzero, mul_zero]

/-- **Collapsing** to an outcome whose projector keeps its expectation. -/
theorem Complete.collapse_eq_ok (h : Complete state projectors)
    (hselected : Selected (random seed) (positiveProbabilities state projectors) outcome)
    {P : ProjectionOperator R} (hP : projectors.get? outcome = some P)
    (hexcess : P.excess state.vector = 0) :
    ∃ final, collapse random state projectors seed = .ok (outcome, final) ∧
      final.vector = renormalized state P ∧ final.vector.squareNorm = 1 := by
  obtain ⟨hpos, hget⟩ := get?_positiveProbabilities hselected.mem_keys hP
  have hnorm : (renormalized state P).squareNorm = 1 := by
    rw [squareNorm_renormalized hpos, hexcess, zero_div, add_zero]
  have hnear : |PyFloat.sqrt (renormalized state P).squareNorm - 1| ≤ 1e-9 := by
    rw [hnorm]
    exact (abs_sqrt_sub_one_le_iff zero_le_one (by norm_num) (by norm_num)).mpr (by norm_num)
  obtain ⟨final, hfinal, hvector⟩ := QuantumState.new_of_squareNorm O hnear
  refine ⟨final, collapse_eq_ok_iff.mpr ⟨_, _, P, ?_, hget, hP, hfinal⟩, hvector, hvector ▸ hnorm⟩
  exact h.select_eq_ok_iff.mpr ⟨rfl, hselected⟩

omit [ExactMathLibrary R] in
lemma Complete.of_collapse (h : Complete state projectors) {final : QuantumState O R}
    (hcollapse : collapse random state projectors seed = .ok (outcome, final)) :
    Selected (random seed) (positiveProbabilities state projectors) outcome ∧
      ∃ P, projectors.get? outcome = some P ∧ 0 < expected state P ∧
        final.vector = renormalized state P := by
  obtain ⟨probabilities, p, P, hselect, hget, hP, hfinal⟩ := collapse_eq_ok_iff.mp hcollapse
  obtain ⟨rfl, hselected⟩ := h.select_eq_ok_iff.mp hselect
  obtain ⟨hpos, hget'⟩ := get?_positiveProbabilities hselected.mem_keys hP
  obtain rfl := Option.some.inj (hget.symm.trans hget')
  exact ⟨hselected, P, hP, hpos, QuantumState.vector_of_new hfinal⟩

/-- The projectors are projections, and annihilate each other. -/
structure Orthogonal (projectors : Dict String (ProjectionOperator R)) : Prop where
  hermitian : ∀ P ∈ projectors.values, P.IsHermitian
  idempotent : ∀ P ∈ projectors.values, P.IsIdempotent
  annihilates : ∀ p ∈ projectors.entries, ∀ q ∈ projectors.entries, p.1 ≠ q.1 →
    p.2.Annihilates q.2.toLinearOperator

omit [IsStrictOrderedRing R] [ExactMathLibrary R] in
/-- Two projections that annihilate each other. -/
lemma Orthogonal.pair {P Q : ProjectionOperator R} (hermitianP : P.IsHermitian)
    (hermitianQ : Q.IsHermitian) (idempotentP : P.IsIdempotent) (idempotentQ : Q.IsIdempotent)
    (hPQ : P.Annihilates Q.toLinearOperator) (hQP : Q.Annihilates P.toLinearOperator)
    {m n : String} (hne : m ≠ n) : Orthogonal (.ofList [(m, P), (n, Q)]) := by
  have hentries : (Dict.ofList [(m, P), (n, Q)]).entries = [(m, P), (n, Q)] :=
    Dict.entries_ofList (by simp [hne])
  have hvalues : (Dict.ofList [(m, P), (n, Q)]).values = [P, Q] :=
    Dict.values_ofList (by simp [hne])
  constructor
  · rw [hvalues]
    simp only [List.forall_mem_cons]
    exact ⟨hermitianP, hermitianQ, by simp⟩
  · rw [hvalues]
    simp only [List.forall_mem_cons]
    exact ⟨idempotentP, idempotentQ, by simp⟩
  · rw [hentries]
    simp only [List.forall_mem_cons]
    exact ⟨⟨fun hself => absurd rfl hself, fun _ => hPQ, by simp⟩,
      ⟨fun _ => hQP, fun hself => absurd rfl hself, by simp⟩, by simp⟩

/-! ### Projectors on basis states -/

/-- The constructor takes a Hermitian operator. -/
lemma exists_projectionOperator {M : Dict (String × String) (PyComplex R)}
    (h : (LinearOperator.new M).IsHermitian) :
    ∃ P, ProjectionOperator.new M = .ok P ∧ P.toLinearOperator = .new M := by
  have hok : (LinearOperator.new M).verifyHermitian = .ok () := h.hermitianCheck_ok _
  refine ⟨⟨.new M, hok⟩, ?_, rfl⟩
  rw [ProjectionOperator.new]
  split
  · next hraised => exact absurd (hok.symm.trans hraised) (by simp)
  · rfl

/-- The projector on one basis state. -/
lemma exists_projector_keep (l : String) :
    ∃ P, ProjectionOperator.new (keep l) = .ok P ∧ P.toLinearOperator = .new (keep l) :=
  exists_projectionOperator (LinearOperator.isHermitian_single (entries_keep l) (star_one _))

/-- What an operator of one entry gives in a basis state. -/
lemma inner_basisVector {A : LinearOperator ℝ} {l : String} {x : ℝ}
    (h : A.matrix.entries = [((l, l), .ofReal x)]) (O : SetOrder) (k : String) :
    (basisVector k).inner O (A.apply (basisVector k)) = .ofReal (if l = k then x else 0) := by
  rw [LinearOperator.inner_apply_single h, get_basisVector]
  split
  · ext <;> simp [PyComplex.ofReal]
  · ext <;> simp [PyComplex.ofReal]

open UnitaryOperator (threeFourAmplitudes)

/-- Two projectors on basis states, and a superposition of these. -/
lemma exists_basisProjectors :
    ∃ (P₀ P₁ : ProjectionOperator ℝ) (state : QuantumState .lastInsertion ℝ),
      ProjectionOperator.new (keep "0") = .ok P₀ ∧ ProjectionOperator.new (keep "1") = .ok P₁ ∧
        QuantumState.fromDict .lastInsertion threeFourAmplitudes = .ok state ∧
        Orthogonal (.ofList [("0", P₀), ("1", P₁)]) ∧
        Complete state (.ofList [("0", P₀), ("1", P₁)]) := by
  obtain ⟨P₀, hP₀, hoperator₀⟩ := exists_projector_keep "0"
  obtain ⟨P₁, hP₁, hoperator₁⟩ := exists_projector_keep "1"
  obtain ⟨state, hstate, hvector⟩ := UnitaryOperator.exists_threeFour
  have hkeep₀ : P₀.matrix.entries = [(("0", "0"), 1)] := hoperator₀ ▸ entries_keep "0"
  have hkeep₁ : P₁.matrix.entries = [(("1", "1"), 1)] := hoperator₁ ▸ entries_keep "1"
  have hinner₀ : state.vector.inner .lastInsertion (P₀.apply state.vector)
      = .ofReal (9 / 25) := by
    rw [LinearOperator.inner_apply_single hkeep₀, hvector, UnitaryOperator.get_threeFour,
      if_neg (by decide), if_pos rfl, one_mul]
    ext <;> norm_num [PyComplex.ofReal]
  have hinner₁ : state.vector.inner .lastInsertion (P₁.apply state.vector)
      = .ofReal (16 / 25) := by
    rw [LinearOperator.inner_apply_single hkeep₁, hvector, UnitaryOperator.get_threeFour,
      if_pos rfl, one_mul]
    ext <;> norm_num [PyComplex.ofReal]
  refine ⟨P₀, P₁, state, hP₀, hP₁, hstate, Orthogonal.pair
    (LinearOperator.isHermitian_single hkeep₀ (star_one _))
    (LinearOperator.isHermitian_single hkeep₁ (star_one _))
    (LinearOperator.isIdempotent_single hkeep₀) (LinearOperator.isIdempotent_single hkeep₁) ?_ ?_
    (by decide), Complete.pair hinner₀ hinner₁ (by norm_num) (by norm_num) (by norm_num)
    (by decide)⟩
  · exact LinearOperator.annihilates_single hkeep₀ hkeep₁ (by decide)
  · exact LinearOperator.annihilates_single hkeep₁ hkeep₀ (by decide)

/-! ### What a measurement returns -/

/-- **Collapsing** returns the normalised state of what the projector of the outcome makes of the
vector exactly if the expectation of `P† P - P` vanishes, for the projector of the outcome on which
the draw falls. -/
theorem collapse_returns_iff (h : Complete state projectors) (random : ℤ → R) (seed : ℤ) :
    (∃ outcome final P w, collapse random state projectors seed = .ok (outcome, final) ∧
        projectors.get? outcome = some P ∧ (P.apply state.vector).normalized O = .ok w ∧
        final.vector ≈ w ∧ final.vector.squareNorm = 1) ↔
      ∀ outcome P, Selected (random seed) (positiveProbabilities state projectors) outcome →
        projectors.get? outcome = some P → P.excess state.vector = 0 := by
  constructor
  · rintro ⟨outcome, final, P, w, hcollapse, hP, -, -, hnorm⟩ outcome' P' hselected' hP'
    obtain ⟨hselected, P₁, hP₁, hpos, hvector⟩ := h.of_collapse hcollapse
    -- the draw falls on one outcome only
    obtain rfl : outcome = outcome' := Except.ok.inj
      ((selectOutcome_eq_ok_iff.mpr hselected).symm.trans (selectOutcome_eq_ok_iff.mpr hselected'))
    obtain rfl := Option.some.inj (hP₁.symm.trans hP')
    rw [hvector, squareNorm_renormalized hpos] at hnorm
    rcases div_eq_zero_iff.mp (add_eq_left.mp hnorm) with hexcess | hzero
    · exact hexcess
    · exact absurd hzero hpos.ne'
  · intro hexcess
    obtain ⟨outcome, hselected⟩ := h.exists_selected (random seed)
    obtain ⟨P, hP⟩ := exists_projector hselected.mem_keys
    have hzero := hexcess outcome P hselected hP
    obtain ⟨final, hcollapse, hvector, hnorm⟩ := h.collapse_eq_ok hselected hP hzero
    have hpos := (get?_positiveProbabilities hselected.mem_keys hP).1
    refine ⟨outcome, final, P, _, hcollapse, hP, normalized_eq_renormalized hpos hzero, ?_, hnorm⟩
    rw [hvector]

/-- The projectors on two basis states, measured in a superposition. -/
theorem collapse_keep :
    ∃ (P₀ P₁ : ProjectionOperator ℝ) (state : QuantumState .lastInsertion ℝ),
      ProjectionOperator.new (keep "0") = .ok P₀ ∧ ProjectionOperator.new (keep "1") = .ok P₁ ∧
        QuantumState.fromDict .lastInsertion threeFourAmplitudes = .ok state ∧
        ∀ (random : ℤ → ℝ) seed, ∃ outcome final P w,
          collapse random state (.ofList [("0", P₀), ("1", P₁)]) seed = .ok (outcome, final) ∧
            (Dict.ofList [("0", P₀), ("1", P₁)]).get? outcome = some P ∧
            (P.apply state.vector).normalized .lastInsertion = .ok w ∧ final.vector ≈ w ∧
            final.vector.squareNorm = 1 := by
  obtain ⟨P₀, P₁, state, hP₀, hP₁, hstate, horthogonal, hcomplete⟩ := exists_basisProjectors
  refine ⟨P₀, P₁, state, hP₀, hP₁, hstate, fun random seed => ?_⟩
  refine (collapse_returns_iff hcomplete random seed).mpr fun outcome P _ hP => ?_
  have hmem := Dict.mem_values.mpr ⟨outcome, hP⟩
  exact (horthogonal.idempotent P hmem).excess_eq_zero (horthogonal.hermitian P hmem) _

/-- The constructor takes an operator that is Hermitian, but not idempotent, and a complete family
of two such operators makes nothing of a basis state, for whatever seed. -/
theorem collapse_dimmed :
    ∃ (P : ProjectionOperator ℝ) (state : QuantumState .lastInsertion ℝ),
      ProjectionOperator.new (.ofList [(("0", "0"), .ofReal (1 / 2))]) = .ok P ∧
        QuantumState.fromDict .lastInsertion (.ofList [("0", 1)]) = .ok state ∧
        Complete state (.ofList [("a", P), ("b", P)]) ∧
        ∀ (random : ℤ → ℝ) seed, ∃ exc,
          collapse random state (.ofList [("a", P), ("b", P)]) seed = .error exc := by
  have hhalf : (PyComplex.ofReal (1 / 2 : ℝ)).abs > 1e-12 := by
    rw [PyComplex.abs_ofReal]
    norm_num
  have hdimmed := LinearOperator.entries_new_single ("0", "0") hhalf
  have hstar : star (PyComplex.ofReal (1 / 2 : ℝ)) = .ofReal (1 / 2) := by
    ext <;> simp [PyComplex.ofReal]
  obtain ⟨P, hP, hoperator⟩ := exists_projectionOperator
    (LinearOperator.isHermitian_single hdimmed hstar)
  obtain ⟨state, hstate, hvector⟩ := UnitaryOperator.exists_basisState "0"
  rw [← hoperator] at hdimmed
  have hinner := inner_basisVector hdimmed .lastInsertion "0"
  rw [← hvector, if_pos rfl] at hinner
  have hexpected : expected state P = 1 / 2 := congrArg PyComplex.re hinner
  have hcomplete : Complete state (.ofList [("a", P), ("b", P)]) :=
    Complete.pair hinner hinner (by norm_num) (by norm_num) (by norm_num) (by decide)
  refine ⟨P, state, hP, hstate, hcomplete, fun random seed => ?_⟩
  cases hcollapse : collapse random state (.ofList [("a", P), ("b", P)]) seed with
  | error exc => exact ⟨exc, rfl⟩
  | ok result =>
    -- the state that is returned would have the norm of the root of one half
    obtain ⟨-, P', hP', hpos, hfinal⟩ := hcomplete.of_collapse hcollapse
    have hmem := Dict.mem_values.mpr ⟨_, hP'⟩
    rw [Dict.values_ofList (by simp)] at hmem
    obtain rfl : P' = P := by simpa using hmem
    have hexcess : P'.excess state.vector = -1 / 4 := by
      have hnorm := P'.squareNorm_apply_eq_add_excess .lastInsertion state.vector
      have hre : (state.vector.inner .lastInsertion (P'.apply state.vector)).re = 1 / 2 := hexpected
      have hget : state.vector.get "0" = 1 := by rw [hvector, get_basisVector, if_pos rfl]
      rw [LinearOperator.squareNorm_apply_single hdimmed, hre, hget] at hnorm
      norm_num [PyComplex.born_eq, PyComplex.ofReal] at hnorm
      linarith
    have hnorm := squareNorm_renormalized hpos
    rw [hexcess, hexpected, ← hfinal] at hnorm
    have hnear := (abs_sqrt_sub_one_le_iff (ComplexVector.squareNorm_nonneg _) (by norm_num)
      (by norm_num)).mp result.2.abs_sqrt_sub_one_le
    rw [hnorm] at hnear
    norm_num at hnear

/-! ### Measuring again -/

lemma Orthogonal.complete (h : Orthogonal projectors)
    (hsum : (projectors.values.map (expected state)).sum = 1) : Complete state projectors := by
  have hinner : ∀ P ∈ projectors.values, state.vector.inner O (P.apply state.vector)
      = .ofReal (P.apply state.vector).squareNorm := fun P hP =>
    (h.idempotent P hP).inner_apply_eq (h.hermitian P hP) O state.vector
  refine ⟨fun P hP => congrArg PyComplex.im (hinner P hP), fun P hP => ?_, hsum⟩
  have hexpected : expected state P = (P.apply state.vector).squareNorm :=
    congrArg PyComplex.re (hinner P hP)
  rw [hexpected]
  exact ComplexVector.squareNorm_nonneg _

/-- What the projectors make of the state that is returned: the projector of the outcome keeps it,
and the others annihilate it. -/
lemma Orthogonal.get_apply_renormalized (h : Orthogonal projectors) (state : QuantumState O R)
    {P : ProjectionOperator R} (hP : projectors.get? outcome = some P)
    {q : String × ProjectionOperator R} (hq : q ∈ projectors.entries) (i : String) :
    (q.2.apply (renormalized state P)).get i
      = if q.1 = outcome then (renormalized state P).get i else 0 := by
  rw [renormalized, q.2.apply_mul _ _ i, ComplexVector.get_mul, ComplexVector.get_mul]
  by_cases hname : q.1 = outcome
  · have hentry : projectors.get? outcome = some q.2 := Dict.get?_eq_some.mpr (hname ▸ hq)
    obtain rfl := Option.some.inj (hP.symm.trans hentry)
    have hkept := (h.idempotent q.2 (List.mem_map_of_mem hq)).apply_apply state.vector i
    rw [if_pos hname, hkept]
  · have hzero := (h.annihilates q hq (outcome, P) (Dict.get?_eq_some.mp hP) hname)
    rw [if_neg hname, hzero.get_apply_apply_eq_zero, mul_zero]

/-- In the state that is returned the outcome is certain. -/
lemma Orthogonal.inner_apply_final (h : Orthogonal projectors) {final : QuantumState O R}
    {P : ProjectionOperator R} (hP : projectors.get? outcome = some P)
    (hfinal : final.vector = renormalized state P) (hnorm : final.vector.squareNorm = 1)
    {q : String × ProjectionOperator R} (hq : q ∈ projectors.entries) :
    final.vector.inner O (q.2.apply final.vector)
      = .ofReal (if q.1 = outcome then 1 else 0) := by
  have hget := h.get_apply_renormalized state hP hq
  rw [← hfinal] at hget
  by_cases hname : q.1 = outcome
  · have hkept : q.2.apply final.vector ≈ final.vector := fun i => by rw [hget, if_pos hname]
    rw [ComplexVector.inner_congr O (Setoid.refl _) hkept, ComplexVector.inner_self, hnorm,
      if_pos hname]
  · have hout : ∀ i ∉ (∅ : Finset String), (q.2.apply final.vector).get i = 0 := fun i _ => by
      rw [hget, if_neg hname]
    rw [ComplexVector.inner_eq_sum_right O hout, Finset.sum_empty, if_neg hname]
    rfl

/-- **Measuring again**: a measurement by projections that annihilate each other returns what it
returned, for whatever seed. -/
theorem collapse_repeats (h : Orthogonal projectors)
    (hsum : (projectors.values.map (expected state)).sum = 1) {final : QuantumState O R}
    (hcollapse : collapse random state projectors seed = .ok (outcome, final)) (seed' : ℤ) :
    ∃ final', collapse random final projectors seed' = .ok (outcome, final') ∧
      final'.vector ≈ final.vector ∧ final'.vector.eq O final.vector = true := by
  obtain ⟨-, P, hP, hpos, hfinal⟩ := (h.complete hsum).of_collapse hcollapse
  have hvalue := Dict.mem_values.mpr ⟨outcome, hP⟩
  have hidempotent := h.idempotent P hvalue
  have hexcess : ∀ v, P.excess v = 0 := hidempotent.excess_eq_zero (h.hermitian P hvalue)
  have hnorm : final.vector.squareNorm = 1 := by
    rw [hfinal, squareNorm_renormalized hpos, hexcess, zero_div, add_zero]
  have hexpected : ∀ q ∈ projectors.entries,
      expected final q.2 = if q.1 = outcome then 1 else 0 := fun q hq =>
    congrArg PyComplex.re (h.inner_apply_final hP hfinal hnorm hq)
  have hone : expected final P = 1 :=
    (hexpected (outcome, P) (Dict.get?_eq_some.mp hP)).trans (if_pos rfl)
  have hsum' : (projectors.values.map (expected final)).sum = 1 := by
    have hcoeff : (projectors.mapValues fun _ _ => (1 : R)).coeff outcome = 1 :=
      Dict.coeff_of_mem (List.mem_map_of_mem (Dict.get?_eq_some.mp hP))
    have hsingle := Dict.sum_entries_single (projectors.mapValues fun _ _ => (1 : R)) outcome
      (g := id) rfl
    rw [hcoeff, Dict.mapValues, List.map_map] at hsingle
    rw [Dict.values, List.map_map]
    exact (congrArg List.sum (List.map_congr_left hexpected)).trans hsingle
  have hcomplete := h.complete hsum'
  -- only the outcome has a positive probability, and so the draw falls on it
  obtain ⟨name, hselected⟩ := hcomplete.exists_selected (random seed')
  obtain rfl : name = outcome := by
    obtain ⟨Q, hQ⟩ := exists_projector hselected.mem_keys
    have hpositive := (get?_positiveProbabilities hselected.mem_keys hQ).1
    rw [hexpected (name, Q) (Dict.get?_eq_some.mp hQ)] at hpositive
    by_contra hne
    rw [if_neg hne] at hpositive
    exact lt_irrefl _ hpositive
  obtain ⟨final', hcollapse', hfinal', -⟩ := hcomplete.collapse_eq_ok hselected hP (hexcess _)
  have hsame : final'.vector ≈ final.vector := by
    have hkept := h.get_apply_renormalized state hP (Dict.get?_eq_some.mp hP)
    have hfactor : PyReciprocal.reciprocal (PyFloat.sqrt (1 : R)) = 1 := by
      rw [sqrt_one]
      exact one_div_one
    intro i
    rw [hfinal', renormalized, hone, hfactor, ComplexVector.get_mul, hfinal, hkept i, if_pos rfl]
    exact one_mul _
  exact ⟨final', hcollapse', hsame, ComplexVector.eq_of_equiv hsame O⟩

/-- The projectors on two basis states, measured again and again in a superposition. -/
theorem collapse_keep_repeats :
    ∃ (P₀ P₁ : ProjectionOperator ℝ) (state : QuantumState .lastInsertion ℝ),
      ProjectionOperator.new (keep "0") = .ok P₀ ∧ ProjectionOperator.new (keep "1") = .ok P₁ ∧
        QuantumState.fromDict .lastInsertion threeFourAmplitudes = .ok state ∧
        ∀ (random : ℤ → ℝ) seed, ∃ outcome final,
          collapse random state (.ofList [("0", P₀), ("1", P₁)]) seed = .ok (outcome, final) ∧
            ∀ seed', ∃ final',
              collapse random final (.ofList [("0", P₀), ("1", P₁)]) seed'
                  = .ok (outcome, final') ∧
                final'.vector ≈ final.vector ∧
                final'.vector.eq .lastInsertion final.vector = true := by
  obtain ⟨P₀, P₁, state, hP₀, hP₁, hstate, horthogonal, hcomplete⟩ := exists_basisProjectors
  refine ⟨P₀, P₁, state, hP₀, hP₁, hstate, fun random seed => ?_⟩
  obtain ⟨outcome, hselected⟩ := hcomplete.exists_selected (random seed)
  obtain ⟨P, hP⟩ := exists_projector hselected.mem_keys
  have hmem := Dict.mem_values.mpr ⟨outcome, hP⟩
  have hexcess : P.excess state.vector = 0 :=
    (horthogonal.idempotent P hmem).excess_eq_zero (horthogonal.hermitian P hmem) _
  obtain ⟨final, hcollapse, -⟩ := hcomplete.collapse_eq_ok hselected hP hexcess
  exact ⟨outcome, final, hcollapse, collapse_repeats horthogonal hcomplete.sum_eq hcollapse⟩

end MeasurementHarness

end QuantumFoundation
