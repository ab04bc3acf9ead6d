import QuantumFoundation.Quantum.SealedOperators
import QuantumFoundation.Quantum.WeakMeasurement

/-!
# The formal operators

The vectors and states of `formal_state.py` and the operators of `operators.py`, an earlier version
of those of `complex_vector.py`, `core_state.py` and `core_operators.py`.  The vectors drop what is
negligible instead of what is zero, and a unitary operator is checked column by column instead of
by a product.
-/

namespace QuantumFoundation.Formal

section Definitions

variable {R : Type*} [PyFloat R]

/-! ### Vectors and states -/

/-- A vector: the amplitudes that are not negligible. -/
structure ComplexVector (R : Type*) [PyFloat R] where
  amplitudes : Dict String (PyComplex R)
  pruned : ∀ p ∈ amplitudes.entries, p.2.abs > 1e-12

namespace ComplexVector

/-- The constructor, which drops what is negligible. -/
def new (amplitudes : Dict String (PyComplex R)) : ComplexVector R where
  amplitudes := amplitudes.filter fun p => p.2.abs > 1e-12
  pruned := by
    intro p hp
    simpa using (List.mem_filter.mp hp).2

/-- `amplitudes.get(k, complex(0))`. -/
def get (v : ComplexVector R) (k : String) : PyComplex R := (v.amplitudes.get? k).getD (.ofReal 0)

/-- `norm`. -/
def norm [PyQuotient R] (v : ComplexVector R) : R :=
  PyFloat.sqrt (pySum (v.amplitudes.values.map fun amp => PyQuotient.square amp.abs))

/-- `inner_product`. -/
def innerProduct (O : SetOrder) (u v : ComplexVector R) : PyComplex R :=
  (O.iter (u.amplitudes.keys.filter fun k => v.amplitudes.contains k)).foldl
    (fun sum k => sum + (u.get k).conjugate * v.get k) (.ofReal 0)

end ComplexVector

/-- A normalised vector.  The last field is the check of the constructor. -/
structure QuantumState (R : Type*) [PyFloat R] [PyQuotient R] where
  vector : ComplexVector R
  norm_near : ¬PyFloat.abs (vector.norm - 1) > 1e-9

namespace QuantumState

variable [PyQuotient R]

/-- The constructor. -/
def new (vector : ComplexVector R) : Except Raised (QuantumState R) :=
  if h : PyFloat.abs (vector.norm - 1) > 1e-9 then
    .error ⟨.other "NormalizationError", "State vector violates L2 norm constraint (Norm = "
      ++ PyFloat.str vector.norm ++ "). Must be 1.0."⟩
  else .ok ⟨vector, h⟩

/-- `from_dict`. -/
def fromDict (amplitudes : Dict String (PyComplex R)) : Except Raised (QuantumState R) :=
  new (.new amplitudes)

end QuantumState

/-! ### Operators -/

/-- A linear operator stores what the operators of `core_operators.py` store.  The sets of the rows
and the columns, which nothing depends on, are left out. -/
abbrev LinearOperator (R : Type*) [PyFloat R] := QuantumFoundation.LinearOperator R

/-- `apply`. -/
def apply (vector : ComplexVector R) (A : LinearOperator R) : ComplexVector R :=
  .new (A.matrix.entries.foldl (fun outAmplitudes p =>
    let vecAmp := vector.get p.1.2
    if vecAmp.abs > 0 then
      outAmplitudes.set p.1.1 ((outAmplitudes.get? p.1.1).getD (.ofReal 0) + p.2 * vecAmp)
    else outAmplitudes) .empty)

/-- The loop of the check that groups the entries by their columns. -/
def columnsOf (entries : List ((String × String) × PyComplex R)) :
    Dict String (Dict String (PyComplex R)) :=
  entries.foldl (fun columns p =>
    let columns := if columns.contains p.1.2 then columns else columns.set p.1.2 .empty
    columns.modify p.1.2 fun column => column.set p.1.1 p.2) .empty

/-- `columns[col]`, of a column that occurs. -/
def columnAt (columns : Dict String (Dict String (PyComplex R))) (col : String) :
    Dict String (PyComplex R) := (columns.get? col).getD .empty

/-- The loop of the check over the norms of the columns. -/
def normLoop [PyQuotient R] : List (String × Dict String (PyComplex R)) → Except Raised Unit
  | [] => .ok ()
  | (col, vecDict) :: rest =>
    let normSq := pySum (vecDict.values.map fun v => PyQuotient.square v.abs)
    if PyFloat.abs (normSq - 1) > 1e-9 then
      .error ⟨.other "NonUnitaryError", "Column '" ++ col ++ "' does not have norm 1 (norm_sq="
        ++ PyFloat.str normSq ++ "). Not unitary."⟩
    else normLoop rest

/-- The product of two columns, over the rows that they have in common. -/
def innerProd (O : SetOrder) (column₁ column₂ : Dict String (PyComplex R)) : PyComplex R :=
  (O.iter (column₁.keys.filter fun row => column₂.contains row)).foldl (fun innerProd row =>
    innerProd + ((column₁.get? row).getD (.ofReal 0)).conjugate
      * (column₂.get? row).getD (.ofReal 0)) (.ofReal 0)

/-- The inner loop of the check over the pairs of columns. -/
def pairLoop (O : SetOrder) (columns : Dict String (Dict String (PyComplex R))) (c₁ : String) :
    List String → Except Raised Unit
  | [] => .ok ()
  | c₂ :: rest =>
    let product := innerProd O (columnAt columns c₁) (columnAt columns c₂)
    if product.abs > 1e-9 then
      .error ⟨.other "NonUnitaryError", "Columns '" ++ c₁ ++ "' and '" ++ c₂
        ++ "' are not orthogonal (product=" ++ product.str ++ "). Not unitary."⟩
    else pairLoop O columns c₁ rest

/-- The outer loop of the check over the pairs of columns. -/
def orthogonalityLoop (O : SetOrder) (columns : Dict String (Dict String (PyComplex R))) :
    List String → Except Raised Unit
  | [] => .ok ()
  | c₁ :: rest =>
    match pairLoop O columns c₁ rest with
    | .error exc => .error exc
    | .ok () => orthogonalityLoop O columns rest

/-- `_verify_unitarity`. -/
def verifyUnitarity [PyQuotient R] (O : SetOrder) (A : LinearOperator R) : Except Raised Unit :=
  let columns := columnsOf A.matrix.entries
  match normLoop columns.entries with
  | .error exc => .error exc
  | .ok () => orthogonalityLoop O columns columns.keys

/-- A unitary operator.  The last field is the check of the constructor, unless it was bypassed. -/
structure UnitaryOperator (O : SetOrder) (R : Type*) [PyFloat R] [PyQuotient R]
    (bypassCheck : Bool) extends LinearOperator R where
  verified : bypassCheck = false → verifyUnitarity O toLinearOperator = .ok ()

namespace UnitaryOperator

variable [PyQuotient R] (O : SetOrder)

/-- The constructor. -/
def new (matrix : Dict (String × String) (PyComplex R)) (bypassCheck : Bool) :
    Except Raised (UnitaryOperator O R bypassCheck) :=
  if hbypass : bypassCheck = true then
    .ok ⟨.new matrix, fun h => absurd (h.symm.trans hbypass) Bool.false_ne_true⟩
  else
    match h : verifyUnitarity O (QuantumFoundation.LinearOperator.new matrix) with
    | .error exc => .error exc
    | .ok () => .ok ⟨.new matrix, fun _ => h⟩

variable {O}

/-- `evolve`. -/
def evolve {bypassCheck : Bool} (state : QuantumState R) (u : UnitaryOperator O R bypassCheck) :
    Except Raised (QuantumState R) :=
  QuantumState.new (apply state.vector u.toLinearOperator)

end UnitaryOperator

end Definitions

/-! ### The columns -/

section Columns

variable {R : Type*} [Field R] [LinearOrder R] [MathLibrary R]

omit [Field R] [LinearOrder R] [MathLibrary R] in
/-- The dictionary after one more entry. -/
lemma get?_columnsOf_append (l : List ((String × String) × PyComplex R))
    (p : (String × String) × PyComplex R) (col : String) :
    (columnsOf (l ++ [p])).get? col
      = if col = p.1.2 then some ((columnAt (columnsOf l) col).set p.1.1 p.2)
        else (columnsOf l).get? col := by
  rw [columnsOf, List.foldl_append, List.foldl_cons, List.foldl_nil, ← columnsOf, Dict.get?_modify]
  by_cases hcol : col = p.1.2
  · subst hcol
    rw [if_pos rfl, if_pos rfl]
    by_cases hmem : p.1.2 ∈ (columnsOf l).keys
    · obtain ⟨column, hcolumn⟩ := Dict.mem_keys.mp hmem
      rw [if_pos (Dict.contains_eq_true.mpr hmem), columnAt, Dict.get?_eq_some.mpr hcolumn]
      rfl
    · rw [if_neg (Dict.contains_eq_true.not.mpr hmem), Dict.get?_set_self, columnAt,
        Dict.get?_eq_none.mpr hmem]
      rfl
  · rw [if_neg hcol, if_neg hcol]
    split
    · rfl
    · rw [Dict.get?_set, if_neg hcol]

/-- The grouped entries are the entries. -/
lemma coeff_columnAt (l : List ((String × String) × PyComplex R)) (row col : String) :
    (columnAt (columnsOf l) col).coeff row = (Dict.ofList l).coeff (row, col) := by
  induction l using List.reverseRecOn with
  | nil => rfl
  | append_singleton l p ih =>
    rw [Dict.ofList_append_singleton, Dict.coeff_set, columnAt, get?_columnsOf_append]
    by_cases hcol : col = p.1.2
    · rw [if_pos hcol, Option.getD_some, Dict.coeff_set, ih]
      simp only [Prod.ext_iff, hcol, and_true]
    · rw [if_neg hcol, if_neg fun heq => hcol (congrArg Prod.snd heq), ← columnAt, ih]

omit [Field R] [LinearOrder R] [MathLibrary R] in
lemma mem_keys_columnsOf {l : List ((String × String) × PyComplex R)} {col : String} :
    col ∈ (columnsOf l).keys ↔ col ∈ l.map fun p => p.1.2 := by
  induction l using List.reverseRecOn with
  | nil => rfl
  | append_singleton l p ih =>
    rw [← not_iff_not, ← Dict.get?_eq_none, get?_columnsOf_append, List.map_append, List.mem_append,
      List.map_singleton, List.mem_singleton, ← ih, not_or]
    by_cases hcol : col = p.1.2
    · simp [hcol]
    · simp [hcol, Dict.get?_eq_none]

variable (A : LinearOperator R)

lemma coeff_columnAt_entries (row col : String) :
    (columnAt (columnsOf A.matrix.entries) col).coeff row = A.matrix.coeff (row, col) := by
  rw [coeff_columnAt, Dict.ofList_entries]

lemma mem_keys_columnsOf_entries {col : String} :
    col ∈ (columnsOf A.matrix.entries).keys ↔ col ∈ A.columns := by
  rw [mem_keys_columnsOf, LinearOperator.columns, List.mem_toFinset, Dict.keys, List.map_map]
  rfl

lemma coeff_columnAt_of_notMem {row : String} (hrow : row ∉ A.rows) (col : String) :
    (columnAt (columnsOf A.matrix.entries) col).coeff row = 0 := by
  rw [coeff_columnAt_entries, LinearOperator.coeff_of_notMem_rows hrow]

/-- The product of two columns is the one that the seal computes. -/
lemma innerProd_eq_gram (O : SetOrder) (c₁ c₂ : String) :
    innerProd O (columnAt (columnsOf A.matrix.entries) c₁)
      (columnAt (columnsOf A.matrix.entries) c₂) = A.gram c₁ c₂ := by
  let column₁ := columnAt (columnsOf A.matrix.entries) c₁
  let column₂ := columnAt (columnsOf A.matrix.entries) c₂
  have hperm : (O.iter (column₁.keys.filter fun row => column₂.contains row)).Perm
      (column₁.keys.filter fun row => column₂.contains row) := by
    have hkeys : column₁.keys.Nodup := column₁.nodup
    have hdedup := O.perm (column₁.keys.filter fun row => column₂.contains row)
    rwa [(hkeys.filter _).dedup] at hdedup
  have hfold : innerProd O column₁ column₂ = ((O.iter (column₁.keys.filter fun row =>
      column₂.contains row)).map fun row => star (column₁.coeff row) * column₂.coeff row).sum := by
    rw [innerProd, List.sum_eq_foldl, List.foldl_map]
    rfl
  rw [hfold, Dict.sum_common hperm (fun row hrow => coeff_columnAt_of_notMem A hrow c₁)
    (g := fun z w => star z * w) (fun _ => by rw [star_zero, zero_mul]) fun _ => mul_zero _]
  refine Finset.sum_congr rfl fun row _ => ?_
  rw [coeff_columnAt_entries, coeff_columnAt_entries]

end Columns

/-! ### The check -/

section Check

variable {R : Type*} [Field R] [LinearOrder R] [MathLibrary R] [IsStrictOrderedRing R]
  [ExactMathLibrary R]

omit [IsStrictOrderedRing R] in
lemma pySum_square_abs (d : Dict String (PyComplex R)) :
    pySum (d.values.map fun v => PyQuotient.square v.abs)
      = (d.entries.map fun p => p.2.born).sum := by
  rw [pySum_eq_sum, Dict.values, List.map_map]
  refine congrArg List.sum (List.map_congr_left fun p _ => ?_)
  exact (sq _).trans p.2.abs_mul_self

omit [IsStrictOrderedRing R] in
lemma normLoop_ok_iff {l : List (String × Dict String (PyComplex R))} :
    normLoop l = .ok () ↔
      ∀ p ∈ l, |(p.2.entries.map fun q => q.2.born).sum - 1| ≤ 1e-9 := by
  induction l with
  | nil => exact iff_of_true rfl fun p hp => absurd hp List.not_mem_nil
  | cons p l ih =>
    rw [List.forall_mem_cons, ← ih, normLoop, pySum_square_abs]
    split
    · next hfar => exact iff_of_false (by simp) fun h => absurd h.1 (not_le.mpr hfar)
    · next hnear => exact (and_iff_right (not_lt.mp hnear)).symm

omit [IsStrictOrderedRing R] [ExactMathLibrary R] in
lemma pairLoop_ok_iff {O : SetOrder} {A : LinearOperator R} {c₁ : String} {l : List String} :
    pairLoop O (columnsOf A.matrix.entries) c₁ l = .ok () ↔
      ∀ c₂ ∈ l, (A.gram c₁ c₂).abs ≤ 1e-9 := by
  induction l with
  | nil => exact iff_of_true rfl fun c hc => absurd hc List.not_mem_nil
  | cons c₂ l ih =>
    rw [List.forall_mem_cons, ← ih, pairLoop, innerProd_eq_gram]
    split
    · next hfar => exact iff_of_false (by simp) fun h => absurd h.1 (not_le.mpr hfar)
    · next hnear => exact (and_iff_right (not_lt.mp hnear)).symm

omit [IsStrictOrderedRing R] [ExactMathLibrary R] in
/-- The two loops look at each pair of columns once. -/
lemma orthogonalityLoop_ok_iff {O : SetOrder} {A : LinearOperator R} {l : List String} :
    orthogonalityLoop O (columnsOf A.matrix.entries) l = .ok () ↔
      l.Pairwise fun c₁ c₂ => (A.gram c₁ c₂).abs ≤ 1e-9 := by
  induction l with
  | nil => exact iff_of_true rfl List.Pairwise.nil
  | cons c₁ l ih =>
    rw [List.pairwise_cons, ← ih, ← pairLoop_ok_iff (O := O), orthogonalityLoop]
    split
    · next exc hraised => exact iff_of_false (by simp) fun h => by simp [hraised] at h
    · next hok => exact (and_iff_right hok).symm

/-- **The check** of the columns accepts what the seal accepts. -/
theorem verifyUnitarity_iff (O : SetOrder) (A : LinearOperator R) :
    verifyUnitarity O A = .ok () ↔ A.NearlyOrthonormal := by
  have hcheck : verifyUnitarity O A = .ok () ↔
      normLoop (columnsOf A.matrix.entries).entries = .ok () ∧
        orthogonalityLoop O (columnsOf A.matrix.entries) (columnsOf A.matrix.entries).keys
          = .ok () := by
    rw [verifyUnitarity]
    split
    · next exc hraised => exact iff_of_false (by simp) fun h => by simp [hraised] at h
    · next hok => exact (and_iff_right hok).symm
  have hnorm : ∀ p ∈ (columnsOf A.matrix.entries).entries,
      (A.deviation p.1 p.1).abs = |(p.2.entries.map fun q => q.2.born).sum - 1| := by
    intro p hp
    have hcolumn : columnAt (columnsOf A.matrix.entries) p.1 = p.2 := by
      rw [columnAt, Dict.get?_eq_some.mpr hp]
      rfl
    have hout : ∀ row ∉ A.rows, p.2.coeff row = 0 := fun row hrow =>
      hcolumn ▸ coeff_columnAt_of_notMem A hrow p.1
    rw [LinearOperator.deviation_self, PyComplex.abs_ofReal,
      Dict.sum_entries hout (g := fun _ z => z.born) fun _ => PyComplex.born_zero]
    simp only [← hcolumn, coeff_columnAt_entries]
  have hsymm : Std.Symm fun c₁ c₂ => (A.gram c₁ c₂).abs ≤ 1e-9 := ⟨fun c₁ c₂ h => by
    rwa [LinearOperator.gram_conj A c₁ c₂, PyComplex.abs_star]⟩
  have hnodup : (columnsOf A.matrix.entries).keys.Nodup := (columnsOf A.matrix.entries).nodup
  rw [hcheck, normLoop_ok_iff, orthogonalityLoop_ok_iff]
  constructor
  · rintro ⟨hnorms, hpairs⟩ i hi k hk
    have hi' := (mem_keys_columnsOf_entries A).mpr hi
    by_cases hik : i = k
    · subst hik
      obtain ⟨column, hcolumn⟩ := Dict.mem_keys.mp hi'
      exact (hnorm _ hcolumn).trans_le (hnorms _ hcolumn)
    · rw [A.deviation_of_ne hik]
      exact hpairs.forall hi' ((mem_keys_columnsOf_entries A).mpr hk) hik
  · intro h
    constructor
    · intro p hp
      have hmem := (mem_keys_columnsOf_entries A).mp (Dict.mem_keys.mpr ⟨p.2, hp⟩)
      exact (hnorm p hp).symm.trans_le (h _ hmem _ hmem)
    · refine hnodup.pairwise_of_forall_ne fun i hi k hk hik => ?_
      have hnear := h i ((mem_keys_columnsOf_entries A).mp hi) k
        ((mem_keys_columnsOf_entries A).mp hk)
      rwa [A.deviation_of_ne hik] at hnear

lemma UnitaryOperator.exists_new_iff (O : SetOrder)
    (matrix : Dict (String × String) (PyComplex R)) :
    (∃ u, UnitaryOperator.new O matrix false = .ok u) ↔
      (QuantumFoundation.LinearOperator.new matrix).NearlyOrthonormal := by
  rw [← verifyUnitarity_iff O, UnitaryOperator.new, dif_neg Bool.false_ne_true]
  split
  · next exc hraised => exact iff_of_false (by simp) fun h => by simp [hraised] at h
  · next hok => exact iff_of_true ⟨_, rfl⟩ hok

/-- **The two constructors** of the unitary operators accept the same matrices. -/
theorem constructors_agree (O O' : SetOrder) (matrix : Dict (String × String) (PyComplex R)) :
    (∃ u, UnitaryOperator.new O matrix false = .ok u) ↔
      ∃ u, QuantumFoundation.UnitaryOperator.new O' matrix = .ok u := by
  rw [UnitaryOperator.exists_new_iff, ← QuantumFoundation.UnitaryOperator.exists_new_iff O']
  constructor
  · rintro ⟨u, hu, -⟩
    exact ⟨u, hu⟩
  · rintro ⟨u, hu⟩
    exact ⟨u, hu, QuantumFoundation.UnitaryOperator.operator_of_new hu⟩

/-- Both take the matrix that keeps one basis state. -/
theorem constructors_agree_keep :
    ∃ u, UnitaryOperator.new .lastInsertion (keep "0") false = .ok u :=
  (constructors_agree .lastInsertion .lastInsertion (keep "0")).mpr
    ((exists_keep "0").imp fun _ h => h.1)

end Check

end QuantumFoundation.Formal
