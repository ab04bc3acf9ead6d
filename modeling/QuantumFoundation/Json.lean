import QuantumFoundation.Python

/-!
# JSON-like values

What the programs read from outside: dicts, lists, numbers, texts and nulls in any nesting, and
what the runtime does with a value of another kind than the one that was expected.
-/

namespace QuantumFoundation

/-- A value made of dicts, lists, numbers, texts, truth values and nulls.  A dict is given by its
entries. -/
inductive Json (F : Type*)
  | null
  | bool (b : Bool)
  | int (i : ℤ)
  | float (x : F)
  | str (s : String)
  | list (items : List (Json F))
  | dict (entries : List (String × Json F))

/-- What the runtime knows of the conversion to floats. -/
structure NumberEnv (F : Type*) where
  /-- `float(i)`, if the integer is not too large. -/
  ofInt : ℤ → Option F
  /-- `float(s)`, if the text is that of a number. -/
  parse : String → Option F

/-- Exact numbers, to which no text is converted. -/
def exactNumbers : NumberEnv Rat := ⟨fun i => some i, fun _ => none⟩

namespace Json

variable {F : Type*}

/-- `type(v).__name__`. -/
def typeName : Json F → String
  | null => "NoneType"
  | bool _ => "bool"
  | int _ => "int"
  | float _ => "float"
  | str _ => "str"
  | list _ => "list"
  | dict _ => "dict"

/-- The exception of a call of a method that the value does not have. -/
def noAttribute (v : Json F) (name : String) : Raised :=
  ⟨.attributeError, "'" ++ v.typeName ++ "' object has no attribute '" ++ name ++ "'"⟩

/-- The value that a dict with the given entries has under a key. -/
def lookup (entries : List (String × Json F)) (key : String) : Option (Json F) :=
  (entries.find? fun p => p.1 = key).map Prod.snd

/-- `v.get(key, default)`. -/
def get (v : Json F) (key : String) (default : Json F) : Except Raised (Json F) :=
  match v with
  | dict entries => .ok ((lookup entries key).getD default)
  | v => .error (v.noAttribute "get")

/-- `v[key]`. -/
def item (v : Json F) (key : String) : Except Raised (Json F) :=
  match v with
  | dict entries => match lookup entries key with
    | some value => .ok value
    | none => .error ⟨.keyError, reprStr key⟩
  | list _ => .error ⟨.typeError, "list indices must be integers or slices, not str"⟩
  | str _ => .error ⟨.typeError, "string indices must be integers, not 'str'"⟩
  | v => .error ⟨.typeError, "'" ++ v.typeName ++ "' object is not subscriptable"⟩

/-- `v.items()`. -/
def items (v : Json F) : Except Raised (List (String × Json F)) :=
  match v with
  | dict entries => .ok entries
  | v => .error (v.noAttribute "items")

/-- What a loop over the value visits: the items of a list, the keys of a dict, the characters of
a text. -/
def iter (v : Json F) : Except Raised (List (Json F)) :=
  match v with
  | list items => .ok items
  | dict entries => .ok (entries.map fun p => str p.1)
  | str s => .ok (s.toList.map fun c => str c.toString)
  | v => .error ⟨.typeError, "'" ++ v.typeName ++ "' object is not iterable"⟩

/-- `bool(v)`. -/
def truthy [LE F] [DecidableLE F] [OfScientific F] (v : Json F) : Bool :=
  match v with
  | null => false
  | bool b => b
  | int i => i != 0
  -- a number that is neither above nor below zero; this leaves NaN true
  | float x => !decide (x ≤ 0.0 ∧ 0.0 ≤ x)
  | str s => s != ""
  | list items => !items.isEmpty
  | dict entries => !entries.isEmpty

/-- The conversion of an integer. -/
def intToFloat (N : NumberEnv F) (i : ℤ) : Except Raised F :=
  match N.ofInt i with
  | some x => .ok x
  | none => .error ⟨.overflowError, "int too large to convert to float"⟩

/-- `float(v)`. -/
def toFloat (N : NumberEnv F) (v : Json F) : Except Raised F :=
  match v with
  | float x => .ok x
  | int i => intToFloat N i
  | bool b => intToFloat N (if b then 1 else 0)
  | str s => match N.parse s with
    | some x => .ok x
    | none => .error ⟨.valueError, "could not convert string to float: " ++ reprStr s⟩
  | v => .error ⟨.typeError,
      "float() argument must be a string or a real number, not '" ++ v.typeName ++ "'"⟩

/-- The number that `x + v` adds to a float `x`. -/
def addend (N : NumberEnv F) (v : Json F) : Except Raised F :=
  match v with
  | float y => .ok y
  | int i => intToFloat N i
  | bool b => intToFloat N (if b then 1 else 0)
  | v => .error
    ⟨.typeError, "unsupported operand type(s) for +: 'float' and '" ++ v.typeName ++ "'"⟩

/-- A value for a field that is annotated as a text.  The runtime checks no annotation; a value of
another kind has no place in the typed record, and counts as an error here. -/
def toText (v : Json F) : Except Raised String :=
  match v with
  | str s => .ok s
  | v => .error ⟨.typeError, "expected str, got " ++ v.typeName⟩

/-! ### What is raised -/

lemma get_error {v default : Json F} {key : String} {exc : Raised}
    (h : v.get key default = .error exc) : exc.cls = .attributeError := by
  cases v with
  | dict entries => cases h
  | _ => rw [← Except.error.inj h]; rfl

lemma intToFloat_error {N : NumberEnv F} {i : ℤ} {exc : Raised}
    (h : intToFloat N i = .error exc) : exc.cls = .overflowError := by
  rw [intToFloat] at h
  split at h
  · cases h
  · rw [← Except.error.inj h]

lemma addend_error {N : NumberEnv F} {v : Json F} {exc : Raised}
    (h : v.addend N = .error exc) : exc.cls = .typeError ∨ exc.cls = .overflowError := by
  cases v with
  | float y => cases h
  | int i => exact Or.inr (intToFloat_error h)
  | bool b => exact Or.inr (intToFloat_error h)
  | _ => exact Or.inl (by rw [← Except.error.inj h])

end Json

end QuantumFoundation
