import PolyCortex.Numeric.PyFloat

/-!
# Persisted values

What `json.load` gives, with the kinds of its numbers, and the exceptions that Python raises when it is
not what was expected. A method that reads a file catches some of them (`catching`); it is all or
nothing when it raises none and has changed nothing unless it succeeds (`AllOrNothing`).
-/

namespace PolyCortex

inductive PyError where
  | keyError
  | typeError
  | valueError
  | overflowError
  | jsonDecodeError
  | osError
  | recursionError
  deriving DecidableEq, Repr

/-- A JSON value; the keys of an object are distinct. -/
inductive PersistedValue where
  | null
  | bool (b : Bool)
  | int (z : ℤ)
  | float (x : PyFloat)
  | str (s : String)
  | arr (items : List PersistedValue)
  | obj (fields : List (String × PersistedValue))

/-- A file with its content as `json.load` reads it; `none` when there is none. -/
abbrev PersistedFile := Option (Except PyError PersistedValue)

/-- `float` and `int` of a text, `none` for a `ValueError`, and `str` of a value that is no text. -/
structure PyConversions where
  float : String → Option PyFloat
  int : String → Option ℤ
  str : PersistedValue → String

/-- No text is a number. -/
def PyConversions.noTexts : PyConversions where
  float _ := none
  int _ := none
  str _ := ""

namespace PersistedValue

variable (py : PyConversions)

/-- `value[key]`. -/
def getItem (key : String) : PersistedValue → Except PyError PersistedValue
  | .obj fields =>
    match fields.lookup key with
    | some value => .ok value
    | none => .error .keyError
  | _ => .error .typeError

/-- `value.get(key, default)` of an object. -/
def getD (value : PersistedValue) (key : String) (default : PersistedValue) : PersistedValue :=
  match value with
  | .obj fields => (fields.lookup key).getD default
  | _ => default

/-- `key in value`: a key of an object, an item of an array, a part of a text. -/
def contains (key : String) : PersistedValue → Except PyError Bool
  | .obj fields => .ok (fields.lookup key).isSome
  | .arr items =>
    .ok (items.any fun
      | .str s => s = key
      | _ => false)
  | .str s => .ok (decide (key.toList <:+: s.toList))
  | _ => .error .typeError

/-- The least integer that rounds to no float. -/
def floatOverflow : ℤ := 2 ^ 1024 - 2 ^ 970

/-- `float(value)`. -/
def toFloat : PersistedValue → Except PyError PyFloat
  | .float x => .ok x
  | .int z => if |z| < floatOverflow then .ok (.finite z) else .error .overflowError
  | .bool b => .ok (.finite (if b then 1 else 0))
  | .str s =>
    match py.float s with
    | some x => .ok x
    | none => .error .valueError
  | .null | .arr _ | .obj _ => .error .typeError

/-- `int(value)`. -/
def toInt : PersistedValue → Except PyError ℤ
  | .int z => .ok z
  | .bool b => .ok (if b then 1 else 0)
  | .float (.finite q) => .ok (q.num.tdiv q.den)
  | .float (.infinite _) => .error .overflowError
  | .float .nan => .error .valueError
  | .str s =>
    match py.int s with
    | some z => .ok z
    | none => .error .valueError
  | .null | .arr _ | .obj _ => .error .typeError

/-- `str(value)`. -/
def toStr : PersistedValue → String
  | .str s => s
  | value => py.str value

/-- What a loop over the value goes through. -/
def iterate : PersistedValue → Except PyError (List PersistedValue)
  | .arr items => .ok items
  | .str s => .ok (s.toList.map fun c => .str c.toString)
  | .obj fields => .ok (fields.map fun field => .str field.1)
  | _ => .error .typeError

/-- `[float(v) for v in value]`. -/
def toFloats (value : PersistedValue) : Except PyError (List PyFloat) := do
  (← value.iterate).mapM (toFloat py)

end PersistedValue

namespace PersistedValue

lemma getItem_of_lookup {fields : List (String × PersistedValue)} {key : String}
    {value : PersistedValue} (h : fields.lookup key = some value) :
    (obj fields).getItem key = .ok value := by
  simp [getItem, h]

/-- Floats are read as they were written. -/
lemma toFloats_floats (py : PyConversions) (xs : List PyFloat) :
    (arr (xs.map .float)).toFloats py = .ok xs := by
  have hmap : (xs.map PersistedValue.float).mapM (toFloat py) = .ok xs := by
    induction xs with
    | nil => rfl
    | cons x xs ih =>
      rw [List.map_cons, List.mapM_cons, ih]
      rfl
  exact hmap

end PersistedValue

/-! ### Exceptions -/

variable {α σ : Type} {handles : PyError → Bool} {s : σ}

/-- Two computations one after the other give a result only if both do. -/
lemma exists_of_bind_eq_ok {ε β : Type} {x : Except ε α} {f : α → Except ε β} {b : β}
    (h : (x >>= f) = .ok b) : ∃ a, x = .ok a ∧ f a = .ok b := by
  cases x with
  | error e => exact absurd h (by simp [bind, Except.bind])
  | ok a => exact ⟨a, rfl, h⟩

/-- The computation raises nothing that is not caught. -/
def Caught (handles : PyError → Bool) (result : Except PyError α) : Prop :=
  ∀ e, result = .error e → handles e = true

/-- `except handles: return False`, around what a method has returned or raised and the object it
has left behind. -/
def catching (handles : PyError → Bool) (ended : Except PyError Bool × σ) : Except PyError Bool × σ :=
  match ended with
  | (.error e, s) => if handles e then (.ok false, s) else (.error e, s)
  | (.ok b, s) => (.ok b, s)

/-- Catching an exception changes nothing in the object. -/
lemma catching_snd (handles : PyError → Bool) (ended : Except PyError Bool × σ) :
    (catching handles ended).2 = ended.2 := by
  obtain ⟨_ | e, s⟩ := ended
  · rw [catching]
    split_ifs <;> rfl
  · rfl

/-- The method has returned, and unless it has returned `True` the object is as before. -/
def AllOrNothing (before : σ) (ended : Except PyError Bool × σ) : Prop :=
  ∃ b, ended.1 = .ok b ∧ (b = false → ended.2 = before)

lemma caught_ok (a : α) : Caught handles (.ok a : Except PyError α) := by
  rintro e ⟨⟩

@[simp] lemma caught_error {e : PyError} :
    Caught handles (.error e : Except PyError α) ↔ handles e = true :=
  ⟨fun h => h e rfl, fun h _ he => Except.error.inj he ▸ h⟩

@[simp] lemma allOrNothing_ok {b : Bool} {s' : σ} :
    AllOrNothing s (.ok b, s') ↔ (b = false → s' = s) := by
  simp [AllOrNothing]

lemma allOrNothing_catching_error {e : PyError} {s' : σ} :
    AllOrNothing s (catching handles (.error e, s')) ↔ handles e = true ∧ s' = s := by
  rw [catching]
  split_ifs with h
  · simp [h]
  · simp [AllOrNothing, h]

end PolyCortex
