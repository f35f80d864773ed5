import PolyCortex.Data.Persisted

/-!
# Values of received messages

What the code does with a JSON value that a server has sent: its truth value, `get` of an object, and
the names of the types that stand in the texts of exceptions.
-/

namespace PolyCortex

/-- What the use of a received value may raise. -/
inductive ReadError where
  | attributeError
  | raised (e : PyError)
  deriving DecidableEq, Repr

namespace PersistedValue

/-- `bool(value)`. -/
def truthy : PersistedValue → Bool
  | .null => false
  | .bool b => b
  | .int z => z ≠ 0
  | .float x => x ≠ .finite 0
  | .str s => s ≠ ""
  | .arr items => !items.isEmpty
  | .obj fields => !fields.isEmpty

/-- `value or other`. -/
def or (value other : PersistedValue) : PersistedValue := if value.truthy then value else other

/-- `value.get(key, default)`. -/
def get (value : PersistedValue) (key : String) (default : PersistedValue) :
    Except ReadError PersistedValue :=
  match value with
  | .obj fields => .ok ((fields.lookup key).getD default)
  | _ => .error .attributeError

/-- `type(value).__name__`. -/
def typeName : PersistedValue → String
  | .null => "NoneType"
  | .bool _ => "bool"
  | .int _ => "int"
  | .float _ => "float"
  | .str _ => "str"
  | .arr _ => "list"
  | .obj _ => "dict"

@[simp] lemma get_obj (key : String) (default : PersistedValue)
    (fields : List (String × PersistedValue)) :
    (obj fields).get key default = .ok ((fields.lookup key).getD default) := rfl

@[simp] lemma truthy_arr_nil : (arr []).truthy = false := rfl

@[simp] lemma truthy_null : null.truthy = false := rfl

/-- `value or []` is empty when the value is. -/
@[simp] lemma truthy_or_nil (value : PersistedValue) : (value.or (.arr [])).truthy = value.truthy := by
  rw [PersistedValue.or]
  split_ifs with h
  · rfl
  · simp [h]

end PersistedValue

/-! ### Results -/

variable {α β ε : Type}

lemma isOk_iff {result : Except ε α} : result.isOk = true ↔ ∃ a, result = .ok a := by
  cases result <;> simp [Except.isOk, Except.toBool]

lemma isOk_bind {result : Except ε α} {f : α → Except ε β} :
    (result >>= f).isOk = true ↔ ∃ a, result = .ok a ∧ (f a).isOk = true := by
  cases result <;> simp [bind, Except.bind, Except.isOk, Except.toBool]

/-- What is bound does not matter for the rest. -/
lemma isOk_bind_const {result : Except ε α} {f : α → Except ε β} {P : Prop}
    (h : ∀ a, (f a).isOk = true ↔ P) : (result >>= f).isOk = true ↔ result.isOk = true ∧ P := by
  rw [isOk_bind, isOk_iff, ← exists_and_right]
  exact exists_congr fun a => and_congr_right fun _ => h a

@[simp] lemma isOk_pure (a : α) : (pure a : Except ε α).isOk = true := rfl

@[simp] lemma isOk_mapError {ε' : Type} {result : Except ε α} {f : ε → ε'} :
    (result.mapError f).isOk = result.isOk := by
  cases result <;> rfl

end PolyCortex
