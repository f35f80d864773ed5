import PolyCortex.Execution.Order

/-!
# JSON values

The values of the `json` module, with what Python does with them: their truth value, `float`, `str`,
`len`. The functions of the standard library that read or write text are a parameter.
-/

namespace PolyCortex

/-- A JSON value; the keys of an object are distinct. -/
inductive Json where
  | null
  | bool (b : Bool)
  | num (q : ℚ)
  | str (s : String)
  | arr (items : List Json)
  | obj (fields : List (String × Json))

/-- The standard library on text: `json.loads`, `float` of a text and `datetime.fromisoformat` give
`none` when they raise. -/
structure PyText where
  loads : String → Option Json
  float : String → Option ℚ
  fromIsoFormat : String → Option Time
  str : Json → String

namespace Json

/-- `bool(value)`. -/
def truthy : Json → Bool
  | .null => false
  | .bool b => b
  | .num q => q ≠ 0
  | .str s => s ≠ ""
  | .arr items => !items.isEmpty
  | .obj fields => !fields.isEmpty

/-- `value or other`. -/
def or (value other : Json) : Json := if value.truthy then value else other

/-- `float(value)`; `none` for a `ValueError` or `TypeError`. -/
def float (py : PyText) : Json → Option ℚ
  | .num q => some q
  | .bool b => some (if b then 1 else 0)
  | .str s => py.float s
  | _ => none

/-- `str(value)`. -/
def toStr (py : PyText) : Json → String
  | .str s => s
  | value => py.str value

/-- `fields.get(key)`. -/
def get (key : String) (fields : List (String × Json)) : Json := (fields.lookup key).getD .null

/-- `list(value)`, of the items, characters or keys; `none` when the value is not iterable. -/
def iterate : Json → Option (List Json)
  | .arr items => some items
  | .str s => some (s.toList.map fun c => .str c.toString)
  | .obj fields => some (fields.map fun field => .str field.1)
  | _ => none

end Json
end PolyCortex
