import QueryFilters.Keyed

/-!
# JSON values

Query values, filter values, prepared values and configuration texts are JSON. An object keeps
its members in the order they were given, because the order of query parameters decides how a
query is read. A number is an integer (the reader keeps integers between `-2^63` and `2^64 - 1`
exact) or a binary64 number, kept as its bit pattern so that values compare structurally.
-/

namespace QueryFilters

/-- A JSON value with ordered object members. -/
inductive Json where
  | null
  | bool (b : Bool)
  | int (n : Int)
  | float (bits : UInt64)
  | str (s : String)
  | arr (items : List Json)
  | obj (fields : List (String × Json))
  deriving BEq, Inhabited

namespace Json

/-- The JSON number of a binary64 value. -/
def ofFloat (x : Float) : Json := .float x.toBits

/-- The member of an object under a key; `none` for other values. -/
def get? (j : Json) (k : String) : Option Json :=
  match j with
  | .obj fields => Keyed.get? k fields
  | _ => none

/-- The text of a string value. -/
def asString? : Json → Option String
  | .str s => some s
  | _ => none

/-- The items of an array value. -/
def asArray? : Json → Option (List Json)
  | .arr items => some items
  | _ => none

/-- The members of an object value. -/
def asObject? : Json → Option (List (String × Json))
  | .obj fields => some fields
  | _ => none

/-- An array value. -/
def isArray : Json → Bool
  | .arr _ => true
  | _ => false

/-- An object value. -/
def isObject : Json → Bool
  | .obj _ => true
  | _ => false

/-- A string, number or boolean. -/
def isScalar : Json → Bool
  | .str _ | .int _ | .float _ | .bool _ => true
  | _ => false

mutual
/-- Collapses repeated keys of every object: the later value replaces the earlier one at the
earlier position. -/
def dedupe : Json → Json
  | .arr items => .arr (dedupeItems items)
  | .obj fields => .obj (Keyed.ofList (dedupeFields fields))
  | j => j

/-- `dedupe` on each item. -/
def dedupeItems : List Json → List Json
  | [] => []
  | j :: rest => dedupe j :: dedupeItems rest

/-- `dedupe` on each member value. -/
def dedupeFields : List (String × Json) → List (String × Json)
  | [] => []
  | (k, j) :: rest => (k, dedupe j) :: dedupeFields rest
end

end Json

end QueryFilters
