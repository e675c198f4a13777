import QueryFilters.Json.Print
import QueryFilters.Error

/-!
# Parameters of declared functions

A declared function turns each of its parameters into an ordinary filter: which filter word,
on which column, and whether a default value stands in for an argument. A parameter is
described by its name alone, by a list `[name, filter?, column?, default?]`, or by an object
with those fields. Descriptors with the same name replace each other in place, and the
parameters without a default are the ones a caller must supply.
-/

namespace QueryFilters

/-- A parameter definition: its name, the filter word and the column of the filter it becomes,
and its default value, which replaces the argument when present (a default may be `null`). -/
structure Parameter where
  name : String
  filter : String := "eq"
  column : String := name
  default : Option Json := none
  deriving BEq, Inhabited

namespace Parameter

/-- A parameter that filters its own column for equality and has no default. -/
def ofName (name : String) : Parameter := { name }

/-- The same parameter with another filter word. -/
def withFilter (p : Parameter) (filter : String) : Parameter := { p with filter }

/-- The same parameter on another column. -/
def withColumn (p : Parameter) (column : String) : Parameter := { p with column }

/-- The same parameter with a default value. -/
def withDefault (p : Parameter) (default : Json) : Parameter := { p with default := some default }

/-- The parameter has a default value. -/
def hasDefault (p : Parameter) : Bool := p.default.isSome

/-- The placeholder of the filter built from the default: the name followed by `_fun`. -/
def titleForDefault (p : Parameter) : String := p.name ++ "_fun"

/-- A parameter from a name and optional filter, column and default. -/
def build (name : String) (filter column : Option String) (default : Option Json) : Parameter :=
  { name, filter := filter.getD "eq", column := column.getD name, default }

end Parameter

/-- A parameter descriptor as given. -/
inductive Descriptor where
  /-- Just the name. -/
  | bare (name : String)
  /-- A list `[name, filter?, column?, default?]`, checked when read. -/
  | list (items : List Json)
  /-- Named fields. -/
  | record (name : String) (filter column : Option String) (default : Option Json)
  deriving BEq, Inhabited

namespace Descriptor

/-- An optional text field of a descriptor object: absent or `null` is none, text is some,
anything else refuses the descriptor. -/
def optionalText? : Option Json → Option (Option String)
  | none | some .null => some none
  | some (.str s) => some (some s)
  | some _ => none

/-- Reads a descriptor from JSON: a string is a name, an array a list, an object with a text
`name` and optional text `filter` and `column` and any `default` (`null` counting as none)
is named fields; other members are ignored, a repeated field refuses the object, and so does
any other value. -/
def ofJson? : Json → Option Descriptor
  | .str s => some (.bare s)
  | .arr xs => some (.list (xs.map Json.dedupe))
  | .obj members =>
    let known := ["name", "filter", "column", "default"]
    let keys := (members.map Prod.fst).filter (known.contains ·)
    if keys.eraseDups.length ≠ keys.length then none
    else
      let field (k : String) := Keyed.get? k members
      match field "name" with
      | some (.str name) => do
        let filter ← optionalText? (field "filter")
        let column ← optionalText? (field "column")
        let default := match field "default" with
          | none | some .null => none
          | some j => some j.dedupe
        pure (.record name filter column default)
      | _ => none
  | _ => none

/-- An optional text item of a descriptor list. -/
def itemText (name : String) (item : Option Json) : Outcome (Option String) :=
  match item with
  | none | some .null => .ok none
  | some (.str s) => .ok (some s)
  | some other => .error (.definitionItem name other.render)

end Descriptor

namespace Parameter

/-- The parameter a descriptor stands for. A list must have one to four items and start with a
text name; its filter and column items must be text or `null`, and a `null` default is none. -/
def ofDescriptor : Descriptor → Outcome Parameter
  | .bare n => .ok (ofName n)
  | .record n f c d => .ok (build n f c d)
  | .list xs =>
    if xs.isEmpty || 4 < xs.length then .error (.definitionLength xs.length)
    else
      match xs.head? with
      | some (.str n) => do
        let f ← Descriptor.itemText n xs[1]?
        let c ← Descriptor.itemText n xs[2]?
        let d : Option Json := match (xs[3]? : Option Json) with
          | none | some .null => none
          | some j => some j
        pure (build n f c d)
      | _ => .error .definitionName

/-- The descriptor that gives this parameter back: named fields with its filter and column. -/
def toDescriptor (p : Parameter) : Descriptor :=
  .record p.name (some p.filter) (some p.column) p.default

/-- The parameters of descriptors, in order; the first failure fails all. -/
def ofDescriptors (descriptors : List Descriptor) : Outcome (List Parameter) :=
  descriptors.mapM ofDescriptor

/-- Reads descriptors in order, the first failure failing all; a parameter whose name came
before replaces the earlier one in its place. -/
def normalize (descriptors : List Descriptor) : Outcome (List Parameter) :=
  descriptors.foldlM (fun acc d => do
    let p ← ofDescriptor d
    pure (if acc.any (·.name == p.name) then acc.map (fun q => if q.name == p.name then p else q)
      else acc ++ [p])) []

/-- The names of the parameters without a default, in order: those a caller must supply. -/
def requiredNames (ps : List Parameter) : List String :=
  (ps.filter (!·.hasDefault)).map (·.name)

end Parameter

end QueryFilters
