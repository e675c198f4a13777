import QueryFilters.Json.Print

/-!
# Targets

What filters are applied to: SQL text (owned, or a constant text), a list of conditions, or
some other value that no backend accepts, such as an integer. A target's type name is what a
refusal reports.
-/

namespace QueryFilters

/-- A value filters are applied to. -/
inductive Target where
  /-- SQL text. -/
  | sql (text : String)
  /-- Constant SQL text, accepted like SQL text; applying a filter gives SQL text. -/
  | staticSql (text : String)
  /-- A list of conditions `[column, operator, value]`. -/
  | conditions (items : List Json)
  /-- An integer, which no backend accepts. -/
  | int (n : Int)
  deriving BEq, Inhabited

namespace Target

/-- The type name a refusal reports. -/
def typeName : Target → String
  | .sql _ => "alloc::string::String"
  | .staticSql _ => "&str"
  | .conditions _ => "alloc::vec::Vec<serde_json::value::Value>"
  | .int _ => "i64"

/-- The debug text of a target, naming its type. -/
def debugText (t : Target) : String :=
  "Filterable \x7b type_name: \"" ++ t.typeName ++ "\" \x7d"

/-- The SQL text of a target that has one. -/
def sqlText? : Target → Option String
  | .sql s | .staticSql s => some s
  | _ => none

/-- The conditions of a list target. -/
def conditions? : Target → Option (List Json)
  | .conditions items => some items
  | _ => none

end Target

end QueryFilters
