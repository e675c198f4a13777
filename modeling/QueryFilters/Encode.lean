import QueryFilters.Engine

/-!
# JSON forms

The JSON form of the library's values, as hosts exchange them: a filter with its kind, column,
title, placeholder, operator and value; a function value as `{"function": name}`; a target by
its kind; a parameter with its fields and whether it has a default.
-/

namespace QueryFilters

/-- A failure as `{"error": kind, "message": text}`. -/
def FilterError.toJson (e : FilterError) : Json :=
  .obj [("error", .str e.kind.name), ("message", .str e.message)]

/-- A result as `{"ok": value}`, a failure as its JSON form. -/
def Outcome.toJson (o : Outcome Json) : Json :=
  match o with
  | .ok j => .obj [("ok", j)]
  | .error e => e.toJson

/-- JSON stands for itself, a function for `{"function": name}`. -/
def Value.toJson : Value → Json
  | .raw j => j
  | .function h => .obj [("function", .str h.name)]

/-- The name of a filter's kind. -/
def Filter.kindName : Filter → String
  | .comparison .. => "with_operator"
  | .membership .. => "in"
  | .invocation .. => "function"
  | .argument .. => "function_parameter"

/-- A filter's JSON form; only conditions and memberships have an operator. -/
def Filter.toJson (f : Filter) : Json :=
  let common := [("kind", Json.str f.kindName), ("column", .str f.column),
    ("title", .str f.title), ("placeholder", .str f.placeholder)]
  let op : List (String × Json) :=
    match f with
    | .comparison _ o .. => [("operator", .str o.symbol)]
    | .membership .. => [("operator", .str "in")]
    | _ => []
  .obj (common ++ op ++ [("value", f.value.toJson)])

/-- A target by its kind. -/
def Target.toJson : Target → Json
  | .sql s => .obj [("sql", .str s)]
  | .staticSql s => .obj [("static_sql", .str s)]
  | .conditions items => .obj [("array", .arr items)]
  | .int n => .obj [("int", .int n)]

/-- A parameter with its fields, whether it has a default, and its default's placeholder. -/
def Parameter.toJson (p : Parameter) : Json :=
  .obj [("name", .str p.name), ("filter", .str p.filter), ("column", .str p.column),
    ("default", p.default.getD .null), ("has_default", .bool p.hasDefault),
    ("title_for_default", .str p.titleForDefault)]

/-- Filters as a JSON array. -/
def Filter.listToJson (fs : List Filter) : Json :=
  .arr (fs.map Filter.toJson)

end QueryFilters
