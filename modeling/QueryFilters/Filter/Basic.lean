import QueryFilters.Function.Handle

/-!
# Filters

A filter is a condition on a column with an operator, a membership condition (IN), the
invocation of a function, or an argument of an invoked function. Each filter has a title and
a placeholder, the name under which a backend binds its value: `column_title`, unless a full
title replaces it. A filter is made from a column, a filter word and a value by
`Filter.create`.
-/

namespace QueryFilters

/-- The comparison of a condition. -/
inductive Operator where
  | eq
  | gt
  | lt
  | gte
  | lte
  deriving DecidableEq, Repr, Inhabited

namespace Operator

/-- The symbol written in conditions. -/
def symbol : Operator → String
  | .eq => "="
  | .gt => ">"
  | .lt => "<"
  | .gte => ">="
  | .lte => "<="

/-- The filter word of the operator, which is also its title. -/
def title : Operator → String
  | .eq => "eq"
  | .gt => "gt"
  | .lt => "lt"
  | .gte => "gte"
  | .lte => "lte"

end Operator

/-- A value of a filter: JSON, or a function. -/
inductive Value where
  | raw (j : Json)
  | function (h : Handle)
  deriving BEq, Inhabited

namespace Value

/-- The JSON of a value, `null` for a function. -/
def rawOrNull : Value → Json
  | .raw j => j
  | .function _ => .null

/-- The display of a value in messages; a function shows as `callable`. -/
def display : Value → String
  | .raw j => j.display
  | .function _ => "callable"

/-- The value is a JSON array. -/
def isList : Value → Bool
  | .raw j => j.isArray
  | .function _ => false

/-- The value is a JSON string, number or boolean. -/
def isScalar : Value → Bool
  | .raw j => j.isScalar
  | .function _ => false

/-- The value is a function. -/
def isCallable : Value → Bool
  | .raw _ => false
  | .function _ => true

end Value

/-- A filter. A full title, when set, is the placeholder of a condition or membership. -/
inductive Filter where
  /-- `column operator value`. -/
  | comparison (column : String) (op : Operator) (value : Value) (fullTitle : Option String)
  /-- `column IN items`. -/
  | membership (column : String) (items : List Json) (fullTitle : Option String)
  /-- The invocation of a function; the column is the function's name. -/
  | invocation (column : String) (handle : Handle)
  /-- An argument of an invoked function; the column is the parameter's name. -/
  | argument (column : String) (value : Value)
  deriving BEq, Inhabited

namespace Filter

/-- The column of a filter. -/
def column : Filter → String
  | .comparison c .. | .membership c .. | .invocation c _ | .argument c _ => c

/-- The title: the operator's word, `in`, or `fun` for functions and arguments. -/
def title : Filter → String
  | .comparison _ op .. => op.title
  | .membership .. => "in"
  | .invocation .. | .argument .. => "fun"

/-- The value: the compared value, the list of members, the function, or the argument. -/
def value : Filter → Value
  | .comparison _ _ v _ => v
  | .membership _ items _ => .raw (.arr items)
  | .invocation _ h => .function h
  | .argument _ v => v

/-- The placeholder: the full title if set, else `column_title`. -/
def placeholder (f : Filter) : String :=
  let own := f.column ++ "_" ++ f.title
  match f with
  | .comparison _ _ _ (some t) | .membership _ _ (some t) => t
  | _ => own

/-- The placeholder of the member at an index of a membership filter. -/
def memberPlaceholder (f : Filter) (i : Nat) : String :=
  f.placeholder ++ "_" ++ toString i

/-- Sets the full title of a condition or membership; other filters keep theirs. -/
def setFullTitle (f : Filter) (t : String) : Filter :=
  match f with
  | .comparison c op v _ => .comparison c op v (some t)
  | .membership c items _ => .membership c items (some t)
  | f => f

/-- The members of an IN filter: a list stands for itself, a scalar for a list of one; other
values are refused. -/
def membersOf (v : Value) : Outcome (List Json) :=
  match v with
  | .raw (.arr items) => .ok items
  | .raw j => if j.isScalar then .ok [j] else .error (.membershipValue v.display)
  | .function _ => .error (.membershipValue v.display)

/-- Makes a filter from a column, a filter word and a value. The word is compared after
folding ASCII letters to lower case: `eq`, `gt`, `lt`, `gte`, `lte`, `in`, `function` and
`function_parameter`. This decides like full Unicode lower-casing would, since no other
character lowers to a text made of these ASCII letters only. An unknown word is reported as
given. -/
def create (column word : String) (value : Value) : Outcome Filter :=
  match word.toLower with
  | "eq" => .ok (.comparison column .eq value none)
  | "gt" => .ok (.comparison column .gt value none)
  | "lt" => .ok (.comparison column .lt value none)
  | "gte" => .ok (.comparison column .gte value none)
  | "lte" => .ok (.comparison column .lte value none)
  | "in" => (membersOf value).map fun items => .membership column items none
  | "function" =>
    match value with
    | .function h => .ok (.invocation column h)
    | .raw _ => .error (.notCallable value.display)
  | "function_parameter" => .ok (.argument column value)
  | _ => .error (.unknownFilter word column value.display)

/-- The argument filter of a parameter, if this is one. -/
def argument? : Filter → Option (String × Value)
  | .argument c v => some (c, v)
  | _ => none

/-- The first argument filter for a parameter. -/
def findArgument (fs : List Filter) (parameter : String) : Outcome Value :=
  match fs.findSome? fun f =>
      match f with
      | .argument c v => if c = parameter then some v else none
      | _ => none with
  | some v => .ok v
  | none => .error (.noArgument parameter)

/-- The first argument filter for a parameter, itself. -/
def findArgumentFilter (fs : List Filter) (parameter : String) : Outcome Filter :=
  match fs.find? fun f =>
      match f with
      | .argument c _ => c == parameter
      | _ => false with
  | some f => .ok f
  | none => .error (.noArgument parameter)

/-- The filters on any of the columns, in order. -/
def onColumns (fs : List Filter) (columns : List String) : List Filter :=
  fs.filter fun f => columns.contains f.column

end Filter

end QueryFilters
