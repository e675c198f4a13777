import QueryFilters.Function.Registry
import QueryFilters.Filter.Basic
import QueryFilters.Tuple.Basic

/-!
# One pass over a query

A query is an object of parameters in the order given. Reading it is one pass, which keeps
what has happened so far: which functions fired and how they were recognised, which
parameters have already become arguments, and which columns an invocation consumed. A
function fires at most once per pass, and a parameter becomes an argument at most once.

The pass runs in `PassM`, where a failure keeps the state reached before it.
-/

namespace QueryFilters

/-- Query parameters in the order given. -/
abbrev Query := List (String × Json)

/-- How a function invocation was recognised. -/
inductive Recognition where
  /-- Listed in the function column. -/
  | explicitByList
  /-- A column named after the function. -/
  | explicitByName
  /-- A tuple column whose first token is the function column. -/
  | explicitByTuple
  /-- A tuple column of exactly the function's parameters. -/
  | implicitByTuple
  /-- All of the function's parameters given as columns. -/
  | implicitByValue
  deriving DecidableEq, Repr, Inhabited

/-- The name of a way of recognition. -/
def Recognition.name : Recognition → String
  | .explicitByList => "explicit_by_list"
  | .explicitByName => "explicit_by_name"
  | .explicitByTuple => "explicit_by_tuple"
  | .implicitByTuple => "implicit_by_tuple"
  | .implicitByValue => "implicit_by_value"

/-- What a pass has done so far. -/
structure PassState where
  /-- Functions fired, with how they were recognised, in firing order. -/
  fired : List (String × Recognition) := []
  /-- Parameters that have become arguments. -/
  emitted : List String := []
  /-- Columns consumed by invocations. -/
  consumed : List String := []
  deriving Inhabited

/-- What a pass reads from: the query (absent when recognition runs without one), the
registry and the function column. -/
structure Scope where
  query? : Option Query
  registry : Registry
  functionColumn : String

/-- A step of a pass: it may fail, and a failure keeps the state reached. -/
abbrev PassM := EStateM FilterError PassState

namespace PassState

/-- How a function fired in this pass, if it did. -/
def firedBy (s : PassState) (function : String) : Option Recognition :=
  Keyed.get? function s.fired

/-- The parameter has become an argument. -/
def isEmitted (s : PassState) (parameter : String) : Bool :=
  s.emitted.contains parameter

/-- The column was consumed. -/
def isConsumed (s : PassState) (column : String) : Bool :=
  s.consumed.contains column

end PassState

namespace Scope

/-- The query, or the failure of recognising functions without one. -/
def query (sc : Scope) : Outcome Query :=
  match sc.query? with
  | some q => .ok q
  | none => .error .detached

/-- The query parameter under a column. -/
def get? (sc : Scope) (column : String) : Option Json :=
  sc.query?.bind (Keyed.get? column)

/-- The function names listed in the function column: its strings, if it holds an array. -/
def listed (sc : Scope) (q : Query) : List String :=
  match Keyed.get? sc.functionColumn q with
  | some (.arr items) => items.filterMap Json.asString?
  | _ => []

end Scope

/-- Fails with an error of the library. -/
def PassM.fail (e : FilterError) : PassM α := throw e

/-- Lifts a computation that does not touch the state. -/
def PassM.lift (o : Outcome α) : PassM α :=
  match o with
  | .ok a => pure a
  | .error e => throw e

/-- Fires a function: refused if it fired already in this pass, then if it is not registered;
the answer is its invocation filter. -/
def fire (sc : Scope) (function : String) (how : Recognition) : PassM Filter := do
  let s ← get
  if (s.firedBy function).isSome then PassM.fail .multipleCall
  else
    let h ← PassM.lift (sc.registry.handle function)
    set { s with fired := s.fired ++ [(function, how)] }
    pure (.invocation function h)

/-- The argument filter of a parameter, unless the parameter became an argument already. -/
def emitArgument (parameter : String) (value : Json) : PassM (List Filter) := do
  let s ← get
  if s.isEmitted parameter then pure []
  else
    set { s with emitted := s.emitted ++ [parameter] }
    pure [.argument parameter (.raw value)]

/-- Marks a column as consumed. -/
def consume (column : String) : PassM Unit :=
  modify fun s => if s.isConsumed column then s else { s with consumed := s.consumed ++ [column] }

end QueryFilters
