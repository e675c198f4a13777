import QueryFilters.Query.Pass

/-!
# Recognising function invocations

Five ways a query entry invokes a function, tried in this order:

1. by list: the function column lists function names, and each listed function takes its
   arguments from the columns named after its parameters;
2. by name: a column named after the function, with the argument (one parameter) or a tuple of
   arguments (several);
3. by tuple: a tuple column whose first token is the function column, with a tuple value (or a
   list of them) whose first token names the function;
4. by parameter tuple: a tuple column of exactly the function's parameters, in any order;
5. by parameters: all of a function's parameters given as columns, the function not listed.

An entry belongs to function recognition when one of the five accepts it, or when an earlier
invocation consumed its column; a consumed column that no way accepts reads as nothing.
-/

namespace QueryFilters

namespace Invocation

/-- The names held by the function column: an array of strings; anything else is refused,
shown as in messages. -/
def listedNames (raw : Json) : Outcome (List String) :=
  let refuse : FilterError := .listNotFunctions raw.display
  match raw with
  | .arr items => items.mapM fun i =>
      match i with
      | .str s => .ok s
      | _ => .error refuse
  | _ => .error refuse

/-- The arguments of a listed function, taken from the query columns of its parameters, each
column consumed. A parameter without a column is refused. -/
def listedArguments (q : Query) (function : String) : List String → PassM (List Filter)
  | [] => pure []
  | p :: rest => do
    match Keyed.get? p q with
    | none => PassM.fail (.missingParameter p function)
    | some v =>
      consume p
      let a ← emitArgument p v
      let more ← listedArguments q function rest
      pure (a ++ more)

/-- Fires the listed functions in order, each followed by its arguments. -/
def fireListed (sc : Scope) (q : Query) : List String → PassM (List Filter)
  | [] => pure []
  | name :: rest => do
    let f ← fire sc name .explicitByList
    let ps ← PassM.lift (sc.registry.parametersFor name)
    let args ← listedArguments q name ps
    let more ← fireListed sc q rest
    pure (f :: args ++ more)

/-- The argument filters of parameters paired with values, in order. -/
def emitPairs : List (String × Json) → PassM (List Filter)
  | [] => pure []
  | (p, v) :: rest => do
    let a ← emitArgument p v
    let more ← emitPairs rest
    pure (a ++ more)

/-- The text of a tuple value, or the failure of an invocation by tuple without one. -/
def tupleText (value : Json) : Outcome String :=
  match value with
  | .str s => if Tuple.isTupleText s then .ok s else .error .tupleInvocationValue
  | _ => .error .tupleInvocationValue

/-- The name a value token gives: a string is itself, anything else its JSON text. -/
def tokenName : Json → String
  | .str s => s
  | j => j.render

/-- Arguments of a function from values in order; a parameter left without a value is
refused. -/
def tupleArguments (function : String) : List String → List Json → PassM (List Filter)
  | [], _ => pure []
  | p :: _, [] => PassM.fail (.missingParameter p function)
  | p :: ps, v :: vs => do
    let a ← emitArgument p v
    let more ← tupleArguments function ps vs
    pure (a ++ more)

/-- One invocation by tuple: the value tuple has as many tokens as the column tuple, the first
names the function and the others are its arguments in parameter order. -/
def fireTuple (sc : Scope) (columns : Nat) (value : Json) : PassM (List Filter) := do
  let raw ← PassM.lift (tupleText value)
  let t ← PassM.lift (Tuple.parseCount raw columns)
  let vals ← PassM.lift t.values
  let name := (vals.head?.map tokenName).getD ""
  let f ← fire sc name .explicitByTuple
  let ps ← PassM.lift (sc.registry.parametersFor name)
  let args ← tupleArguments name ps vals.tail
  pure (f :: args)

/-- Invocations by tuple for each value of a list. -/
def fireTuples (sc : Scope) (columns : Nat) : List Json → PassM (List Filter)
  | [] => pure []
  | v :: rest => do
    let fs ← fireTuple sc columns v
    let more ← fireTuples sc columns rest
    pure (fs ++ more)

/-- Fires each function in order. -/
def fireAll (sc : Scope) (how : Recognition) : List String → PassM (List Filter)
  | [] => pure []
  | name :: rest => do
    let f ← fire sc name how
    let more ← fireAll sc how rest
    pure (f :: more)

/-- The functions a bare column completes: those having it as a parameter, not listed in the
function column, with all their parameters among the query's columns. -/
def completed (sc : Scope) (q : Query) (column : String) : List String :=
  (sc.registry.namesByParameter column).filter fun name =>
    !(sc.listed q).contains name &&
      match sc.registry.parametersFor name with
      | .ok ps => ps.all fun p => (Keyed.get? p q).isSome
      | .error _ => false

/-- The arguments of a function recognised by its parameters, from the columns present, each
consumed. -/
def presentArguments (q : Query) : List String → PassM (List Filter)
  | [] => pure []
  | p :: rest => do
    match Keyed.get? p q with
    | none => presentArguments q rest
    | some v =>
      consume p
      let a ← emitArgument p v
      let more ← presentArguments q rest
      pure (a ++ more)

end Invocation

open Invocation

namespace Recognition

/-- The order in which the ways of recognition are tried. -/
def order : List Recognition :=
  [.explicitByList, .explicitByName, .explicitByTuple, .implicitByTuple, .implicitByValue]

/-- Whether this way of recognition accepts a query entry. All need the query. -/
def supports (r : Recognition) (sc : Scope) (s : PassState) (column : String) (_value : Json) :
    Outcome Bool := do
  let q ← sc.query
  match r with
  | .explicitByList =>
    if column = sc.functionColumn then pure true
    else if s.isConsumed sc.functionColumn then pure false
    else pure ((sc.listed q).any fun name =>
      match sc.registry.parametersFor name with
      | .ok ps => ps.contains column
      | .error _ => false)
  | .explicitByName =>
    pure (!Tuple.isTupleText column && sc.registry.isRegistered column)
  | .explicitByTuple =>
    if !Tuple.isTupleText column then pure false
    else
      let t ← Tuple.parse column
      pure (t.firstColumn? == some sc.functionColumn)
  | .implicitByTuple =>
    if !Tuple.isTupleText column then pure false
    else
      let t ← Tuple.parse column
      pure !(sc.registry.namesByAllParameters t.columns).isEmpty
  | .implicitByValue =>
    if Tuple.isTupleText column then pure false
    else pure !(completed sc q column).isEmpty

/-- Reads a query entry as an invocation in this way. -/
def parse (r : Recognition) (sc : Scope) (column : String) (value : Json) :
    PassM (List Filter) :=
  match r with
  | .explicitByList => do
    let q ← PassM.lift sc.query
    if (← get).isConsumed sc.functionColumn then pure []
    else
      consume sc.functionColumn
      let names ← PassM.lift (listedNames ((Keyed.get? sc.functionColumn q).getD .null))
      fireListed sc q names
  | .explicitByName => do
    let ps ← PassM.lift (sc.registry.parametersFor column)
    let f ← fire sc column .explicitByName
    match ps with
    | [p] =>
      if Tuple.isTupleValue value || value.isArray || value.isObject then
        PassM.fail .singleValueExpected
      else
        let a ← emitArgument p value
        pure (f :: a)
    | _ =>
      match value with
      | .str raw =>
        if Tuple.isTupleText raw then
          let t ← PassM.lift (Tuple.parseCount raw ps.length)
          let vals ← PassM.lift t.values
          let args ← emitPairs (ps.zip vals)
          pure (f :: args)
        else PassM.fail .tupleValueExpected
      | _ => PassM.fail .tupleValueExpected
  | .explicitByTuple => do
    let t ← PassM.lift (Tuple.parse column)
    match value with
    | .arr items => fireTuples sc t.size items
    | _ => fireTuple sc t.size value
  | .implicitByTuple => do
    let raw ← PassM.lift (tupleText value)
    let t ← PassM.lift (Tuple.parse column)
    let columns := t.columns
    let v ← PassM.lift (Tuple.parseCount raw columns.length)
    let vals ← PassM.lift v.values
    let fs ← fireAll sc .implicitByTuple (sc.registry.namesByAllParameters columns)
    let args ← emitPairs (columns.zip vals)
    pure (fs ++ args)
  | .implicitByValue => do
    let q ← PassM.lift sc.query
    match completed sc q column with
    | [] => pure []
    | [name] =>
      match (← get).firedBy name with
      | some .implicitByValue => pure []
      | some _ => PassM.fail .multipleCall
      | none =>
        let f ← fire sc name .implicitByValue
        let ps ← PassM.lift (sc.registry.parametersFor name)
        let args ← presentArguments q ps
        pure (f :: args)
    | names => PassM.fail (.ambiguous names)

/-- The first way of recognition that accepts a query entry. -/
def find? (sc : Scope) (s : PassState) (column : String) (value : Json) :
    Outcome (Option Recognition) :=
  order.findM? fun r => r.supports sc s column value

end Recognition

namespace Invocation

/-- Function recognition accepts an entry whose column was consumed, or one that a way of
recognition accepts. -/
def supports (sc : Scope) (s : PassState) (column : String) (value : Json) : Outcome Bool :=
  if s.isConsumed column then .ok true
  else (Recognition.find? sc s column value).map Option.isSome

/-- Reads an entry by the first way of recognition that accepts it; nothing if none does. -/
def parse (sc : Scope) (column : String) (value : Json) : PassM (List Filter) := do
  match ← PassM.lift (Recognition.find? sc (← get) column value) with
  | some r => r.parse sc column value
  | none => pure []

end Invocation

end QueryFilters
