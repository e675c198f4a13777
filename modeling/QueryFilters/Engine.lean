import QueryFilters.Query.Read
import QueryFilters.Apply

/-!
# The engine

What a host holds: the function column, the registered functions and the backends. It reads
queries into filters, applies filters to targets with their prepared values, and runs
functions.
-/

namespace QueryFilters

/-- The function column, the functions and the backends. -/
structure Engine where
  functionColumn : String := "fun"
  functions : Functions := {}
  backends : Ranked := {}
  /-- The bodies the host wrote, in the order it registered them: `Body.host k` runs the
  `k`-th. -/
  bodies : List HostBody := []
  deriving Inhabited

/-- A change of an engine: it may fail, and a failure keeps the state reached. -/
abbrev EngineM := EStateM FilterError Engine

namespace Engine

/-- The registry of the engine's functions. -/
def registry (e : Engine) : Registry := e.functions.registry

/-- An engine with a function column and nothing registered. -/
def withFunctionColumn (column : String) : Engine := { functionColumn := column }

/-- Adds a backend with a priority. -/
def addBackend (e : Engine) (b : Backend) (priority : Int) : Engine :=
  { e with backends := e.backends.add b priority }

/-- Runs a change of the registered functions on the engine's, keeping the state it reaches
whether it succeeds or fails. -/
def onFunctions {α : Type} (m : FunctionsM α) : EngineM α := fun e =>
  match m.run e.functions with
  | .ok a fs => .ok a { e with functions := fs }
  | .error err fs => .error err { e with functions := fs }

/-- Registers a function with a body the host wrote and no definitions. The engine keeps the
body once the function is registered. -/
def registerBody (name : String) (parameters : List String) (body : HostBody) : EngineM Unit := do
  let key := (← get).bodies.length
  onFunctions (Functions.register name parameters (.host key) [])
  modify fun e => { e with bodies := e.bodies ++ [body] }

/-- Declares a function from parameter descriptors: its parameters are the normalized
definitions without a default, and its body applies the definitions. Descriptors are read
before anything changes. -/
def declare (name : String) (descriptors : List Descriptor) : EngineM Unit :=
  match Parameter.normalize descriptors with
  | .ok defs => onFunctions (Functions.register name (Parameter.requiredNames defs) (.declared defs) defs)
  | .error err => throw err

/-- Reads a query into filters. -/
def parse (e : Engine) (q : Query) : Outcome (List Filter) :=
  Query.read e.registry e.functionColumn q

/-- Applies one filter of a list; the target is unchanged when nothing was built. -/
def applyFilter (e : Engine) (f : Filter) (t : Target) (fs : List Filter) : Outcome Target :=
  (applyOne e.bodies e.backends e.registry fs f t).map (·.getD t)

/-- Applies the filters in order. -/
def applyFilters (e : Engine) (fs : List Filter) (t : Target) : Outcome Target :=
  (applyEach e.bodies e.backends e.registry fs fs t).map (·.getD t)

/-- Applies the filters in order, reporting `none` when no filter built a new target. -/
def rebuild (e : Engine) (fs : List Filter) (t : Target) : Outcome (Option Target) :=
  applyEach e.bodies e.backends e.registry fs fs t

/-- The prepared values of one filter of a list. -/
def preparedValue (e : Engine) (f : Filter) (t : Target) (fs : List Filter) : Outcome Prepared :=
  preparedOne e.backends e.registry fs f t

/-- The prepared values of all filters, merged in order. -/
def preparedValues (e : Engine) (fs : List Filter) (t : Target) : Outcome Prepared :=
  preparedAll e.backends e.registry fs t

/-- Reads a query and runs a function on the target with the arguments found. -/
def execute (e : Engine) (name : String) (q : Query) (t : Target) : Outcome Target := do
  let fs ← e.parse q
  e.registry.execute e.bodies e.backends name fs t

/-- Reads a query, runs a function on the target, and gives the prepared values of the
function's invocation. -/
def applyFunction (e : Engine) (name : String) (q : Query) (t : Target) :
    Outcome (Target × Prepared) := do
  let fs ← e.parse q
  let applied ← e.registry.execute e.bodies e.backends name fs t
  let f? := fs.find? fun f =>
    match f with
    | .invocation c _ => c == name
    | _ => false
  match f? with
  | none => throw (.notInQuery name)
  | some f =>
    let p ← e.preparedValue f t fs
    pure (applied, p)

end Engine

end QueryFilters
