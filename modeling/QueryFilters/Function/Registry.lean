import QueryFilters.Function.Handle

/-!
# The function registry

Functions in registration order, each with its parameter names, its body and, for a declared
function, its parameter definitions. A parameter name belongs to at most one function, so a
bare parameter column points to at most one function. Registering a name again replaces the
function in its place and releases the parameter names it no longer has.

Registration keeps an index from each parameter name to the function that has it
(`Functions`), checks a new function against the index, and only then changes anything: the
index forgets the function's former parameters and takes the new ones, and the registry puts
the function in place. The lookups read the registry alone.
-/

namespace QueryFilters

/-- A registered function. -/
structure Entry where
  name : String
  parameters : List String
  body : Body
  /-- The parameter definitions of a declared function; empty for a ready-made body. -/
  definitions : List Parameter
  deriving Inhabited

/-- Registered functions, in registration order. -/
structure Registry where
  entries : List Entry := []
  deriving Inhabited

namespace Registry

/-- The entry of a function. -/
def find? (r : Registry) (name : String) : Option Entry :=
  r.entries.find? (·.name == name)

/-- The function a parameter name belongs to. -/
def owner? (r : Registry) (parameter : String) : Option String :=
  (r.entries.find? (·.parameters.contains parameter)).map (·.name)

/-- A function of this name is registered. -/
def isRegistered (r : Registry) (name : String) : Bool :=
  r.entries.any (·.name == name)

/-- The number of registered functions. -/
def size (r : Registry) : Nat := r.entries.length

/-- The entry of a registered function. -/
def get (r : Registry) (name : String) : Outcome Entry :=
  match r.find? name with
  | some e => .ok e
  | none => .error (.notRegistered name)

/-- The parameter names of a registered function. -/
def parametersFor (r : Registry) (name : String) : Outcome (List String) :=
  (r.get name).map (·.parameters)

/-- The parameter definitions of a registered function. -/
def definitionsFor (r : Registry) (name : String) : Outcome (List Parameter) :=
  (r.get name).map (·.definitions)

/-- The function value of a registered function. -/
def handle (r : Registry) (name : String) : Outcome Handle :=
  (r.get name).map fun e => ⟨e.name, e.body⟩

/-- The functions having this parameter, in registration order. -/
def namesByParameter (r : Registry) (parameter : String) : List String :=
  (r.entries.filter (·.parameters.contains parameter)).map (·.name)

/-- The functions whose parameters are exactly these names, counted with repetition and in any
order. -/
def namesByAllParameters (r : Registry) (parameters : List String) : List String :=
  (r.entries.filter (·.parameters.isPerm parameters)).map (·.name)

/-- The first parameter that cannot be given to the function `name`, with the function that
holds it: one of another function, or one named twice in the list. -/
def conflict? (r : Registry) (name : String) : List String → List String → Option (String × String)
  | [], _ => none
  | p :: rest, seen =>
    match r.owner? p with
    | some o => if o ≠ name then some (p, o) else if seen.contains p then some (p, name)
      else r.conflict? name rest (p :: seen)
    | none => if seen.contains p then some (p, name) else r.conflict? name rest (p :: seen)

/-- Registers a function on the registry alone, the owners of parameters found in the parameter
lists: the name must not be empty, the parameters must be some and must not belong to another
function or repeat. A registered name is replaced in its place, a new one goes last. -/
def register (r : Registry) (name : String) (parameters : List String) (body : Body)
    (definitions : List Parameter) : Outcome Registry :=
  if name.isEmpty then .error .unnamedFunction
  else if parameters.isEmpty then .error (.noParameters name)
  else
    match r.conflict? name parameters [] with
    | some (p, o) => .error (.parameterTaken p o)
    | none =>
      let e : Entry := { name, parameters, body, definitions }
      if r.isRegistered name then
        .ok ⟨r.entries.map fun x => if x.name == name then e else x⟩
      else .ok ⟨r.entries ++ [e]⟩

/-- Puts a function in the registry: in the place of the function of its name, or last. -/
def place (r : Registry) (e : Entry) : Registry :=
  if r.isRegistered e.name then ⟨r.entries.map fun x => if x.name == e.name then e else x⟩
  else ⟨r.entries ++ [e]⟩

end Registry

/-- The registered functions with the index of parameter owners: each parameter name points to
the function that has it. -/
structure Functions where
  registry : Registry := {}
  /-- Parameter name → the function that has it; the order of the pairs means nothing. -/
  owners : List (String × String) := []
  deriving Inhabited

/-- A change of the registered functions: it may fail, and a failure keeps the state reached. -/
abbrev FunctionsM := EStateM FilterError Functions

namespace Functions

/-- The first parameter that cannot be given to the function `name`, with the function that
holds it: the index gives it to another function, or the list names it twice. -/
def conflict? (fs : Functions) (name : String) : List String → List String → Option (String × String)
  | [], _ => none
  | p :: rest, seen =>
    match (Keyed.get? p fs.owners).filter (· != name) with
    | some o => some (p, o)
    | none => if seen.contains p then some (p, name) else fs.conflict? name rest (p :: seen)

/-- Registers a function. The name must not be empty and the parameters must be some, none
held by another function in the index or named twice; all of it is checked before the first
change. Then the index forgets the function's former parameters and takes the new ones, and the
function replaces the one of its name in place or goes last. -/
def register (name : String) (parameters : List String) (body : Body)
    (definitions : List Parameter) : FunctionsM Unit := do
  if name.isEmpty then throw .unnamedFunction
  if parameters.isEmpty then throw (.noParameters name)
  if let some (p, o) := (← get).conflict? name parameters [] then throw (.parameterTaken p o)
  modify fun fs => { fs with owners := fs.owners.filter (·.2 != name) }
  modify fun fs => { fs with owners := parameters.foldl (fun m p => Keyed.put p name m) fs.owners }
  modify fun fs => { fs with registry := fs.registry.place { name, parameters, body, definitions } }

end Functions

end QueryFilters
