import QueryFilters.Backend
import QueryFilters.Function.Registry

/-!
# Applying filters

Filters are applied to a target one after another, each through the first backend that
accepts the target as it stands at that point. A condition or membership builds a new target;
an argument leaves it as it is; an invocation runs its function's body with the arguments
found among the filters, one per parameter. A body the host wrote runs on the context of the
call (`FunctionContext`): the backends, the registered functions and the filters of the pass.

A declared function's body builds one filter per parameter definition, from the default
(placeholder `name_fun`) or from the argument of that name, and applies them. Those filters are
conditions, memberships or arguments: an invocation needs a function value, and arguments and
defaults are JSON.

Application reports `none` when no filter built a new target, so that callers can tell an
untouched target from a rebuilt one.
-/

namespace QueryFilters

/-- The arguments of an invoked function, in its parameter order: the first argument filter
of each parameter. -/
def argumentsFor (registry : Registry) (fs : List Filter) (function : String) :
    Outcome (List (String × Value)) := do
  let ps ← registry.parametersFor function
  ps.mapM fun p => do
    let v ← Filter.findArgument fs p
    pure (p, v)

/-- The filters of a declared function's definitions, in order: a default gives the filter of
its definition with the placeholder `name_fun`; otherwise the first argument of the
definition's name gives the value, and a missing one is refused. -/
def filtersFromParameters (args : List (String × Value)) (defs : List Parameter) :
    Outcome (List Filter) :=
  defs.mapM fun d =>
    match d.default with
    | some dv => do
      let f ← Filter.create d.column d.filter (.raw dv)
      pure (f.setFullTitle d.titleForDefault)
    | none =>
      match args.find? (·.1 == d.name) with
      | some (_, v) => Filter.create d.column d.filter v
      | none => .error (.requiredParameter d.name)

/-- Applies conditions, memberships and arguments in order, each through the backend that
accepts the target at that point; `none` when none built a new target. -/
def applyLeaves (backends : Ranked) : List Filter → Target → Outcome (Option Target)
  | [], _ => pure none
  | f :: rest, t => do
    let b ← backends.find t
    let r ← b.applyLeaf f t
    let more ← applyLeaves backends rest (r.getD t)
    pure (more <|> r)

/-- What a body the host wrote reaches while it runs: the backends, the registered functions and
the filters of the pass its invocation was read in. -/
structure FunctionContext where
  backends : Ranked
  registry : Registry
  filters : List Filter

/-- A body the host wrote: it runs on the context of the call, the target and the arguments in
parameter order, and gives `none` when it hands back the target it was given. -/
def HostBody : Type := FunctionContext → Target → List (String × Value) → Outcome (Option Target)

/-- The body that hands back the target it was given. -/
def HostBody.keep : HostBody := fun _ _ _ => pure none

/-- A key the engine never gave runs the body that hands the target back. -/
instance : Inhabited HostBody := ⟨HostBody.keep⟩

/-- Runs a function body on a target with the function's arguments; `bodies` are the bodies the
host registered, in order. -/
def Body.run (bodies : List HostBody) (context : FunctionContext) (args : List (String × Value))
    (t : Target) : Body → Outcome (Option Target)
  | .declared defs => do
    let fs ← filtersFromParameters args defs
    applyLeaves context.backends fs t
  | .host key => bodies.getD key default context t args

/-- Applies one filter of a list to a target; the list supplies an invocation's arguments.
The backend is found first, whatever the filter. -/
def applyOne (bodies : List HostBody) (backends : Ranked) (registry : Registry) (fs : List Filter)
    (f : Filter) (t : Target) : Outcome (Option Target) := do
  let b ← backends.find t
  match f with
  | .invocation c h => do
    let args ← argumentsFor registry fs c
    h.body.run bodies ⟨backends, registry, fs⟩ args t
  | _ => b.applyLeaf f t

/-- Applies the filters of a list in order; `none` when none built a new target. -/
def applyEach (bodies : List HostBody) (backends : Ranked) (registry : Registry) (fs : List Filter) :
    List Filter → Target → Outcome (Option Target)
  | [], _ => pure none
  | f :: rest, t => do
    let r ← applyOne bodies backends registry fs f t
    let more ← applyEach bodies backends registry fs rest (r.getD t)
    pure (more <|> r)

/-- The prepared values of a function from its arguments and definitions: without
definitions each argument binds `name_fun`; otherwise the values of the filters its
definitions build. -/
def preparedForFunction (args : List (String × Value)) (defs : List Parameter) :
    Outcome Prepared :=
  if defs.isEmpty then pure (Keyed.ofList (args.map fun (p, v) => (p ++ "_fun", v.rawOrNull)))
  else do
    let fs ← filtersFromParameters args defs
    pure (fs.foldl (fun acc f => Keyed.merge acc f.prepared) [])

/-- The prepared values of one filter of a list: an invocation's are its function's, others
their own. The backend is found first, whatever the filter. -/
def preparedOne (backends : Ranked) (registry : Registry) (fs : List Filter) (f : Filter)
    (t : Target) : Outcome Prepared := do
  let _ ← backends.find t
  match f with
  | .invocation c _ => do
    let args ← argumentsFor registry fs c
    let defs ← registry.definitionsFor c
    preparedForFunction args defs
  | _ => pure f.prepared

/-- The prepared values of all filters of a list, merged in order. -/
def preparedAll (backends : Ranked) (registry : Registry) (fs : List Filter) (t : Target) :
    Outcome Prepared :=
  fs.foldlM (fun acc f => do
    let p ← preparedOne backends registry fs f t
    pure (Keyed.merge acc p)) []

/-- Runs a registered function on a target with its arguments from the filters: exactly one
filter per parameter must stand on the parameters' columns, each an argument. -/
def Registry.execute (registry : Registry) (bodies : List HostBody) (backends : Ranked) (name : String)
    (fs : List Filter) (t : Target) : Outcome Target := do
  let e ← registry.get name
  let matched := Filter.onColumns fs e.parameters
  if matched.length ≠ e.parameters.length then
    throw (.argumentCount matched.length e.parameters.length)
  let args ← e.parameters.mapM fun p => do
    let v ← Filter.findArgument matched p
    pure (p, v)
  let r ← e.body.run bodies ⟨backends, registry, fs⟩ args t
  pure (r.getD t)

end QueryFilters
