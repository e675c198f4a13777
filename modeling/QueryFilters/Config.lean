import QueryFilters.Engine
import QueryFilters.Json.Skim

/-!
# Configuration

A configuration is a JSON object with an optional `function_column` (text, `fun` when absent)
and optional `functions`: declarations, each an object `{"name": …, "parameters": [...]}` or a
pair `[name, parameters]`, whose parameters are descriptors. Other members are ignored; a
member of these names given twice refuses the text. The other members of a declaration object
are only skimmed (`Json.Plan`): they need JSON grammar, but not numbers in range, paired
surrogates or nesting within the limit. Everything else is read in full.

A configuration is loaded from an optional file, and an environment setting of the function
column that is not blank replaces the file's.
-/

namespace QueryFilters

/-- A function declared by name and parameter descriptors. -/
structure Declaration where
  name : String
  parameters : List Descriptor
  deriving Inhabited

/-- The function column and the declared functions, in order. -/
structure Config where
  functionColumn : String := "fun"
  functions : List Declaration := []
  deriving Inhabited

namespace Config

/-- The members of an object whose key is one of `known`, none of them repeated. -/
def knownMembers (known : List String) (members : List (String × Json)) :
    Option (List (String × Json)) :=
  let kept := members.filter fun m => known.contains m.1
  if (kept.map (·.1)).eraseDups.length = kept.length then some kept else none

/-- Reads a declaration: an object with a text `name` and an array of descriptors
`parameters`, or a pair of them. -/
def declarationOf? (j : Json) : Option Declaration := do
  let (name, params) ← match j with
    | .obj members => do
      let kept ← knownMembers ["name", "parameters"] members
      pure (Keyed.get? "name" kept, Keyed.get? "parameters" kept)
    | .arr [n, p] => pure (some n, some p)
    | _ => none
  match name, params with
  | some (.str n), some (.arr ps) => do
    let ds ← ps.mapM Descriptor.ofJson?
    pure ⟨n, ds⟩
  | _, _ => none

/-- Reads a configuration from a JSON value as written, repeated keys included. -/
def ofJson? (j : Json) : Option Config := do
  let members ← j.asObject?
  let kept ← knownMembers ["function_column", "functions"] members
  let column ← match Keyed.get? "function_column" kept with
    | none => pure "fun"
    | some (.str s) => pure s
    | some _ => none
  let functions ← match Keyed.get? "functions" kept with
    | none => pure []
    | some (.arr ds) => ds.mapM declarationOf?
    | some _ => none
  pure ⟨column, functions⟩

/-- How a configuration text is read: the members of a declaration object other than `name`
and `parameters` are skimmed, everything else is read in full. -/
def plan : Json.Plan :=
  .members [("functions", .items (.members [("name", .whole), ("parameters", .whole)] .skim))] .whole

/-- Reads a configuration text. -/
def ofText? (text : String) : Option Config :=
  (Json.readWith plan text).bind ofJson?

/-- The message of a configuration text that cannot be read. -/
def invalidMessage : String := "Invalid apifilter config"

/-- What the configuration file gave. -/
inductive Source where
  /-- No file is named. -/
  | none
  /-- A file is named but cannot be read. -/
  | unreadable
  /-- The text of the named file. -/
  | text (content : String)

/-- Loads a configuration: the defaults without a file, the file's configuration otherwise,
then the environment's function column if it is not blank. A failure names the file's path. -/
def load (source : Source) (path : String) (envColumn : Option String) : Except String Config := do
  let c ← match source with
    | .none => pure {}
    | .unreadable => throw ("Failed to read config file: " ++ path)
    | .text t =>
      match ofText? t with
      | some c => pure c
      | none => throw ("Failed to parse config file: " ++ path)
  match envColumn with
  | some col => if (Text.trim col).isEmpty then pure c else pure { c with functionColumn := col }
  | none => pure c

end Config

/-- An engine with the configuration's function column and its functions declared in order;
the first failure fails it. -/
def Engine.ofConfig (c : Config) : Outcome Engine :=
  match (c.functions.forM fun d => Engine.declare d.name d.parameters).run
      (Engine.withFunctionColumn c.functionColumn) with
  | .ok _ e => .ok e
  | .error err _ => .error err

end QueryFilters
