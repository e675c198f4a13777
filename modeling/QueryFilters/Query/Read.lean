import QueryFilters.Query.Invocation
import QueryFilters.Query.Shape

/-!
# Reading a query into filters

Each query entry, in the query's order, is read by the first reader that accepts it: function
recognition first, then the ordinary shapes. The filters of all entries, in order, are the
query's filters; the first failure fails the whole query.
-/

namespace QueryFilters

/-- The readers of query entries. -/
inductive Reader where
  /-- Function recognition. -/
  | invocation
  /-- An ordinary shape. -/
  | shape (sh : Shape)
  deriving DecidableEq, Repr, Inhabited

namespace Reader

/-- The order in which readers are tried. -/
def order : List Reader :=
  .invocation :: Shape.order.map .shape

/-- The reader accepts the entry. -/
def supports (r : Reader) (sc : Scope) (s : PassState) (column : String) (value : Json) :
    Outcome Bool :=
  match r with
  | .invocation => Invocation.supports sc s column value
  | .shape sh => .ok (sh.supports column value)

/-- Reads the entry. -/
def parse (r : Reader) (sc : Scope) (column : String) (value : Json) : PassM (List Filter) :=
  match r with
  | .invocation => Invocation.parse sc column value
  | .shape sh => PassM.lift (sh.parse column value)

end Reader

/-- Reads one entry with the first reader that accepts it; nothing if none does. -/
def readEntry (sc : Scope) (column : String) (value : Json) : PassM (List Filter) := do
  let s ← get
  match ← PassM.lift (Reader.order.findM? fun r => r.supports sc s column value) with
  | some r => r.parse sc column value
  | none => pure []

/-- Reads entries in order, collecting their filters. -/
def readEntries (sc : Scope) : Query → PassM (List Filter)
  | [] => pure []
  | (column, value) :: rest => do
    let fs ← readEntry sc column value
    let more ← readEntries sc rest
    pure (fs ++ more)

/-- Reads a query into filters, in one fresh pass. -/
def Query.read (registry : Registry) (functionColumn : String) (q : Query) :
    Outcome (List Filter) :=
  match (readEntries ⟨some q, registry, functionColumn⟩ q).run {} with
  | .ok fs _ => .ok fs
  | .error e _ => .error e

end QueryFilters
