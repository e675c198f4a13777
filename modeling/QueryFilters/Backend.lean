import QueryFilters.Target
import QueryFilters.Filter.Basic

/-!
# Backends

A backend applies conditions and memberships to the targets it accepts. The SQL backend
appends ` AND column op :placeholder` to SQL text, opening a ` WHERE 1` clause first unless the
text mentions `where` in any case; values are never written into the text, but bound through
the prepared values. The list backend appends `[column, op, value]` to a list of conditions.

Backends are kept by priority, highest first and equal priorities in the order added; a
target goes to the first backend that accepts it. The same ranking orders any items.
-/

namespace QueryFilters

/-- The backends. -/
inductive Backend where
  | sql
  | conditions
  deriving DecidableEq, Repr, Inhabited

/-- Prepared values: placeholder names and the values bound to them, in order of first
binding. -/
abbrev Prepared := List (String × Json)

namespace Backend

/-- The name of a backend. -/
def name : Backend → String
  | .sql => "sql"
  | .conditions => "array"

/-- The backend accepts the target. -/
def supports : Backend → Target → Bool
  | .sql, .sql _ | .sql, .staticSql _ => true
  | .conditions, .conditions _ => true
  | _, _ => false

/-- The needle occurs in the text. -/
def occursIn (needle : List Char) : List Char → Bool
  | [] => needle.isEmpty
  | c :: rest => needle.isPrefixOf (c :: rest) || occursIn needle rest

/-- SQL text ready for one more `AND` condition: unchanged if it mentions `where` in any
case, else with ` WHERE 1` appended. Folding ASCII letters decides like full lower-casing,
since no other character lowers to one of these letters. -/
def withWhere (sql : String) : String :=
  if occursIn "where".toList sql.toLower.toList then sql else sql ++ " WHERE 1"

/-- The SQL text of a target, or the SQL backend's refusal. -/
def sqlText (t : Target) : Outcome String :=
  match t.sqlText? with
  | some s => .ok s
  | none => .error (.sqlTextExpected t.typeName)

/-- The conditions of a target, or the list backend's refusal. -/
def conditionList (t : Target) : Outcome (List Json) :=
  match t.conditions? with
  | some items => .ok items
  | none => .error (.conditionsExpected t.typeName)

/-- Applies a condition `column op value` with its placeholder. -/
def applyComparison (b : Backend) (column : String) (op : Operator) (value : Value)
    (placeholder : String) (t : Target) : Outcome Target :=
  match b with
  | .sql => do
    let s ← sqlText t
    pure (.sql (withWhere s ++ " AND " ++ column ++ " " ++ op.symbol ++ " :" ++ placeholder))
  | .conditions => do
    let items ← conditionList t
    pure (.conditions (items ++ [.arr [.str column, .str op.symbol, value.rawOrNull]]))

/-- Applies a membership `column IN items` whose members bind `placeholder_0`,
`placeholder_1`, …; the SQL backend refuses an empty membership before looking at the
target. -/
def applyMembership (b : Backend) (column : String) (items : List Json) (placeholder : String)
    (t : Target) : Outcome Target :=
  match b with
  | .sql => do
    if items.isEmpty then throw (.emptyMembership column)
    let s ← sqlText t
    let marks := (List.range items.length).map fun i => ":" ++ placeholder ++ "_" ++ toString i
    pure (.sql (withWhere s ++ " AND " ++ column ++ " IN (" ++ ", ".intercalate marks ++ ")"))
  | .conditions => do
    let conds ← conditionList t
    pure (.conditions (conds ++ [.arr [.str column, .str "in", .arr items]]))

/-- Applies a condition or membership filter; other filters leave the target to the caller. -/
def applyLeaf (b : Backend) (f : Filter) (t : Target) : Outcome (Option Target) :=
  match f with
  | .comparison c op v _ => some <$> b.applyComparison c op v f.placeholder t
  | .membership c items _ => some <$> b.applyMembership c items f.placeholder t
  | .invocation .. | .argument .. => pure none

end Backend

/-- The values a condition or membership binds: the condition's value under its placeholder,
each member under its own. Other filters bind nothing. -/
def Filter.prepared (f : Filter) : Prepared :=
  match f with
  | .comparison _ _ v _ => [(f.placeholder, v.rawOrNull)]
  | .membership _ items _ => items.zipIdx.map fun (j, i) => (f.memberPlaceholder i, j)
  | .invocation .. | .argument .. => []

/-- Items with priorities, highest first; equal priorities keep the order they were added in.
The engine ranks its backends, so those are the items unless others are named. -/
structure Ranked (α : Type := Backend) where
  entries : List (Int × α) := []
  deriving Inhabited

namespace Ranked
variable {α : Type}

/-- Adds an item before the first one of lower priority. -/
def add (r : Ranked α) (a : α) (priority : Int) : Ranked α :=
  let higher := r.entries.takeWhile fun e => priority ≤ e.1
  let lower := r.entries.dropWhile fun e => priority ≤ e.1
  ⟨higher ++ (priority, a) :: lower⟩

/-- The items, in the order tried. -/
def items (r : Ranked α) : List α := r.entries.map (·.2)

/-- The number of items. -/
def size (r : Ranked α) : Nat := r.entries.length

/-- The first backend that accepts the target. -/
def find (r : Ranked) (t : Target) : Outcome Backend :=
  match r.items.find? (·.supports t) with
  | some b => .ok b
  | none => .error (.unsupportedTarget t.typeName)

end Ranked

end QueryFilters
