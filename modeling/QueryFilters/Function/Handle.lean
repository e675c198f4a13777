import QueryFilters.Function.Parameter
import QueryFilters.Text.Debug

/-!
# Function handles

A function is a name and a body. The body of a declared function builds ordinary filters from
its parameter definitions and applies them; any other body is one the host wrote, which the
engine keeps in the order the host registered them (`Engine.bodies`).
-/

namespace QueryFilters

/-- What a function does with its arguments and the target it is applied to. -/
inductive Body where
  /-- Builds one filter per parameter definition, from the argument or the default, and
  applies them in order. -/
  | declared (definitions : List Parameter)
  /-- The `key`-th body the host registered. -/
  | host (key : Nat)
  deriving BEq, Inhabited

/-- A function as a value: its name and its body. -/
structure Handle where
  name : String
  body : Body
  deriving Inhabited

/-- Two function values are the same function when their names agree. -/
instance : BEq Handle where
  beq a b := a.name == b.name

/-- The debug text of a function value, naming it. -/
def Handle.debugText (h : Handle) : String :=
  "FunctionHandle \x7b name: " ++ Text.debugQuote h.name ++ " \x7d"

end QueryFilters
