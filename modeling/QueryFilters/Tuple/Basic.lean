import QueryFilters.Tuple.Split
import QueryFilters.Decimal.Read
import QueryFilters.Json.Basic

/-!
# Tuples

A tuple is a text `(a, "b, c", [1; 2])`: tokens separated by commas between parentheses. Read
as columns, a token loses its surrounding quotes. Read as a value, a quoted token is a string,
a bracketed token is a list of values separated by semicolons, and any other token is coerced:
an integer, a decimal number with a point, or else the text itself.

A column can carry a filter: `age[gt]` is the column `age` with the filter `gt`.
-/

namespace QueryFilters

namespace Tuple

/-- The characters are at least two and stand between `(` and `)`. -/
def isParenthesized (cs : List Char) : Bool :=
  2 ≤ cs.length && cs.head? == some '(' && cs.getLast? == some ')'

/-- The text is a tuple: after trimming, it stands between `(` and `)`. -/
def isTupleText (s : String) : Bool :=
  isParenthesized (Text.trimChars s.toList)

/-- A JSON value is a tuple text. -/
def isTupleValue : Json → Bool
  | .str s => isTupleText s
  | _ => false

/-- The token stands between two quotes. -/
def isQuoted (cs : List Char) : Bool :=
  2 ≤ cs.length && cs.head? == some '"' && cs.getLast? == some '"'

/-- The token stands between `[` and `]`. -/
def isBracketed (cs : List Char) : Bool :=
  2 ≤ cs.length && cs.head? == some '[' && cs.getLast? == some ']'

/-- The characters between the first and the last. -/
def inner (cs : List Char) : List Char :=
  (cs.drop 1).dropLast

/-- A token without its surrounding quotes, if it has them. -/
def unquote (cs : List Char) : List Char :=
  if isQuoted cs then inner cs else cs

/-- Coerces an unquoted token: a signed 64-bit integer, else a text with a point that reads
as a finite decimal number, else the text itself. -/
def coerce (token : String) : Json :=
  match Decimal.readInt64? token with
  | some n => .int n
  | none =>
    if token.toList.contains '.' then
      match Decimal.readFloat? token with
      | some f => if f.isFinite then .ofFloat f else .str token
      | none => .str token
    else .str token

theorem length_inner_lt (cs : List Char) (h : 2 ≤ cs.length) : (inner cs).length < cs.length := by
  simp only [inner, List.length_dropLast, List.length_drop]
  omega

set_option linter.unusedVariables false in
/-- The value of a token: a quoted token is its text, a bracketed token the list of the
values of its items, any other token coerced. -/
def valueOf (cs : List Char) : Outcome Json :=
  if isQuoted cs then .ok (.str (String.ofList (inner cs)))
  else if hb : isBracketed cs then
    if (Text.trimChars (inner cs)).isEmpty then .ok (.arr [])
    else
      match hs : split ';' (inner cs) with
      | .error fault => .error (.malformedTuple (String.ofList cs) fault)
      | .ok items =>
        (items.attach.mapM fun (x : {x // x ∈ items}) => valueOf x.1).map .arr
  else .ok (coerce (String.ofList cs))
termination_by cs.length
decreasing_by
  have hlen : 2 ≤ cs.length := by
    simp only [isBracketed, Bool.and_eq_true, decide_eq_true_eq] at hb
    exact hb.1.1
  have := length_le_of_split hs x.1 x.2
  have := length_inner_lt cs hlen
  omega

end Tuple

/-- The tokens of a tuple, trimmed, in order; there is at least one. -/
structure Tuple where
  tokens : List String
  deriving DecidableEq, Repr

namespace Tuple

/-- Reads a tuple text. The message of a failure quotes the text as given. -/
def parse (raw : String) : Outcome Tuple :=
  let t := Text.trimChars raw.toList
  if !isParenthesized t then .error (.malformedTuple raw .unparenthesized)
  else if (Text.trimChars (inner t)).isEmpty then .error (.malformedTuple raw .empty)
  else
    match split ',' (inner t) with
    | .ok tokens => .ok ⟨tokens.map String.ofList⟩
    | .error fault => .error (.malformedTuple raw fault)

/-- Reads a tuple text that must have `expected` tokens. -/
def parseCount (raw : String) (expected : Nat) : Outcome Tuple := do
  let t ← parse raw
  if t.tokens.length = expected then pure t
  else throw (.tupleCount expected t.tokens.length)

/-- The number of tokens. -/
def size (t : Tuple) : Nat := t.tokens.length

/-- The tokens read as column names: surrounding quotes dropped. -/
def columns (t : Tuple) : List String :=
  t.tokens.map fun s => String.ofList (unquote s.toList)

/-- The first token read as a column name. -/
def firstColumn? (t : Tuple) : Option String :=
  t.columns.head?

/-- The tokens read as values. -/
def values (t : Tuple) : Outcome (List Json) :=
  t.tokens.mapM fun s => valueOf s.toList

/-- A filter word: ASCII letters and underscores. -/
def isFilterChar (c : Char) : Bool :=
  c.isAlpha || c = '_'

/-- Splits `name[filter]` at its end into the name and the filter, for a non-empty filter of
letters and underscores and a non-empty name on one line. -/
def filterSuffix? (cs : List Char) : Option (List Char × List Char) :=
  match cs.reverse with
  | ']' :: body =>
    let filter := body.takeWhile isFilterChar
    match body.dropWhile isFilterChar with
    | '[' :: name =>
      if !filter.isEmpty && !name.isEmpty && !name.contains '\n' then
        some (name.reverse, filter.reverse)
      else none
    | _ => none
  | _ => none

/-- A column and the filter it carries, `age[gt]` giving `age` and `gt`; the text is trimmed
first and the name after. -/
def splitColumn (raw : String) : String × Option String :=
  let t := Text.trimChars raw.toList
  match filterSuffix? t with
  | some (name, filter) => (String.ofList (Text.trimChars name), some (String.ofList filter))
  | none => (String.ofList t, none)

end Tuple

end QueryFilters
