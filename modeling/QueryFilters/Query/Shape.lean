import QueryFilters.Query.Pass

/-!
# Ordinary query entries

An entry that invokes no function is read by its shape:

* a tuple column with a tuple value: one filter per column, each column possibly carrying its
  filter (`(age[gt], name)`);
* a tuple column with an object value: per filter word of the object, a tuple of values, one
  filter per column; IN is not allowed, nor filters in the columns;
* a tuple on one side only: refused;
* a column with an object value: one filter per filter word of the object;
* a column with any other value: the column's own filter word, else IN for an array and
  equality for anything else.
-/

namespace QueryFilters

/-- The shapes of ordinary query entries, in the order tried. -/
inductive Shape where
  | tupleColumnTupleValue
  | tupleColumnObjectValue
  | tupleMismatch
  | columnObjectValue
  | columnValue
  deriving DecidableEq, Repr, Inhabited

namespace Shape

/-- The order in which shapes are tried. -/
def order : List Shape :=
  [.tupleColumnTupleValue, .tupleColumnObjectValue, .tupleMismatch, .columnObjectValue,
    .columnValue]

/-- The entry has this shape. -/
def supports (sh : Shape) (column : String) (value : Json) : Bool :=
  match sh with
  | .tupleColumnTupleValue => Tuple.isTupleText column && Tuple.isTupleValue value
  | .tupleColumnObjectValue => Tuple.isTupleText column && value.isObject
  | .tupleMismatch => Tuple.isTupleText column || Tuple.isTupleValue value
  | .columnObjectValue => !Tuple.isTupleText column && value.isObject
  | .columnValue => !Tuple.isTupleText column && !value.isObject && !Tuple.isTupleValue value

/-- The filter of a column that may carry its filter word: the word it carries, else IN for an
array and equality for anything else. -/
def columnFilter (column : String) (value : Json) : Outcome Filter :=
  let (name, word?) := Tuple.splitColumn column
  Filter.create name (word?.getD (if value.isArray then "in" else "eq")) (.raw value)

/-- The filters of one filter word of an object value over a tuple of columns. -/
def wordFilters (column : String) (columns : List String) (word : String) (tupleValue : Json) :
    Outcome (List Filter) := do
  if word.toLower = "in" then throw .tupleInMembership
  let raw := (tupleValue.asString?).getD ""
  if !Tuple.isTupleText raw then throw (.tupleAndScalar column tupleValue.display)
  let t ← Tuple.parseCount raw columns.length
  let vals ← t.values
  (columns.zip vals).mapM fun (c, v) => Filter.create c word (.raw v)

/-- Reads an entry of this shape. A shape that needs an object value reads another value as
nothing. -/
def parse (sh : Shape) (column : String) (value : Json) : Outcome (List Filter) :=
  match sh with
  | .tupleColumnTupleValue => do
    let columns := (← Tuple.parse column).columns
    let t ← Tuple.parseCount ((value.asString?).getD "") columns.length
    let vals ← t.values
    (columns.zip vals).mapM fun (c, v) => columnFilter c v
  | .tupleColumnObjectValue =>
    match value with
    | .obj entries => do
      let columns := (← Tuple.parse column).columns
      if columns.any fun c => (Tuple.splitColumn c).2.isSome then throw .filterInColumnsAndValues
      let groups ← entries.mapM fun (w, v) => wordFilters column columns w v
      pure groups.flatten
    | _ => pure []
  | .tupleMismatch => throw (.tupleAndScalar column value.display)
  | .columnObjectValue =>
    match value with
    | .obj entries => entries.mapM fun (w, v) => Filter.create column w (.raw v)
    | _ => pure []
  | .columnValue => do
    let f ← columnFilter column value
    pure [f]

end Shape

end QueryFilters
