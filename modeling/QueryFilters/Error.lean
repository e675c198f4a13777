/-!
# Failures

Every failure of reading a query, resolving its functions or applying its filters is a
`FilterError`: one constructor per cause, one kind per constructor, and the wording in
`FilterError.message`.
-/

namespace QueryFilters

/-- Why a tuple or list text cannot be split into tokens. -/
inductive TupleFault where
  /-- The text does not start with `(` and end with `)`. -/
  | unparenthesized
  /-- Only blanks stand between the parentheses. -/
  | empty
  /-- A quote is still open at the end. -/
  | unterminatedQuote
  /-- A bracket is still open at the end. -/
  | unterminatedList
  /-- A `]` closes no bracket. -/
  | unexpectedClose
  deriving DecidableEq, Repr

/-- The words of a tuple fault in a message. -/
def TupleFault.reason : TupleFault → String
  | .unparenthesized => "it must be enclosed in parentheses"
  | .empty => "it must not be empty"
  | .unterminatedQuote => "unterminated quote"
  | .unterminatedList => "unterminated list"
  | .unexpectedClose => "unexpected ]"

/-- The category of a failure. -/
inductive ErrorKind where
  | grammar
  | unknownFilter
  | invalidValue
  | functionDeclaration
  | functionInvocation
  | backendDispatch
  deriving DecidableEq, Repr

/-- The name of a category. -/
def ErrorKind.name : ErrorKind → String
  | .grammar => "grammar"
  | .unknownFilter => "unknown_filter"
  | .invalidValue => "invalid_value"
  | .functionDeclaration => "function_declaration"
  | .functionInvocation => "function_invocation"
  | .backendDispatch => "backend_dispatch"

/-- A failure, by its cause. Texts that a message quotes are kept as they are shown. -/
inductive FilterError where
  /-- A tuple of values has another number of tokens than its tuple of columns. -/
  | tupleCount (columns values : Nat)
  /-- A tuple met a value that is not a tuple. -/
  | tupleAndScalar (column value : String)
  /-- A tuple column with an embedded filter was given filters in its value too. -/
  | filterInColumnsAndValues
  /-- A tuple column was given an IN filter. -/
  | tupleInMembership
  /-- A tuple or list text cannot be split. -/
  | malformedTuple (text : String) (fault : TupleFault)
  /-- A filter word that the library does not know. -/
  | unknownFilter (filter column value : String)
  /-- An IN filter got a value that is neither a list nor a scalar. -/
  | membershipValue (value : String)
  /-- A function filter got a value that is not a function. -/
  | notCallable (value : String)
  /-- A function was registered with an empty name. -/
  | unnamedFunction
  /-- A function was registered without parameters. -/
  | noParameters (function : String)
  /-- A parameter name belongs to a function already (possibly the same one, twice). -/
  | parameterTaken (parameter owner : String)
  /-- No function of this name is registered. -/
  | notRegistered (function : String)
  /-- An explicit invocation lacks a parameter. -/
  | missingParameter (parameter function : String)
  /-- A parameter descriptor list has too few or too many items. -/
  | definitionLength (count : Nat)
  /-- A parameter descriptor list does not start with a name. -/
  | definitionName
  /-- A filter or column item of a parameter descriptor is not text; the item is shown as
  JSON. -/
  | definitionItem (parameter item : String)
  /-- The reserved column does not hold a list of function names. -/
  | listNotFunctions (value : String)
  /-- A function of one parameter was given several values. -/
  | singleValueExpected
  /-- A function of several parameters was given something other than a tuple. -/
  | tupleValueExpected
  /-- An invocation by a tuple column was given something other than a tuple. -/
  | tupleInvocationValue
  /-- A function is invoked twice in one query. -/
  | multipleCall
  /-- Several functions fit the same parameters. -/
  | ambiguous (functions : List String)
  /-- Function recognition ran without a query. -/
  | detached
  /-- A function found another number of argument filters than it has parameters. -/
  | argumentCount (found expected : Nat)
  /-- No argument filter for a parameter. -/
  | noArgument (parameter : String)
  /-- A parameter without default got no value. -/
  | requiredParameter (parameter : String)
  /-- The query does not invoke the function. -/
  | notInQuery (function : String)
  /-- A body the host wrote failed, with its own message. -/
  | bodyFailed (message : String)
  /-- No backend accepts the target. -/
  | unsupportedTarget (typeName : String)
  /-- The SQL backend got a target that is not SQL text. -/
  | sqlTextExpected (typeName : String)
  /-- The SQL backend got an IN filter without values. -/
  | emptyMembership (column : String)
  /-- The list backend got a target that is not a list of conditions. -/
  | conditionsExpected (typeName : String)
  deriving DecidableEq, Repr

namespace FilterError

/-- The category of a failure. -/
def kind : FilterError → ErrorKind
  | .tupleCount .. | .tupleAndScalar .. | .filterInColumnsAndValues | .tupleInMembership
  | .malformedTuple .. => .grammar
  | .unknownFilter .. => .unknownFilter
  | .membershipValue _ | .notCallable _ => .invalidValue
  | .unnamedFunction | .noParameters _ | .parameterTaken .. | .notRegistered _
  | .missingParameter .. | .definitionLength _ | .definitionName | .definitionItem ..
  | .listNotFunctions _ | .singleValueExpected | .tupleValueExpected
  | .tupleInvocationValue => .functionDeclaration
  | .multipleCall | .ambiguous _ | .detached | .argumentCount .. | .noArgument _
  | .requiredParameter _ | .notInQuery _ | .bodyFailed _ => .functionInvocation
  | .unsupportedTarget _ | .sqlTextExpected _ | .emptyMembership _
  | .conditionsExpected _ => .backendDispatch

/-- The message of a failure. -/
def message : FilterError → String
  | .tupleCount c v =>
    s!"Number of given columns ({c}) and values ({v}) in tuple are not same."
  | .tupleAndScalar c v =>
    s!"Invalid combination of a tuple and a scalar. Column {c} and value {v}."
  | .filterInColumnsAndValues =>
    "Filters can be specified either in columns or in values - not in both"
  | .tupleInMembership => "Tuples are not allowed in IN filter."
  | .malformedTuple t f => "Invalid tuple " ++ t ++ ": " ++ f.reason ++ "."
  | .unknownFilter f c v =>
    "Filter \"" ++ f ++ "\" is not implemented. For column \"" ++ c ++ "\" with value \"" ++
      v ++ "\"."
  | .membershipValue v =>
    "Value for IN filter must be array or scalar. \"" ++ v ++ "\" given."
  | .notCallable v => "Value for filter function must be callable. \"" ++ v ++ "\" given."
  | .unnamedFunction => "Function name must be defined."
  | .noParameters f => "Function \"" ++ f ++ "\" must have some parameters."
  | .parameterTaken p o =>
    "Parameter \"" ++ p ++ "\" is already used by function \"" ++ o ++ "\"."
  | .notRegistered f => "Function \"" ++ f ++ "\" is not registered."
  | .missingParameter p f => s!"There is a missing parameter {p} for a function {f}."
  | .definitionLength n => s!"Parameter definition must have 1 to 4 items, {n} given."
  | .definitionName => "Parameter name must be a string."
  | .definitionItem p i => "Parameter \"" ++ p ++ "\" has an invalid definition item " ++ i ++ "."
  | .listNotFunctions v =>
    "Explicit function definition by values must be an array of functions. " ++ v ++ " given."
  | .singleValueExpected => "A single parameter function definition must have a single value."
  | .tupleValueExpected => "Direct function definition must have a tuple value."
  | .tupleInvocationValue => "Function definition by a tuple must have a tuple value."
  | .multipleCall => "It is not allowed to call one function multiple times."
  | .ambiguous fs =>
    "There is not enough information to decide which function to use: " ++
      ", ".intercalate fs ++ "."
  | .detached => "Query parameters must be set to FunctionParser."
  | .argumentCount m n => s!"There are not filters ({m}) for parameters ({n})."
  | .noArgument p => "There is no function parameter \"" ++ p ++ "\"."
  | .requiredParameter p => "Parameter \"" ++ p ++ "\" is required and must have a value."
  | .notInQuery f => "Function \"" ++ f ++ "\" was not given in the query."
  | .bodyFailed m => m
  | .unsupportedTarget t => "Unsupported filterable of type \"" ++ t ++ "\"."
  | .sqlTextExpected t => "Applicator sql failed: expected SQL string, got " ++ t
  | .emptyMembership c => "Applicator sql failed: IN filter on column \"" ++ c ++ "\" has no values"
  | .conditionsExpected t => "Applicator array failed: expected a list of conditions, got " ++ t

end FilterError

/-- A computation of the library that may fail. -/
abbrev Outcome (α : Type) := Except FilterError α

end QueryFilters
