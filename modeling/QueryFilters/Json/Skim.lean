import QueryFilters.Json.Read

/-!
# Skimming JSON text

A skimmed value is checked for its grammar only and never built: its numbers may be of any
size, its strings may hold lone surrogate escapes, and its arrays and objects may nest to any
depth. Its string literals still need valid escapes and no raw control characters, and its
numbers still need the JSON number form.

A `Plan` says which parts of a text are skimmed and which are read in full, as `readValue`
reads them. The nesting limit counts the arrays and objects that are read, never those inside
a skimmed value.
-/

namespace QueryFilters.Json

/-- Passes over the rest of a string literal after its opening quote: escapes must be known
and a `\u` escape needs four hexadecimal digits, whatever code they give. -/
def skimString : List Char → Option (List Char)
  | [] => none
  | '"' :: rest => some rest
  | '\\' :: 'u' :: a :: b :: c :: d :: rest =>
    if (hex4? a b c d).isSome then skimString rest else none
  | '\\' :: e :: rest =>
    if e = '"' || e = '\\' || e = '/' || e = 'b' || e = 'f' || e = 'n' || e = 'r' || e = 't'
    then skimString rest else none
  | c :: rest => if c.toNat < 0x20 then none else skimString rest

/-- Passes over digits that must be there: at least one. -/
def skimDigits : List Char → Option (List Char)
  | c :: rest => if c.isDigit then some (rest.dropWhile Char.isDigit) else none
  | [] => none

/-- Passes over a number in JSON form: an optional minus, an integer part without a leading
zero, then an optional fraction and an optional exponent, each with at least one digit. -/
def skimNumber (cs : List Char) : Option (List Char) := do
  let cs := match cs with
    | '-' :: rest => rest
    | _ => cs
  let cs ← match cs with
    | '0' :: rest => if (rest.head?.map Char.isDigit).getD false then none else some rest
    | _ => skimDigits cs
  let cs ← match cs with
    | '.' :: rest => skimDigits rest
    | _ => some cs
  match cs with
  | m :: rest =>
    if m = 'e' || m = 'E' then
      skimDigits (match rest with
        | '+' :: r => r
        | '-' :: r => r
        | _ => rest)
    else some cs
  | [] => some []

/-- What the skimmer looks for next. -/
inductive Expect where
  /-- A value. -/
  | value
  /-- A member key and its colon, then a value. -/
  | key
  /-- After a value: a comma, or the close of the innermost open container. -/
  | next

/-- The skimming loop. The open containers are held in a list, innermost first (`true` for an
object), so nesting costs no recursion depth. Every step but the last consumes text, so fuel
one more than the length of the text is enough. -/
def skim : Nat → Expect → List Bool → List Char → Option (List Char)
  | 0, _, _, _ => none
  | fuel + 1, .value, stack, cs =>
    match skipSpace cs with
    | '[' :: rest =>
      match skipSpace rest with
      | ']' :: more => skim fuel .next stack more
      | _ => skim fuel .value (false :: stack) rest
    | '{' :: rest =>
      match skipSpace rest with
      | '}' :: more => skim fuel .next stack more
      | _ => skim fuel .key (true :: stack) rest
    | '"' :: rest =>
      match skimString rest with
      | some more => skim fuel .next stack more
      | none => none
    | 't' :: 'r' :: 'u' :: 'e' :: rest => skim fuel .next stack rest
    | 'f' :: 'a' :: 'l' :: 's' :: 'e' :: rest => skim fuel .next stack rest
    | 'n' :: 'u' :: 'l' :: 'l' :: rest => skim fuel .next stack rest
    | other =>
      match skimNumber other with
      | some more => skim fuel .next stack more
      | none => none
  | fuel + 1, .key, stack, cs =>
    match skipSpace cs with
    | '"' :: rest =>
      match skimString rest with
      | some more =>
        match skipSpace more with
        | ':' :: after => skim fuel .value stack after
        | _ => none
      | none => none
    | _ => none
  | fuel + 1, .next, stack, cs =>
    match stack with
    | [] => some cs
    | inObject :: up =>
      match skipSpace cs with
      | ',' :: rest => skim fuel (if inObject then .key else .value) stack rest
      | ']' :: rest => if inObject then none else skim fuel .next up rest
      | '}' :: rest => if inObject then skim fuel .next up rest else none
      | _ => none

/-- Passes over one value after optional white space, checking its grammar only. -/
def skimValue (cs : List Char) : Option (List Char) :=
  skim (cs.length + 1) .value [] cs

/-- Which parts of a value are read in full and which are only skimmed. -/
inductive Plan where
  /-- The value is read in full. -/
  | whole
  /-- The value is only skimmed; as an array item it reads as null. -/
  | skim
  /-- An array's items each follow the plan; a value of another kind is read in full. -/
  | items (item : Plan)
  /-- An object's members follow the plan of their key, or `others`; skimmed members are
  left out of the object. A value of another kind is read in full. -/
  | members (known : List (String × Plan)) (others : Plan)

mutual
/-- Reads one value after optional white space by a plan, where `room` more arrays or
objects may still open. -/
def readPlanned : Nat → Plan → Nat → List Char → Option (Json × List Char)
  | 0, _, _, _ => none
  | fuel + 1, .whole, room, cs => readValue fuel room cs
  | _ + 1, .skim, _, cs => (skimValue cs).map fun rest => (.null, rest)
  | fuel + 1, .items p, room, cs =>
    match skipSpace cs with
    | '[' :: rest =>
      if room = 0 then none
      else
        match skipSpace rest with
        | ']' :: more => some (.arr [], more)
        | _ => readPlannedItems fuel p (room - 1) [] rest
    | _ => readValue fuel room cs
  | fuel + 1, .members known others, room, cs =>
    match skipSpace cs with
    | '{' :: rest =>
      if room = 0 then none
      else
        match skipSpace rest with
        | '}' :: more => some (.obj [], more)
        | _ => readPlannedMembers fuel known others (room - 1) [] rest
    | _ => readValue fuel room cs

/-- Reads array items by a plan, each followed by a comma or the closing bracket. -/
def readPlannedItems : Nat → Plan → Nat → List Json → List Char → Option (Json × List Char)
  | 0, _, _, _, _ => none
  | fuel + 1, p, room, acc, cs =>
    match readPlanned fuel p room cs with
    | none => none
    | some (v, rest) =>
      match skipSpace rest with
      | ',' :: more => readPlannedItems fuel p room (v :: acc) more
      | ']' :: more => some (.arr (v :: acc).reverse, more)
      | _ => none

/-- Reads object members by the plans of their keys; a key is always read in full. -/
def readPlannedMembers : Nat → List (String × Plan) → Plan → Nat → List (String × Json) →
    List Char → Option (Json × List Char)
  | 0, _, _, _, _, _ => none
  | fuel + 1, known, others, room, acc, cs =>
    match skipSpace cs with
    | '"' :: rest =>
      match readString [] rest with
      | none => none
      | some (k, rest) =>
        match skipSpace rest with
        | ':' :: rest =>
          let p := (known.lookup k).getD others
          match readPlanned fuel p room rest with
          | none => none
          | some (v, rest) =>
            let acc := match p with
              | .skim => acc
              | _ => (k, v) :: acc
            match skipSpace rest with
            | ',' :: more => readPlannedMembers fuel known others room acc more
            | '}' :: more => some (.obj acc.reverse, more)
            | _ => none
        | _ => none
    | _ => none
end

/-- Reads a whole text by a plan, white space around it allowed, with nesting up to
`nestingLimit` outside skimmed values. -/
def readWith (plan : Plan) (s : String) : Option Json :=
  let cs := s.toList
  match readPlanned (4 * cs.length + 8) plan nestingLimit cs with
  | some (v, rest) => if (skipSpace rest).isEmpty then some v else none
  | none => none

end QueryFilters.Json
