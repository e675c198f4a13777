import QueryFilters.Json.Basic

/-!
# Reading JSON text

A reader for JSON text into `Json`, keeping object members in text order (repeated keys
included; `Json.dedupe` collapses them). Arrays and objects may enclose one another at most
127 deep.

Numbers follow one rule. A number without a fraction or exponent is an integer when it fits:
from `0` to `2^64 - 1`, or from `-2^63` to `-1`; `-0` and integers out of these ranges are
binary64 numbers. Any other number is built from its digits read into a 64-bit significand
(digits that no longer fit are dropped, those before the point counted into the exponent),
converted to binary64 and then multiplied or divided once by the binary64 power of ten of the
exponent. A result that overflows is refused.
-/

namespace QueryFilters.Json

/-- JSON white space: space, tab, line feed and carriage return. -/
def isSpace (c : Char) : Bool :=
  c = ' ' || c = '\t' || c = '\n' || c = '\r'

/-- Drops leading JSON white space. -/
def skipSpace (cs : List Char) : List Char :=
  cs.dropWhile isSpace

/-- The value of a decimal digit. -/
def digitValue? (c : Char) : Option Nat :=
  if c.isDigit then some (c.toNat - 48) else none

/-- The value of a hexadecimal digit. -/
def hexValue? (c : Char) : Option Nat :=
  if c.isDigit then some (c.toNat - 48)
  else if 'a' ≤ c && c ≤ 'f' then some (c.toNat - 87)
  else if 'A' ≤ c && c ≤ 'F' then some (c.toNat - 55)
  else none

/-- The code of four hexadecimal digits. -/
def hex4? (a b c d : Char) : Option Nat := do
  let a ← hexValue? a
  let b ← hexValue? b
  let c ← hexValue? c
  let d ← hexValue? d
  pure (((a * 16 + b) * 16 + c) * 16 + d)

/-- Reads the rest of a string literal after its opening quote: escapes are decoded, a
surrogate pair makes one character, and a lone surrogate or a raw control character is
refused. -/
def readString (acc : List Char) : List Char → Option (String × List Char)
  | [] => none
  | '"' :: rest => some (String.ofList acc.reverse, rest)
  | '\\' :: 'u' :: a :: b :: c :: d :: rest =>
    match hex4? a b c d with
    | none => none
    | some hi =>
      if 0xD800 ≤ hi && hi ≤ 0xDBFF then
        match rest with
        | '\\' :: 'u' :: e :: f :: g :: h :: more =>
          match hex4? e f g h with
          | some lo =>
            if 0xDC00 ≤ lo && lo ≤ 0xDFFF then
              readString (Char.ofNat (0x10000 + (hi - 0xD800) * 0x400 + (lo - 0xDC00)) :: acc) more
            else none
          | none => none
        | _ => none
      else if 0xDC00 ≤ hi && hi ≤ 0xDFFF then none
      else readString (Char.ofNat hi :: acc) rest
  | '\\' :: e :: rest =>
    let decoded : Option Char :=
      match e with
      | '"' => some '"'
      | '\\' => some '\\'
      | '/' => some '/'
      | 'b' => some (Char.ofNat 8)
      | 'f' => some (Char.ofNat 12)
      | 'n' => some '\n'
      | 'r' => some '\r'
      | 't' => some '\t'
      | _ => none
    match decoded with
    | some c => readString (c :: acc) rest
    | none => none
  | c :: rest => if c.toNat < 0x20 then none else readString (c :: acc) rest

/-- The greatest 64-bit significand. -/
def significandLimit : Nat := 0xFFFFFFFFFFFFFFFF

/-- The greatest exponent that is read as written. -/
def exponentLimit : Nat := 0x7FFFFFFF

/-- Scales a significand by a power of ten in binary64: one multiplication or division by the
power of ten, after dividing by `1e308` while the power is beyond the table. Two such divisions
leave any 64-bit significand zero, so the fuel never runs out first. Overflow is refused. -/
def scaleByTen (negative : Bool) (sig : Nat) (exp : Int) : Option Float :=
  let rec go : Nat → Float → Int → Option Float
    | 0, f, _ => some f
    | fuel + 1, f, e =>
      if e.natAbs ≤ 308 then
        let pow := Float.ofScientific 1 false e.natAbs
        if 0 ≤ e then
          let g := f * pow
          if g.isInf then none else some g
        else some (f / pow)
      else if f == 0 then some f
      else if 0 ≤ e then none
      else go fuel (f / Float.ofScientific 1 false 308) (e + 308)
  (go 4 (Float.ofNat sig) exp).map fun f => if negative then -f else f

/-- Where the digits of a number have got to: the significand so far, the exponent it needs,
and whether digits have stopped fitting. -/
structure Digits where
  sig : Nat := 0
  exp : Int := 0
  full : Bool := false

/-- Reads the digits before the point. Once they stop fitting, each further digit only raises
the exponent. -/
def intDigits (d : Digits) : List Char → Digits × List Char
  | [] => (d, [])
  | c :: rest =>
    match digitValue? c with
    | none => (d, c :: rest)
    | some v =>
      if d.full || d.sig * 10 + v > significandLimit then
        intDigits { d with exp := d.exp + 1, full := true } rest
      else intDigits { d with sig := d.sig * 10 + v } rest

/-- Reads the digits after the point; the count read is returned too. Digits are taken while
the significand fits, whatever happened before the point; from the first that does not fit on,
the digits are dropped. -/
def fracDigits (d : Digits) (stopped : Bool) (n : Nat) : List Char → Digits × Nat × List Char
  | [] => (d, n, [])
  | c :: rest =>
    match digitValue? c with
    | none => (d, n, c :: rest)
    | some v =>
      if stopped || d.sig * 10 + v > significandLimit then fracDigits d true (n + 1) rest
      else fracDigits { d with sig := d.sig * 10 + v, exp := d.exp - 1 } false (n + 1) rest

/-- Reads exponent digits, stopping the value at the first digit past `exponentLimit`;
returns the value, whether it stopped, how many digits were read, and the rest. -/
def expDigits (e : Nat) (capped : Bool) (n : Nat) : List Char → Nat × Bool × Nat × List Char
  | [] => (e, capped, n, [])
  | c :: rest =>
    match digitValue? c with
    | none => (e, capped, n, c :: rest)
    | some v =>
      if capped || e * 10 + v > exponentLimit then expDigits e true (n + 1) rest
      else expDigits (e * 10 + v) false (n + 1) rest

/-- Reads an exponent part after its mark and finishes the number. -/
def readExponent (negative : Bool) (d : Digits) (cs : List Char) : Option (Json × List Char) :=
  let (expNegative, cs) :=
    match cs with
    | '+' :: rest => (false, rest)
    | '-' :: rest => (true, rest)
    | _ => (false, cs)
  let (e, capped, n, rest) := expDigits 0 false 0 cs
  if n = 0 then none
  else if capped then
    if d.sig ≠ 0 && !expNegative then none
    else some (.ofFloat (if negative then -0.0 else 0.0), rest)
  else
    let exp := if expNegative then d.exp - e else d.exp + e
    (scaleByTen negative d.sig exp).map fun f => (.ofFloat f, rest)

/-- Reads a number. -/
def readNumber (cs : List Char) : Option (Json × List Char) :=
  let (negative, cs) :=
    match cs with
    | '-' :: rest => (true, rest)
    | _ => (false, cs)
  match cs with
  | [] => none
  | c :: after =>
    match digitValue? c with
    | none => none
    | some first =>
      let (d, rest) :=
        if first = 0 then (({ } : Digits), after) else intDigits { sig := first } after
      match rest with
      | c' :: _ =>
        if first = 0 && c'.isDigit then none
        else if c' = '.' then
          let (d, n, rest) := fracDigits d false 0 rest.tail
          if n = 0 then none
          else
            match rest with
            | m :: more =>
              if m = 'e' || m = 'E' then readExponent negative d more
              else (scaleByTen negative d.sig d.exp).map fun f => (.ofFloat f, rest)
            | [] => (scaleByTen negative d.sig d.exp).map fun f => (.ofFloat f, rest)
        else if c' = 'e' || c' = 'E' then readExponent negative d rest.tail
        else if d.full then (scaleByTen negative d.sig d.exp).map fun f => (.ofFloat f, rest)
        else some (integer negative d.sig, rest)
      | [] =>
        if d.full then (scaleByTen negative d.sig d.exp).map fun f => (.ofFloat f, [])
        else some (integer negative d.sig, [])
where
  /-- An integer that fits: non-negative up to `2^64 - 1`, negative down to `-2^63`; `-0`
  and larger negative magnitudes are binary64. -/
  integer (negative : Bool) (sig : Nat) : Json :=
    if !negative then .int sig
    else if sig = 0 then .ofFloat (-0.0)
    else if sig ≤ 0x8000000000000000 then .int (-(sig : Int))
    else .ofFloat (-(Float.ofNat sig))

/-- The deepest nesting read: at most this many arrays and objects may enclose one another;
a text nested deeper is refused. -/
def nestingLimit : Nat := 127

mutual
/-- Reads one value after optional white space, where `room` more arrays or objects may still
open. The fuel bounds the length of the reading and is given generously by `readRaw`. -/
def readValue : Nat → Nat → List Char → Option (Json × List Char)
  | 0, _, _ => none
  | fuel + 1, room, cs =>
    match skipSpace cs with
    | '[' :: rest => if room = 0 then none else readArray fuel (room - 1) rest
    | '{' :: rest => if room = 0 then none else readObject fuel (room - 1) rest
    | '"' :: rest => (readString [] rest).map fun (s, r) => (.str s, r)
    | 't' :: 'r' :: 'u' :: 'e' :: rest => some (.bool true, rest)
    | 'f' :: 'a' :: 'l' :: 's' :: 'e' :: rest => some (.bool false, rest)
    | 'n' :: 'u' :: 'l' :: 'l' :: rest => some (.null, rest)
    | other => readNumber other

/-- Reads an array after its opening bracket. -/
def readArray : Nat → Nat → List Char → Option (Json × List Char)
  | 0, _, _ => none
  | fuel + 1, room, cs =>
    match skipSpace cs with
    | ']' :: rest => some (.arr [], rest)
    | _ => readItems fuel room [] cs

/-- Reads array items, each followed by a comma or the closing bracket. -/
def readItems : Nat → Nat → List Json → List Char → Option (Json × List Char)
  | 0, _, _, _ => none
  | fuel + 1, room, acc, cs =>
    match readValue fuel room cs with
    | none => none
    | some (v, rest) =>
      match skipSpace rest with
      | ',' :: more => readItems fuel room (v :: acc) more
      | ']' :: more => some (.arr (v :: acc).reverse, more)
      | _ => none

/-- Reads an object after its opening brace. -/
def readObject : Nat → Nat → List Char → Option (Json × List Char)
  | 0, _, _ => none
  | fuel + 1, room, cs =>
    match skipSpace cs with
    | '}' :: rest => some (.obj [], rest)
    | _ => readMembers fuel room [] cs

/-- Reads object members `"key": value`, each followed by a comma or the closing brace. -/
def readMembers : Nat → Nat → List (String × Json) → List Char → Option (Json × List Char)
  | 0, _, _, _ => none
  | fuel + 1, room, acc, cs =>
    match skipSpace cs with
    | '"' :: rest =>
      match readString [] rest with
      | none => none
      | some (k, rest) =>
        match skipSpace rest with
        | ':' :: rest =>
          match readValue fuel room rest with
          | none => none
          | some (v, rest) =>
            match skipSpace rest with
            | ',' :: more => readMembers fuel room ((k, v) :: acc) more
            | '}' :: more => some (.obj ((k, v) :: acc).reverse, more)
            | _ => none
        | _ => none
    | _ => none
end

/-- Reads a whole text as one JSON value, white space around it allowed, with object members
as written and nesting up to `nestingLimit`. -/
def readRaw (s : String) : Option Json :=
  let cs := s.toList
  match readValue (4 * cs.length + 8) nestingLimit cs with
  | some (v, rest) => if (skipSpace rest).isEmpty then some v else none
  | none => none

/-- Reads a whole text as one JSON value; a repeated key keeps its first position and its last
value. -/
def parse (s : String) : Option Json :=
  (readRaw s).map dedupe

end QueryFilters.Json
