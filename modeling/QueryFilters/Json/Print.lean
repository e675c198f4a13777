import QueryFilters.Json.Basic
import QueryFilters.Decimal.Shortest

/-!
# Writing JSON values

Two texts of a value: its compact JSON text, and its display in messages, where strings stand
bare, `null` is empty and an object's members are written `key => value` inside brackets.
Both write a binary64 number with its shortest decimal, laid out by `Json.numberLayout`.
-/

namespace QueryFilters

namespace Decimal

/-- Where a decimal is written with a point and where with an exponent. -/
structure Layout where
  /-- Least exponent of the leading digit that is written positionally. -/
  plainFrom : Int
  /-- Exponents of the leading digit from here on are written with an exponent. -/
  plainBelow : Int
  /-- A positive exponent is written with a plus sign. -/
  expPlus : Bool

/-- A run of zeros. -/
def zeros (n : Nat) : String := String.ofList (List.replicate n '0')

/-- Lays out a decimal with no trailing zeros in its digits. A positional decimal keeps at least
one digit after the point; an exponent follows the first digit and its point, if more digits
follow. -/
def Layout.render (l : Layout) (negative : Bool) (d : Dec) : String :=
  let ds := toString d.digits
  let n : Int := ds.length
  -- the point stands after `point` digits of `ds`
  let point := n + d.exp
  let body :=
    if l.plainFrom < point && point ≤ l.plainBelow then
      if 0 ≤ d.exp then ds ++ zeros d.exp.toNat ++ ".0"
      else if 0 < point then
        String.ofList (ds.toList.take point.toNat) ++ "." ++
          String.ofList (ds.toList.drop point.toNat)
      else "0." ++ zeros (-point).toNat ++ ds
    else
      let e := point - 1
      let mantissa :=
        match ds.toList with
        | c :: rest@(_ :: _) => String.singleton c ++ "." ++ String.ofList rest
        | cs => String.ofList cs
      let sign := if e < 0 then "-" else if l.expPlus then "+" else ""
      mantissa ++ "e" ++ sign ++ toString e.natAbs
  if negative then "-" ++ body else body

end Decimal

namespace Json

/-- Numbers are written positionally from `1e-5` up to below `1e16`, with at least one digit
after the point, and otherwise as a digit, the other digits after a point, and a signed
exponent: `1500.0`, `0.0015`, `1e+20`, `2.5e-10`. -/
def numberLayout : Decimal.Layout where
  plainFrom := -5
  plainBelow := 16
  expPlus := true

/-- The text of a binary64 number: its shortest decimal in `numberLayout`. JSON has no text
for the infinities and NaN, which are written `null`. -/
def floatText (bits : UInt64) : String :=
  match Decimal.Bits.ofUInt64 bits with
  | .finite negative x => numberLayout.render negative x.shortest
  | _ => "null"

/-- The four hexadecimal digits of a character code below `0x10000`. -/
def hex4 (n : Nat) : String :=
  let digit (k : Nat) : Char :=
    let d := (n / Nat.pow 16 k) % 16
    if d < 10 then Char.ofNat (48 + d) else Char.ofNat (87 + d)
  String.ofList [digit 3, digit 2, digit 1, digit 0]

/-- The escaped form of one character inside a JSON string: the quote, the backslash and the
control characters are escaped, everything else stands as it is. -/
def escapeChar (c : Char) : String :=
  if c = '"' then "\\\""
  else if c = '\\' then "\\\\"
  else if c = '\n' then "\\n"
  else if c = '\r' then "\\r"
  else if c = '\t' then "\\t"
  else if c.toNat = 8 then "\\b"
  else if c.toNat = 12 then "\\f"
  else if c.toNat < 0x20 then "\\u" ++ hex4 c.toNat
  else String.singleton c

/-- A JSON string literal. -/
def quote (s : String) : String :=
  "\"" ++ String.join (s.toList.map escapeChar) ++ "\""

mutual
/-- The compact JSON text of a value. -/
def render : Json → String
  | .null => "null"
  | .bool b => if b then "true" else "false"
  | .int n => toString n
  | .float bits => floatText bits
  | .str s => quote s
  | .arr items => "[" ++ ",".intercalate (renderItems items) ++ "]"
  | .obj fields => "\x7b" ++ ",".intercalate (renderFields fields) ++ "\x7d"

/-- `render` of each item. -/
def renderItems : List Json → List String
  | [] => []
  | j :: rest => render j :: renderItems rest

/-- `key:value` for each member. -/
def renderFields : List (String × Json) → List String
  | [] => []
  | (k, j) :: rest => (quote k ++ ":" ++ render j) :: renderFields rest
end

mutual
/-- The display of a value in a message: `null` is empty, strings stand without quotes,
arrays are `[a, b]` and objects `[k => v, k2 => v2]`. -/
def display : Json → String
  | .null => ""
  | .bool b => if b then "true" else "false"
  | .int n => toString n
  | .float bits => floatText bits
  | .str s => s
  | .arr items => "[" ++ ", ".intercalate (displayItems items) ++ "]"
  | .obj fields => "[" ++ ", ".intercalate (displayFields fields) ++ "]"

/-- `display` of each item. -/
def displayItems : List Json → List String
  | [] => []
  | j :: rest => display j :: displayItems rest

/-- `key => value` for each member. -/
def displayFields : List (String × Json) → List String
  | [] => []
  | (k, j) :: rest => (k ++ " => " ++ display j) :: displayFields rest
end

end Json

end QueryFilters
