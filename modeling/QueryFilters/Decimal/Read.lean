/-!
# Reading decimal numerals

Two readers of a whole text: a signed 64-bit integer, and a decimal literal read to the nearest
binary64 number. A token of a tuple becomes a number only through these readers.
-/

namespace QueryFilters.Decimal

/-- The value of a run of decimal digits. -/
def digitsValue (ds : List Char) : Nat :=
  ds.foldl (fun acc c => acc * 10 + (c.toNat - 48)) 0

/-- Splits an optional leading sign off: `-` makes the number negative, `+` is dropped. -/
def splitSign : List Char → Bool × List Char
  | '-' :: rest => (true, rest)
  | '+' :: rest => (false, rest)
  | cs => (false, cs)

/-- Reads a whole text as an optionally signed run of ASCII digits (leading zeros allowed) whose
value lies in the 64-bit signed range. -/
def readInt64? (s : String) : Option Int :=
  let (negative, ds) := splitSign s.toList
  if ds.isEmpty || !ds.all Char.isDigit then none
  else
    let n := digitsValue ds
    let v : Int := if negative then -(n : Int) else n
    if -0x8000000000000000 ≤ v && v < 0x8000000000000000 then some v else none

/-- A decimal literal `± digits * 10 ^ exp`. -/
structure Literal where
  negative : Bool
  digits : Nat
  exp : Int

/-- Reads a whole text as a decimal literal: an optional sign, digits with at most one point
and at least one digit around it, and an optional exponent `e` or `E` with an optional sign and
at least one digit. -/
def readLiteral? (s : String) : Option Literal :=
  let (negative, cs) := splitSign s.toList
  let whole := cs.takeWhile Char.isDigit
  let cs := cs.dropWhile Char.isDigit
  let (frac, cs) :=
    match cs with
    | '.' :: rest => (rest.takeWhile Char.isDigit, rest.dropWhile Char.isDigit)
    | _ => ([], cs)
  if whole.isEmpty && frac.isEmpty then none
  else
    let mantissa := digitsValue (whole ++ frac)
    let exp? : Option Int :=
      match cs with
      | [] => some 0
      | m :: rest =>
        if m = 'e' || m = 'E' then
          let (expNegative, ds) := splitSign rest
          if ds.isEmpty || !ds.all Char.isDigit then none
          else
            let e := digitsValue ds
            some (if expNegative then -(e : Int) else e)
        else none
    exp?.map fun e => ⟨negative, mantissa, e - frac.length⟩

/-- The binary64 number nearest to a literal, ties to even. Far beyond the binary64 range the
answer is an infinity or zero without computing the power. -/
def Literal.toFloat (l : Literal) : Float :=
  let magnitude : Float :=
    if l.digits = 0 then 0.0
    else if 310 < l.exp then Float.ofScientific 1 false 400
    else if l.exp + (toString l.digits).length < -330 then 0.0
    else Float.ofScientific l.digits (l.exp < 0) l.exp.natAbs
  if l.negative then -magnitude else magnitude

/-- Reads a whole text as a decimal literal, to the nearest binary64 number. -/
def readFloat? (s : String) : Option Float :=
  (readLiteral? s).map Literal.toFloat

end QueryFilters.Decimal
