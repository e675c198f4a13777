/-!
# Shortest decimal of a binary64 number

A binary64 number stands for the interval of reals that round to it. Its shortest decimal is
the decimal with the fewest significant digits inside that interval; of two such decimals the
one nearer to the number is taken, and an exact tie goes to the even last digit.

The search is done in exact natural-number arithmetic: for one, two, … seventeen digits it
tests the number's two neighbours on the decimal grid of that length, and the first grid with a
neighbour inside the interval wins.
-/

namespace QueryFilters.Decimal

/-- A finite non-negative binary64 magnitude, `m * 2 ^ q`. -/
structure Binary where
  m : Nat
  q : Int
  /-- The gap to the number below is half the gap to the number above: `m` is the least
  significand of a binade above the smallest one. -/
  narrowBelow : Bool
  deriving Repr, DecidableEq

/-- What a binary64 bit pattern stands for. -/
inductive Bits where
  | finite (negative : Bool) (x : Binary)
  | infinite (negative : Bool)
  | nan
  deriving Repr, DecidableEq

/-- Splits a bit pattern into sign, biased exponent and fraction. -/
def Bits.ofUInt64 (b : UInt64) : Bits :=
  let negative := (b >>> 63) == 1
  let e := ((b >>> 52) &&& 0x7FF).toNat
  let f := (b &&& 0xFFFFFFFFFFFFF).toNat
  if e == 0x7FF then (if f == 0 then .infinite negative else .nan)
  else if e == 0 then .finite negative ⟨f, -1074, false⟩
  else .finite negative ⟨0x10000000000000 + f, (e : Int) - 1075, f == 0 && e > 1⟩

/-- A decimal number `digits * 10 ^ exp`. -/
structure Dec where
  digits : Nat
  exp : Int
  deriving Repr, DecidableEq

/-- Compares `a * 10 ^ i` with `n * 2 ^ j` exactly. -/
def cmpScaled (a : Nat) (i : Int) (n : Nat) (j : Int) : Ordering :=
  compare (a * Nat.pow 10 i.toNat * Nat.pow 2 (-j).toNat) (n * Nat.pow 2 j.toNat * Nat.pow 10 (-i).toNat)

/-- The decimal lies among the reals that round to the number, to nearest with ties to the
even significand: the interval reaches halfway to each neighbour, ends included when `m` is
even. -/
def Binary.readsBack (x : Binary) (d : Dec) : Bool :=
  let lo := if x.narrowBelow then 4 * x.m - 1 else 4 * x.m - 2
  let hi := 4 * x.m + 2
  let incl := x.m % 2 == 0
  let cl := cmpScaled d.digits d.exp lo (x.q - 2)
  let ch := cmpScaled d.digits d.exp hi (x.q - 2)
  (cl == .gt || (incl && cl == .eq)) && (ch == .lt || (incl && ch == .eq))

/-- The number is below `10 ^ k`. -/
def Binary.below (x : Binary) (k : Int) : Bool :=
  cmpScaled 1 k x.m x.q == .gt

/-- Moves a first guess of the scale up or down until the number lies in
`[10 ^ (k - 1), 10 ^ k)`; each step moves by one decade. -/
def Binary.fixScale (x : Binary) : Nat → Int → Int
  | 0, k => k
  | fuel + 1, k =>
    if !x.below k then x.fixScale fuel (k + 1)
    else if x.below (k - 1) then x.fixScale fuel (k - 1)
    else k

/-- The least `k` with the number below `10 ^ k`, for a non-zero number: a guess from the
binary length, corrected exactly. -/
def Binary.scale (x : Binary) : Int :=
  let bits : Int := (Nat.log2 x.m : Int) + x.q
  x.fixScale 800 (bits * 30103 / 100000 + 1)

/-- The number's lower neighbour on the grid `10 ^ e`: the greatest `d` with
`d * 10 ^ e` not above it. -/
def Binary.floorOn (x : Binary) (e : Int) : Nat :=
  (x.m * Nat.pow 2 x.q.toNat * Nat.pow 10 (-e).toNat) / (Nat.pow 2 (-x.q).toNat * Nat.pow 10 e.toNat)

/-- Of two neighbouring decimals on one grid, the one nearer to the number; an exact tie goes
to the even one. -/
def Binary.nearer (x : Binary) (d : Nat) (e : Int) : Nat :=
  match cmpScaled (2 * d + 1) e (2 * x.m) x.q with
  | .gt => d
  | .lt => d + 1
  | .eq => if d % 2 == 0 then d else d + 1

/-- The decimal with `n` significant digits for a number of scale `k`, if one of its two
neighbours on that grid reads back. -/
def Binary.onGrid (x : Binary) (k : Int) (n : Nat) : Option Dec :=
  let e := k - n
  let d := x.floorOn e
  match x.readsBack ⟨d, e⟩, x.readsBack ⟨d + 1, e⟩ with
  | true, true => some ⟨x.nearer d e, e⟩
  | true, false => some ⟨d, e⟩
  | false, true => some ⟨d + 1, e⟩
  | false, false => none

/-- The exact decimal value of the number. -/
def Binary.exact (x : Binary) : Dec :=
  if 0 ≤ x.q then ⟨x.m * Nat.pow 2 x.q.toNat, 0⟩ else ⟨x.m * Nat.pow 5 (-x.q).toNat, x.q⟩

/-- Moves trailing zeros of the digits into the exponent. -/
def Dec.strip (d : Dec) : Dec :=
  if h : d.digits ≠ 0 ∧ d.digits % 10 = 0 then
    Dec.strip ⟨d.digits / 10, d.exp + 1⟩
  else d
termination_by d.digits
decreasing_by exact Nat.div_lt_self (Nat.pos_of_ne_zero h.1) (by decide)

/-- The shortest decimal that reads back as the number, with no trailing zeros; zero is
`0 * 10 ^ 0`. Seventeen digits always read back, so the exact value is only a total
fallback. -/
def Binary.shortest (x : Binary) : Dec :=
  if x.m = 0 then ⟨0, 0⟩
  else
    let k := x.scale
    match (List.range 17).findSome? (fun i => x.onGrid k (i + 1)) with
    | some d => d.strip
    | none => x.exact.strip

theorem Dec.strip_of_trailing (d : Dec) (h : d.digits ≠ 0 ∧ d.digits % 10 = 0) :
    d.strip = Dec.strip ⟨d.digits / 10, d.exp + 1⟩ := by
  conv => lhs; rw [Dec.strip]
  rw [dif_pos h]

theorem Dec.strip_of_not_trailing (d : Dec) (h : ¬(d.digits ≠ 0 ∧ d.digits % 10 = 0)) :
    d.strip = d := by
  conv => lhs; rw [Dec.strip]
  rw [dif_neg h]

/-- Stripping trailing zeros keeps the value: the digits only lose factors of ten that the
exponent gains. -/
theorem Dec.strip_digits_mul (d : Dec) :
    d.strip.digits * Nat.pow 10 (d.strip.exp - d.exp).toNat = d.digits ∧ d.exp ≤ d.strip.exp := by
  induction d using Dec.strip.induct with
  | case1 d h ih =>
    rw [Dec.strip_of_trailing d h]
    obtain ⟨ih1, ih2⟩ := ih
    generalize Dec.strip ⟨d.digits / 10, d.exp + 1⟩ = s at ih1 ih2 ⊢
    simp only at ih1 ih2
    refine ⟨?_, by omega⟩
    have hsplit : (s.exp - d.exp).toNat = (s.exp - (d.exp + 1)).toNat + 1 := by omega
    rw [Nat.pow_eq] at ih1 ⊢
    rw [hsplit, Nat.pow_succ, ← Nat.mul_assoc, ih1]
    exact Nat.div_mul_cancel (Nat.dvd_of_mod_eq_zero h.2)
  | case2 d h =>
    rw [Dec.strip_of_not_trailing d h]
    simp

end QueryFilters.Decimal
