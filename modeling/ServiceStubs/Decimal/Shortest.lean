import ServiceStubs.Decimal.Binary64

/-!
# The shortest decimal of a binary number

Of the decimals that are read back as a given magnitude, the one with the
fewest digits is written, and of those the one nearest to it.  The decimals in
question fill an interval around the magnitude: halfway to its neighbours, the
ends included when the significand is even.

## Main definitions

* `Decimal` — digits and a power of ten.
* `Binary64.shortest` — the shortest decimal of a magnitude.
* `Binary64.text` — its text: positional from `10 ^ (-5)` up to below `10 ^ 16`
  and always with a point, with a signed exponent elsewhere.
-/

namespace ServiceStubs

/-- The number `digits * 10 ^ exponent`. -/
structure Decimal where
  digits : Nat
  exponent : Int
  deriving DecidableEq

namespace Binary64

/-- A natural number times a power of two, as a fraction. -/
def dyadic (n : Nat) (e : Int) : Nat × Nat :=
  if 0 ≤ e then (n * Nat.pow 2 e.toNat, 1) else (n, Nat.pow 2 (-e).toNat)

/-- A natural number times a power of ten, as a fraction. -/
def decadic (n : Nat) (e : Int) : Nat × Nat :=
  if 0 ≤ e then (n * Nat.pow 10 e.toNat, 1) else (n, Nat.pow 10 (-e).toNat)

/-- Whether the first fraction is below the second. -/
def fractionLt (a b : Nat × Nat) : Bool :=
  a.1 * b.2 < b.1 * a.2

/-- The ends of the interval of numbers that are read back as the magnitude.
Below a power of two the neighbour is only half as far away. -/
def interval (x : Binary64) : (Nat × Nat) × (Nat × Nat) :=
  let m := x.significand
  let below := if m = Nat.pow 2 52 ∧ minExponent < x.exponent then 4 * m - 1 else 4 * m - 2
  (dyadic below (x.exponent - 2), dyadic (4 * m + 2) (x.exponent - 2))

/-- Whether a decimal is read back as the magnitude. -/
def readsBack (x : Binary64) (n : Nat) (e : Int) : Bool :=
  let (lo, hi) := x.interval
  let d := decadic n e
  if x.significand % 2 = 0 then !fractionLt d lo && !fractionLt hi d
  else fractionLt lo d && fractionLt d hi

/-- The whole part of a magnitude in units of `10 ^ e`. -/
def wholePart (x : Binary64) (e : Int) : Nat :=
  let (a, b) := x.ratio
  let (c, d) := decadic 1 e
  a * d / (b * c)

/-- Whether the whole part in units of `10 ^ e` is nearer to the magnitude than
its successor; a tie goes to the even one. -/
def lowerIsNearer (x : Binary64) (n : Nat) (e : Int) : Bool :=
  let (a, b) := x.ratio
  let (c, d) := decadic (2 * n + 1) e
  let twice := (2 * a, b)
  fractionLt twice (c, d) || (!fractionLt (c, d) twice && n % 2 = 0)

/-- The decimal with exponent `e` that reads back, if there is one. -/
def onGrid? (x : Binary64) (e : Int) : Option Decimal :=
  let n := x.wholePart e
  let lower := n ≠ 0 ∧ x.readsBack n e
  let upper := x.readsBack (n + 1) e
  if lower ∧ (!upper || x.lowerIsNearer n e) then some ⟨n, e⟩
  else if upper then some ⟨n + 1, e⟩
  else none

/-- The first decimal that reads back, over `steps` exponents downwards from
`e`. -/
def searchGrids (x : Binary64) : (steps : Nat) → (e : Int) → Decimal
  | 0, e => ⟨x.wholePart e, e⟩
  | steps + 1, e =>
    match x.onGrid? e with
    | some d => d
    | none => searchGrids x steps (e - 1)

/-- The shortest decimal of a magnitude that is not zero. -/
def shortest (x : Binary64) : Decimal :=
  searchGrids x 640 308

/-- A decimal with a point and no exponent. -/
def positional (digits : List Char) (exponent : Int) : List Char :=
  let point := (digits.length : Int) + exponent
  if 0 ≤ exponent then digits ++ List.replicate exponent.toNat '0' ++ ['.', '0']
  else if 0 < point then digits.take point.toNat ++ ['.'] ++ digits.drop point.toNat
  else ['0', '.'] ++ List.replicate (-point).toNat '0' ++ digits

/-- A decimal with one digit before the point and an exponent with its sign. -/
def scientific (digits : List Char) (power : Int) : List Char :=
  let mantissa := match digits with
    | c :: cs => if cs.isEmpty then [c] else c :: '.' :: cs
    | [] => []
  let sign := if power < 0 then '-' else '+'
  mantissa ++ ['e', sign] ++ Nat.toDigits 10 power.natAbs

/-- The text of a magnitude. -/
def text (x : Binary64) : List Char :=
  if x.significand = 0 then ['0', '.', '0']
  else
    let d := x.shortest
    let digits := Nat.toDigits 10 d.digits
    let power := (digits.length : Int) + d.exponent - 1
    if -5 ≤ power ∧ power ≤ 15 then positional digits d.exponent
    else scientific digits power

end Binary64

end ServiceStubs
