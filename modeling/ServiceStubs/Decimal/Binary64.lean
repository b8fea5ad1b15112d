/-!
# Binary floating point

The magnitudes of the 64-bit binary floating-point format, with exact
arithmetic on natural numbers: a number is rounded to the nearest magnitude, and
of two equally near to the one with an even significand.

## Main definitions

* `Binary64` — a finite magnitude, `significand * 2 ^ exponent`.
* `ofRatio?` — the magnitude nearest to a quotient.
* `mul?`, `div?` — product and quotient of two magnitudes.
* `scaled?` — a magnitude from decimal digits and a power of ten, in two
  roundings: that of the digits and the power, and that of their product.
-/

namespace ServiceStubs

/-- A finite magnitude of the 64-bit binary format. -/
structure Binary64 where
  significand : Nat
  exponent : Int
  deriving DecidableEq

namespace Binary64

/-- The least exponent of a magnitude. -/
def minExponent : Int := -1074

/-- The greatest exponent of a magnitude. -/
def maxExponent : Int := 971

/-- The magnitude zero. -/
def zero : Binary64 := ⟨0, minExponent⟩

/-- The quotient rounded to the nearest number, a tie to the even one. -/
def roundQuotient (num den : Nat) : Nat :=
  let q := num / den
  let r := num % den
  if 2 * r < den then q else if den < 2 * r then q + 1 else if q % 2 = 0 then q else q + 1

/-- The fraction that is `num / den` in units of `2 ^ e`. -/
def inUnits (num den : Nat) (e : Int) : Nat × Nat :=
  if 0 ≤ e then (num, den * Nat.pow 2 e.toNat) else (num * Nat.pow 2 (-e).toNat, den)

/-- The magnitude nearest to `num / den`, if it is not too large. -/
def ofRatio? (num den : Nat) : Option Binary64 :=
  if num = 0 then some zero
  else
    let guess : Int := (num.log2 : Int) - den.log2 - 52
    let (n, d) := inUnits num den guess
    let e := max minExponent (if n < d * Nat.pow 2 52 then guess - 1 else guess)
    let (n, d) := inUnits num den e
    let m := roundQuotient n d
    let (m, e) := if m = Nat.pow 2 53 then (Nat.pow 2 52, e + 1) else (m, e)
    if e ≤ maxExponent then some ⟨m, e⟩ else none

/-- The magnitude nearest to a natural number, if it is not too large. -/
def ofNat? (n : Nat) : Option Binary64 :=
  ofRatio? n 1

/-- A magnitude as a fraction. -/
def ratio (x : Binary64) : Nat × Nat :=
  if 0 ≤ x.exponent then (x.significand * Nat.pow 2 x.exponent.toNat, 1)
  else (x.significand, Nat.pow 2 (-x.exponent).toNat)

/-- The rounded product. -/
def mul? (x y : Binary64) : Option Binary64 :=
  let (a, b) := x.ratio
  let (c, d) := y.ratio
  ofRatio? (a * c) (b * d)

/-- The rounded quotient. -/
def div? (x y : Binary64) : Option Binary64 :=
  let (a, b) := x.ratio
  let (c, d) := y.ratio
  ofRatio? (a * d) (b * c)

/-- The magnitude nearest to a power of ten, if it is not too large. -/
def powerOfTen? (k : Nat) : Option Binary64 :=
  ofNat? (Nat.pow 10 k)

/-- The largest power of ten that is no more than the largest magnitude. -/
def maxPowerOfTen : Nat := 308

/-- Divides a magnitude by `10 ^ k`, by the largest power of ten as long as `k`
exceeds it. -/
def dividedByPower? (x : Binary64) (k : Nat) : Option Binary64 :=
  if k ≤ maxPowerOfTen then do x.div? (← powerOfTen? k)
  else if x.significand = 0 then some x
  else do
    dividedByPower? (← x.div? (← powerOfTen? maxPowerOfTen)) (k - maxPowerOfTen)
termination_by k
decreasing_by simp only [maxPowerOfTen] at *; omega

/-- The magnitude of `digits * 10 ^ e`: the digits and the power are rounded
first, then their product or quotient. -/
def scaled? (digits : Nat) (e : Int) : Option Binary64 := do
  let x ← ofNat? digits
  if 0 ≤ e then
    if e.toNat ≤ maxPowerOfTen then x.mul? (← powerOfTen? e.toNat)
    else if x.significand = 0 then some x else none
  else x.dividedByPower? (-e).toNat

end Binary64

end ServiceStubs
