/-!
# Character classes

A property of characters, such as "is a lower-case letter", is a set of code
points made of a few hundred stretches.  A `CharClass` lists the lengths of the
stretches outside and inside the set in turn, which is the smallest table that
needs no decoding: a lookup walks it and subtracts.

## Main definitions

* `CharClass` — a set of characters as alternating stretch lengths.
* `CharClass.contains` — membership.
-/

namespace ServiceStubs.Text

/-- A set of characters.  `runs` holds the lengths of the stretches of code
points outside and inside the set, in turn, the first stretch being outside and
starting at code point zero.  What lies beyond the last stretch is outside. -/
structure CharClass where
  runs : List Nat

namespace CharClass

/-- Whether the `n`-th code point of the given stretches counts as inside, the
first stretch being inside exactly when `inside` says so. -/
def covers : (inside : Bool) → List Nat → Nat → Bool
  | _, [], _ => false
  | inside, r :: rs, n => if n < r then inside else covers (!inside) rs (n - r)

/-- Membership of a character in the class. -/
def contains (k : CharClass) (c : Char) : Bool :=
  covers false k.runs c.toNat

end CharClass

/-- Whether a character is one of the 128 of ASCII. -/
def isAscii (c : Char) : Bool :=
  c.toNat < 128

end ServiceStubs.Text
