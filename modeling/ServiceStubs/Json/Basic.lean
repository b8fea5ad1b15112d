/-!
# JSON texts

A `Json` is a JSON text as it is written: numbers keep their digits, objects
keep every member in order, repeated ones included.  What a record makes of it
is decided when the record is read.

A string of JSON is written in 16-bit units, so one can be written that is no
text: half of a surrogate pair may stand alone.  Such a string is well formed
but has no text.

## Main definitions

* `Numeral` — a number as written.
* `Json` — a text as written.
-/

namespace ServiceStubs

/-- A number as written: its digits before the point, those after it (none if
there is no point), and the sign and digits of its exponent. -/
structure Numeral where
  negative : Bool
  whole : List Char
  fraction : List Char
  exponent : Option (Bool × List Char)
  deriving DecidableEq

namespace Numeral

/-- The numeral of a natural number. -/
def ofNat (n : Nat) : Numeral :=
  ⟨false, Nat.toDigits 10 n, [], none⟩

/-- The text of a numeral. -/
def text (n : Numeral) : List Char :=
  (if n.negative then ['-'] else []) ++ n.whole
    ++ (if n.fraction.isEmpty then [] else '.' :: n.fraction)
    ++ match n.exponent with
      | none => []
      | some (negative, digits) => ['e', if negative then '-' else '+'] ++ digits

end Numeral

/-- A JSON text as written.  A string that has no text is `none`. -/
inductive Json
  | null
  | bool (b : Bool)
  | number (n : Numeral)
  | string (s : Option String)
  | list (items : List Json)
  | object (members : List (Option String × Json))

namespace Json

/-- The string of a text. -/
def text (s : String) : Json := .string (some s)

/-- The number of a natural number. -/
def nat (n : Nat) : Json := .number (.ofNat n)

/-- The list of some texts. -/
def texts (ss : List String) : Json := .list (ss.map .text)

/-- The object with the given members. -/
def record (members : List (String × Json)) : Json :=
  .object (members.map fun (k, v) => (some k, v))

/-- The value, or null. -/
def ofOption {α : Type} (f : α → Json) : Option α → Json
  | some a => f a
  | none => .null

end Json

end ServiceStubs
