import ServiceStubs.Json.Basic
import ServiceStubs.Decimal.Shortest

/-!
# Values of any shape

Some members of a record may hold whatever JSON value there is.  Such a value
is kept by its meaning: numbers as integers of 64 bits or binary floating-point
numbers, objects with distinct names in increasing order, strings with a text.

## Main definitions

* `JsonNumber`, `JsonValue` — numbers and values by their meaning.
* `JsonNumber.ofNumeral?` — the number of a numeral.
* `JsonValue.ofJson?` — the value of a JSON text, which must not be nested too
  deeply.
* `JsonValue.toJson` — its text.
-/

namespace ServiceStubs

/-! ## Numbers -/

/-- A number: a natural number, the negative of a positive one, or a binary
floating-point number. -/
inductive JsonNumber
  | natural (n : Nat)
  | negative (n : Nat)
  | float (minus : Bool) (x : Binary64)
  deriving DecidableEq

namespace JsonNumber

/-- The least number that no longer fits the digits that are kept exactly. -/
def digitsLimit : Nat := Nat.pow 2 64

/-- Digits read from left to right: the number they form as long as it stays
below the limit, and the digits left over then. -/
def takeDigits : (n : Nat) → List Char → Nat × List Char
  | n, [] => (n, [])
  | n, c :: cs =>
    let next := n * 10 + (c.toNat - '0'.toNat)
    if next < digitsLimit then takeDigits next cs else (n, c :: cs)

/-- The number that digits form. -/
def natOfDigits (cs : List Char) : Nat :=
  cs.foldl (fun n c => n * 10 + (c.toNat - '0'.toNat)) 0

/-- The magnitude of a numeral as a binary number.  Digits beyond the limit
count as a power of ten before the point and not at all after it. -/
def magnitude? (n : Numeral) : Option Binary64 :=
  let (digits, beyond) := takeDigits 0 n.whole
  let (digits, dropped) := takeDigits digits n.fraction
  let point := (beyond.length : Int) - (n.fraction.length - dropped.length : Nat)
  let power : Int := match n.exponent with
    | none => 0
    | some (minus, e) => if minus then -(natOfDigits e : Int) else natOfDigits e
  Binary64.scaled? digits (point + power)

/-- The number of a numeral.  Without a point and an exponent it is an integer
if it fits 64 bits, and a binary floating-point number otherwise. -/
def ofNumeral? (n : Numeral) : Option JsonNumber :=
  let whole := natOfDigits n.whole
  let isInteger := n.fraction.isEmpty && n.exponent.isNone
  if isInteger && !n.negative && whole < digitsLimit then some (.natural whole)
  else if isInteger && n.negative && 0 < whole && whole ≤ digitsLimit / 2 then
    some (.negative whole)
  else (magnitude? n).map (.float n.negative)

/-- The numeral of a number, given the text of its magnitude. -/
def numeralOfText (minus : Bool) (cs : List Char) : Numeral :=
  let whole := cs.takeWhile Char.isDigit
  let rest := cs.dropWhile Char.isDigit
  let (fraction, rest) := match rest with
    | '.' :: rest => (rest.takeWhile Char.isDigit, rest.dropWhile Char.isDigit)
    | rest => ([], rest)
  let exponent := match rest with
    | _ :: sign :: digits => some (sign == '-', digits)
    | _ => none
  ⟨minus, whole, fraction, exponent⟩

/-- The numeral that a number is written as. -/
def toNumeral : JsonNumber → Numeral
  | natural n => .ofNat n
  | negative n => { Numeral.ofNat n with negative := true }
  | float minus x => numeralOfText minus x.text

end JsonNumber

/-! ## Values -/

/-- A JSON value by its meaning. -/
inductive JsonValue
  | null
  | bool (b : Bool)
  | number (n : JsonNumber)
  | text (s : String)
  | list (items : List JsonValue)
  | object (members : List (String × JsonValue))

namespace JsonValue

/-- Puts a member at the place of its name in increasing order, or in the place
of the member that has the name already. -/
def insertMember (k : String) (v : JsonValue) :
    List (String × JsonValue) → List (String × JsonValue)
  | [] => [(k, v)]
  | (k', v') :: ms =>
    if k < k' then (k, v) :: (k', v') :: ms
    else if k = k' then (k, v) :: ms
    else (k', v') :: insertMember k v ms

mutual

/-- The value of a JSON text in which at most `depth` lists and objects are
nested.  Every string must have a text and every number a magnitude. -/
def ofJson? : (depth : Nat) → Json → Option JsonValue
  | _, .null => some .null
  | _, .bool b => some (.bool b)
  | _, .number n => (JsonNumber.ofNumeral? n).map .number
  | _, .string s => s.map .text
  | 0, .list _ => none
  | 0, .object _ => none
  | depth + 1, .list items => (ofItems? depth items).map .list
  | depth + 1, .object members => (ofMembers? depth [] members).map .object

/-- The values of the items of a list. -/
def ofItems? : (depth : Nat) → List Json → Option (List JsonValue)
  | _, [] => some []
  | depth, j :: js => do
    let v ← ofJson? depth j
    return v :: (← ofItems? depth js)

/-- The members of an object, after those that came before. -/
def ofMembers? : (depth : Nat) → List (String × JsonValue) → List (Option String × Json) →
    Option (List (String × JsonValue))
  | _, before, [] => some before
  | depth, before, (k, j) :: ms => do
    let k ← k
    let v ← ofJson? depth j
    ofMembers? depth (insertMember k v before) ms

end

mutual

/-- The JSON text of a value. -/
def toJson : JsonValue → Json
  | null => .null
  | bool b => .bool b
  | number n => .number n.toNumeral
  | text s => .text s
  | list items => .list (itemsToJson items)
  | object members => .object (membersToJson members)

/-- The JSON texts of the items of a list. -/
def itemsToJson : List JsonValue → List Json
  | [] => []
  | v :: vs => v.toJson :: itemsToJson vs

/-- The JSON texts of the members of an object. -/
def membersToJson : List (String × JsonValue) → List (Option String × Json)
  | [] => []
  | (k, v) :: ms => (some k, v.toJson) :: membersToJson ms

end

end JsonValue

end ServiceStubs
