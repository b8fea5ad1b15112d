import ServiceStubs.Json.Basic
import ServiceStubs.Text.Hex

/-!
# Reading JSON

A reader of a part of a text returns what it read and the rest of the text.
Nesting is bounded only by the length of the text.

## Main definitions

* `readString`, `readNumeral` — the two kinds of tokens with an inside.
* `readValue` — a value at the front of a text.
* `Json.ofText?` — a text that is one value and nothing else.
-/

namespace ServiceStubs.Json

open Text (hexNumber?)

/-- A character that may stand between tokens. -/
def isSpace (c : Char) : Bool :=
  c == ' ' || c == '\n' || c == '\t' || c == '\r'

/-- The text from the next token on. -/
def skipSpace (cs : List Char) : List Char :=
  cs.dropWhile isSpace

/-! ## Strings -/

/-- A piece of a string: a character, or half of a surrogate pair. -/
inductive Piece
  | char (c : Char)
  | half (unit : Nat)

/-- The piece that a 16-bit unit is. -/
def Piece.ofUnit (n : Nat) : Piece :=
  if 0xD800 ≤ n ∧ n ≤ 0xDFFF then .half n else .char (Char.ofNat n)

/-- The character that a one-letter escape stands for. -/
def escaped? (c : Char) : Option Char :=
  if c = '"' then some '"'
  else if c = '\\' then some '\\'
  else if c = '/' then some '/'
  else if c = 'b' then some '\x08'
  else if c = 'f' then some '\x0c'
  else if c = 'n' then some '\n'
  else if c = 'r' then some '\r'
  else if c = 't' then some '\t'
  else none

/-- The pieces of a string up to its closing quote. -/
def readPieces : List Char → Option (List Piece × List Char)
  | '"' :: cs => some ([], cs)
  | '\\' :: 'u' :: a :: b :: c :: d :: cs => do
    let n ← hexNumber? [a, b, c, d]
    let (ps, rest) ← readPieces cs
    return (.ofUnit n :: ps, rest)
  | '\\' :: e :: cs => do
    let c ← escaped? e
    let (ps, rest) ← readPieces cs
    return (.char c :: ps, rest)
  | c :: cs =>
    if c.toNat < 0x20 ∨ c = '\\' then none
    else do
      let (ps, rest) ← readPieces cs
      return (.char c :: ps, rest)
  | [] => none

/-- The characters of the pieces, if no half of a surrogate pair stands
alone. -/
def joinPieces : List Piece → Option (List Char)
  | [] => some []
  | .char c :: ps => (joinPieces ps).map (c :: ·)
  | .half hi :: .half lo :: ps =>
    if hi < 0xDC00 ∧ 0xDC00 ≤ lo then
      (joinPieces ps).map (Char.ofNat (0x10000 + (hi - 0xD800) * 0x400 + (lo - 0xDC00)) :: ·)
    else none
  | .half _ :: _ => none

/-- A string after its opening quote. -/
def readString (cs : List Char) : Option (Option String × List Char) := do
  let (ps, rest) ← readPieces cs
  return ((joinPieces ps).map String.ofList, rest)

/-! ## Numbers -/

/-- The digits before the point: a zero, or digits that do not start with
one. -/
def readWhole : List Char → Option (List Char × List Char)
  | [] => none
  | c :: cs =>
    if c = '0' then some (['0'], cs)
    else if c.isDigit then some (c :: cs.takeWhile Char.isDigit, cs.dropWhile Char.isDigit)
    else none

/-- The digits after the point, if there is a point. -/
def readFraction : List Char → Option (List Char × List Char)
  | '.' :: cs =>
    let digits := cs.takeWhile Char.isDigit
    if digits.isEmpty then none else some (digits, cs.dropWhile Char.isDigit)
  | cs => some ([], cs)

/-- The sign of an exponent, which may be missing. -/
def readSign : List Char → Bool × List Char
  | '+' :: cs => (false, cs)
  | '-' :: cs => (true, cs)
  | cs => (false, cs)

/-- The exponent, if there is one. -/
def readExponent : List Char → Option (Option (Bool × List Char) × List Char)
  | [] => some (none, [])
  | c :: cs =>
    if c = 'e' ∨ c = 'E' then
      let (negative, cs) := readSign cs
      let digits := cs.takeWhile Char.isDigit
      if digits.isEmpty then none
      else some (some (negative, digits), cs.dropWhile Char.isDigit)
    else some (none, c :: cs)

/-- A number without its sign. -/
def readMagnitude (negative : Bool) (cs : List Char) : Option (Numeral × List Char) := do
  let (whole, cs) ← readWhole cs
  let (fraction, cs) ← readFraction cs
  let (exponent, cs) ← readExponent cs
  return (⟨negative, whole, fraction, exponent⟩, cs)

/-- A number. -/
def readNumeral : List Char → Option (Numeral × List Char)
  | '-' :: cs => readMagnitude true cs
  | cs => readMagnitude false cs

/-! ## Values

The number of nested calls is bounded by an argument that the length of the
text supplies. -/

/-- The rest of a text that starts with a word. -/
def afterWord? (word : List Char) (cs : List Char) : Option (List Char) :=
  if word.isPrefixOf cs then some (cs.drop word.length) else none

mutual

/-- A value at the front of a text. -/
def readValue : (depth : Nat) → List Char → Option (Json × List Char)
  | 0, _ => none
  | depth + 1, cs =>
    match skipSpace cs with
    | [] => none
    | c :: rest =>
      if c = '"' then do
        let (s, rest) ← readString rest
        return (.string s, rest)
      else if c = '[' then
        match skipSpace rest with
        | ']' :: rest => some (.list [], rest)
        | rest => do
          let (items, rest) ← readItems depth rest
          return (.list items, rest)
      else if c = '\x7b' then
        match skipSpace rest with
        | '\x7d' :: rest => some (.object [], rest)
        | rest => do
          let (members, rest) ← readMembers depth rest
          return (.object members, rest)
      else if c = 'n' then (afterWord? ['u', 'l', 'l'] rest).map (.null, ·)
      else if c = 't' then (afterWord? ['r', 'u', 'e'] rest).map (.bool true, ·)
      else if c = 'f' then (afterWord? ['a', 'l', 's', 'e'] rest).map (.bool false, ·)
      else do
        let (n, rest) ← readNumeral (c :: rest)
        return (.number n, rest)

/-- The items of a list up to its end; there is at least one. -/
def readItems : (depth : Nat) → List Char → Option (List Json × List Char)
  | 0, _ => none
  | depth + 1, cs => do
    let (j, rest) ← readValue depth cs
    match skipSpace rest with
    | ',' :: rest => do
      let (js, rest) ← readItems depth rest
      return (j :: js, rest)
    | ']' :: rest => some ([j], rest)
    | _ => none

/-- The members of an object up to its end; there is at least one. -/
def readMembers : (depth : Nat) → List Char → Option (List (Option String × Json) × List Char)
  | 0, _ => none
  | depth + 1, cs =>
    match skipSpace cs with
    | '"' :: rest => do
      let (k, rest) ← readString rest
      match skipSpace rest with
      | ':' :: rest => do
        let (j, rest) ← readValue depth rest
        match skipSpace rest with
        | ',' :: rest => do
          let (ms, rest) ← readMembers depth rest
          return ((k, j) :: ms, rest)
        | '\x7d' :: rest => some ([(k, j)], rest)
        | _ => none
      | _ => none
    | _ => none

end

/-- The value that a whole text is, blanks around it allowed. -/
def ofChars? (cs : List Char) : Option Json := do
  let (j, rest) ← readValue (2 * cs.length + 2) cs
  if (skipSpace rest).isEmpty then some j else none

/-- The value that a whole text is. -/
def ofText? (s : String) : Option Json :=
  ofChars? s.toList

end ServiceStubs.Json
