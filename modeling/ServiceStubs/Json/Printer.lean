import ServiceStubs.Json.Basic

/-!
# Printing JSON

The compact text: no blanks, and in strings only the quote, the backslash and
control characters escaped.

## Main definitions

* `Json.quote` — the text of a string.
* `Json.compact` — the compact text of a JSON value.
-/

namespace ServiceStubs.Json

/-- The digits of a control character's escape. -/
def controlDigits (n : Nat) : List Char :=
  let digits := Nat.toDigits 16 n
  List.replicate (4 - digits.length) '0' ++ digits

/-- A character as it stands in a string. -/
def quoteChar (c : Char) : List Char :=
  if c = '"' then ['\\', '"']
  else if c = '\\' then ['\\', '\\']
  else if c = '\x08' then ['\\', 'b']
  else if c = '\t' then ['\\', 't']
  else if c = '\n' then ['\\', 'n']
  else if c = '\x0c' then ['\\', 'f']
  else if c = '\r' then ['\\', 'r']
  else if c.toNat < 0x20 then '\\' :: 'u' :: controlDigits c.toNat
  else [c]

/-- The text of a string; one that has no text is written as half a surrogate
pair. -/
def quote : Option String → List Char
  | some s => '"' :: s.toList.flatMap quoteChar ++ ['"']
  | none => "\"\\ud800\"".toList

mutual

/-- The characters of the compact text. -/
def compactChars : Json → List Char
  | .null => ['n', 'u', 'l', 'l']
  | .bool true => ['t', 'r', 'u', 'e']
  | .bool false => ['f', 'a', 'l', 's', 'e']
  | .number n => n.text
  | .string s => quote s
  | .list [] => ['[', ']']
  | .list (j :: js) => '[' :: compactChars j ++ compactItems js
  | .object [] => ['\x7b', '\x7d']
  | .object ((k, j) :: ms) => '\x7b' :: quote k ++ ':' :: compactChars j ++ compactMembers ms

/-- The further items of a list, and its end. -/
def compactItems : List Json → List Char
  | [] => [']']
  | j :: js => ',' :: compactChars j ++ compactItems js

/-- The further members of an object, and its end. -/
def compactMembers : List (Option String × Json) → List Char
  | [] => ['\x7d']
  | (k, j) :: ms => ',' :: quote k ++ ':' :: compactChars j ++ compactMembers ms

end

/-- The compact text of a JSON value. -/
def compact (j : Json) : String :=
  String.ofList (compactChars j)

end ServiceStubs.Json
