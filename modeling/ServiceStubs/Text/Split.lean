/-!
# Splitting texts

## Main definitions

* `splitLast` — a text before and after the last occurrence of a character.
* `splitOn` — the parts of a text between the occurrences of a character.
-/

namespace ServiceStubs.Text

/-- A text up to the last occurrence of a character, if there is one, and the
text after it. -/
def splitLast (sep : Char) (cs : List Char) : Option (List Char) × List Char :=
  let last := (cs.reverse.takeWhile (· ≠ sep)).reverse
  (if last.length < cs.length then some (cs.take (cs.length - last.length - 1)) else none, last)

/-- The first part and the further parts of a text between the occurrences of a
character. -/
def splitAux (sep : Char) : List Char → List Char × List (List Char)
  | [] => ([], [])
  | c :: cs =>
    let (part, parts) := splitAux sep cs
    if c = sep then ([], part :: parts) else (c :: part, parts)

/-- The parts of a text between the occurrences of a character; they may be
empty. -/
def splitOn (sep : Char) (s : String) : List String :=
  let (part, parts) := splitAux sep s.toList
  (part :: parts).map String.ofList

end ServiceStubs.Text
