/-!
# Blanks

The characters of Unicode's `White_Space` property, and the operations that
look at nothing else: trimming, splitting into words, and collapsing blanks.

## Main definitions

* `isBlank` — the property itself.
* `trim`, `trimStart`, `trimEnd` — without the blanks at both ends, or at one.
* `pieces` — the non-empty stretches between separators.
* `words` — the stretches between blanks.
-/

namespace ServiceStubs.Text

/-- A character of Unicode's `White_Space` property. -/
def isBlank (c : Char) : Bool :=
  let n := c.toNat
  (9 ≤ n && n ≤ 13) || n == 0x20 || n == 0x85 || n == 0xA0 || n == 0x1680
    || (0x2000 ≤ n && n ≤ 0x200A) || n == 0x2028 || n == 0x2029 || n == 0x202F
    || n == 0x205F || n == 0x3000

/-- The text from its first character that is no blank. -/
def trimStart (cs : List Char) : List Char :=
  cs.dropWhile isBlank

/-- The text up to its last character that is no blank. -/
def trimEnd (cs : List Char) : List Char :=
  (cs.reverse.dropWhile isBlank).reverse

/-- The text without the blanks at both ends. -/
def trim (cs : List Char) : List Char :=
  trimEnd (trimStart cs)

/-- Whether a text has no character but blanks. -/
def isBlankText (cs : List Char) : Bool :=
  cs.all isBlank

/-- The stretch before the first separator, and the non-empty stretches after
it. -/
def piecesAux (sep : Char → Bool) : List Char → List Char × List (List Char)
  | [] => ([], [])
  | c :: cs =>
    let (p, ps) := piecesAux sep cs
    if sep c then ([], if p.isEmpty then ps else p :: ps) else (c :: p, ps)

/-- The non-empty stretches of a text between characters that are separators. -/
def pieces (sep : Char → Bool) (cs : List Char) : List (List Char) :=
  let (p, ps) := piecesAux sep cs
  if p.isEmpty then ps else p :: ps

/-- The words of a text: its stretches between blanks. -/
def words (cs : List Char) : List (List Char) :=
  pieces isBlank cs

end ServiceStubs.Text
