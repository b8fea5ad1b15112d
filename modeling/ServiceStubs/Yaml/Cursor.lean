/-!
# Places in a YAML text

Columns decide the structure of a YAML text, so a reader knows where the rest of
the text starts.

## Main definitions

* `isSpaceOrTab`, `isBreak` — the characters between words and between lines.
* `Cursor` — the rest of a text, and its place.
* `Cursor.readBreak` — goes on to the next line.
-/

namespace ServiceStubs.Yaml

/-- A character between words. -/
def isSpaceOrTab (c : Char) : Bool :=
  c = ' ' || c = '\t'

/-- A character that ends a line. -/
def isBreak (c : Char) : Bool :=
  c = '\n' || c = '\r' || c = '\u0085' || c = '\u2028' || c = '\u2029'

/-- Whether a word ends here. -/
def atWordEnd : List Char → Bool
  | [] => true
  | c :: _ => isSpaceOrTab c || isBreak c

/-- Whether a line ends here. -/
def atLineEnd : List Char → Bool
  | [] => true
  | c :: _ => isBreak c

/-- The rest of a text, and where it starts. -/
structure Cursor where
  rest : List Char
  index : Nat := 0
  line : Nat := 0
  column : Nat := 0

namespace Cursor

/-- Goes on by some characters of a line. -/
def skip (c : Cursor) (n : Nat) : Cursor :=
  { c with rest := c.rest.drop n, index := c.index + n, column := c.column + n }

/-- Goes on to a rest of the same line. -/
def skipTo (c : Cursor) (rest : List Char) : Cursor :=
  c.skip (c.rest.length - rest.length)

/-- The characters of a line that satisfy a condition, and the place after
them. -/
def takeWhile (c : Cursor) (p : Char → Bool) : List Char × Cursor :=
  let cs := c.rest.takeWhile p
  (cs, c.skip cs.length)

/-- Goes on past the characters of a line that satisfy a condition. -/
def skipWhile (c : Cursor) (p : Char → Bool) : Cursor :=
  (c.takeWhile p).2

/-- Goes on to the end of the line. -/
def skipLine (c : Cursor) : Cursor :=
  c.skipWhile (!isBreak ·)

/-- Goes on to the next line, past `n` characters that end this one. -/
def newLine (c : Cursor) (n : Nat) : Cursor :=
  { rest := c.rest.drop n, index := c.index + n, line := c.line + 1, column := 0 }

/-- The end of the line as it counts in a text, and the place after it.  The two
separators of lines and paragraphs stay what they are; all others are one line
feed. -/
def readBreak (c : Cursor) : List Char × Cursor :=
  match c.rest with
  | '\r' :: '\n' :: _ => (['\n'], c.newLine 2)
  | b :: _ =>
    if b = '\u2028' || b = '\u2029' then ([b], c.newLine 1)
    else if isBreak b then (['\n'], c.newLine 1)
    else ([], c)
  | [] => ([], c)

/-- Whether a line starts here with the given mark of three characters. -/
def atMark (c : Cursor) (mark : List Char) : Bool :=
  c.column = 0 && mark.isPrefixOf c.rest && atWordEnd (c.rest.drop 3)

/-- Whether a document starts or ends here. -/
def atDocumentMark (c : Cursor) : Bool :=
  c.atMark ['-', '-', '-'] || c.atMark ['.', '.', '.']

end Cursor

end ServiceStubs.Yaml
