import ServiceStubs.Text.Blank
import ServiceStubs.Text.Lines
import ServiceStubs.Text.Replace

/-!
# Docstrings

Free text is written into a module as a string between triple quotes, on lines
of its own.  Backslashes and triple quotes are escaped, so that no text can end
the string.

## Main definitions

* `indentLine`, `indented` — lines moved to the right.
* `escapeDoc` — text that cannot end a string between triple quotes.
* `docLines` — the lines of a docstring.
-/

namespace ServiceStubs.Stub

open Text

/-! ## Indentation -/

/-- Blanks in front of a line. -/
def padding (width : Nat) : List Char :=
  List.replicate width ' '

/-- A line moved to the right; of a blank line nothing is left. -/
def indentLine (width : Nat) (line : List Char) : List Char :=
  if isBlankText line then [] else padding width ++ line

/-- The lines of a text, moved to the right. -/
def indented (width : Nat) (text : String) : List String :=
  (lines text.toList).map fun line => String.ofList (indentLine width line)

/-! ## Docstrings -/

/-- Three double quotes. -/
def tripleQuote : List Char := ['"', '"', '"']

/-- Text that cannot end a string between triple quotes. -/
def escapeDoc (cs : List Char) : List Char :=
  replace tripleQuote ['\\', '"', '\\', '"', '\\', '"'] (replace ['\\'] ['\\', '\\'] cs)

/-- The lines of a text between triple quotes. -/
def quotedLines (width : Nat) (cs : List Char) : List (List Char) :=
  let quotes := padding width ++ tripleQuote
  [quotes] ++ (lines (escapeDoc (trim cs))).map (fun line => indentLine width (trimEnd line))
    ++ [quotes]

/-- The lines of a docstring.  No text gives none, and blank text an empty
line. -/
def docLines (width : Nat) (text : String) : List String :=
  if text = "" then []
  else if isBlankText text.toList then [""]
  else (quotedLines width text.toList).map String.ofList

end ServiceStubs.Stub
