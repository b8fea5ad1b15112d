/-!
# Lines

A line ends with a line feed, or with a carriage return and a line feed.  The
last line may lack its end; an empty last line is no line.

## Main definitions

* `lines` — the lines of a text, without their ends.
-/

namespace ServiceStubs.Text

/-- A line that is held in reverse, in reading order and without the carriage
return before its line feed. -/
def closeLine : List Char → List Char
  | '\r' :: rev => rev.reverse
  | rev => rev.reverse

/-- The lines of a text, when the characters of `rev` (in reverse) already
belong to the first one. -/
def linesFrom : (rev : List Char) → List Char → List (List Char)
  | [], [] => []
  | rev, [] => [rev.reverse]
  | rev, c :: cs =>
    if c = '\n' then closeLine rev :: linesFrom [] cs else linesFrom (c :: rev) cs

/-- The lines of a text, without their ends. -/
def lines (cs : List Char) : List (List Char) :=
  linesFrom [] cs

end ServiceStubs.Text
