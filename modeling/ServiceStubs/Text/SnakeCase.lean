import ServiceStubs.Text.Alphanumeric
import ServiceStubs.Text.Blank
import ServiceStubs.Text.LetterCase

/-!
# Snake case

A model name such as `ListObjectsV2` becomes the method name
`list_objects_v2`: it is cut into humps, each hump is put in lower case, and
the humps are joined by underscores.

Everything that is no letter or digit separates.  Between separators a new hump
starts at an upper-case character after a lower-case one, and at the last
upper-case character of a row when a lower-case one follows, so that
`HTTPStatus` has the humps `HTTP` and `Status`.  Digits take the case of what
stands before them in the hump.

## Main definitions

* `humps` — the humps of a stretch without separators.
* `snakeCase` — the snake-case form of a name.
-/

namespace ServiceStubs.Text

/-- The case of the letters read so far in a hump. -/
inductive HumpCase
  /-- No letter with a case has been read. -/
  | fresh
  | lower
  | upper
  deriving DecidableEq

/-- The case of a hump after one more of its characters. -/
def HumpCase.after (h : HumpCase) (c : Char) : HumpCase :=
  if isLowercase c then .lower else if isUppercase c then .upper else h

/-- The humps of a stretch without separators, when the characters of `rev` (in
reverse) already belong to the first one. -/
def humpsFrom : HumpCase → (rev : List Char) → List Char → List (List Char)
  | _, _, [] => []
  | _, rev, [c] => [(c :: rev).reverse]
  | h, rev, c :: d :: cs =>
    if h.after c = .lower ∧ isUppercase d then
      (c :: rev).reverse :: humpsFrom .fresh [] (d :: cs)
    else if h = .upper ∧ isUppercase c ∧ isLowercase d then
      rev.reverse :: humpsFrom .fresh [c] (d :: cs)
    else
      humpsFrom (h.after c) (c :: rev) (d :: cs)

/-- The humps of a stretch without separators. -/
def humps (cs : List Char) : List (List Char) :=
  humpsFrom .fresh [] cs

/-- A hump in lower case.  A capital sigma that ends the hump takes the form
that sigma has at the end of a word. -/
def lowerHump : List Char → List Char
  | [] => []
  | [c] => if c = 'Σ' then ['ς'] else lowercase c
  | c :: cs => lowercase c ++ lowerHump cs

/-- The humps of a name. -/
def humpsOfName (cs : List Char) : List (List Char) :=
  (pieces (!isAlphanumeric ·) cs).flatMap humps

/-- The snake-case form of a name. -/
def snakeCase (s : String) : String :=
  String.ofList (['_'].intercalate ((humpsOfName s.toList).map lowerHump))

end ServiceStubs.Text
