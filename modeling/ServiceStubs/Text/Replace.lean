/-!
# Finding and replacing a pattern

Occurrences are found from left to right and do not overlap; what is put in
their place is not looked at again.

## Main definitions

* `occursIn` — whether a pattern occurs.
* `replace` — every occurrence of a pattern replaced.
-/

namespace ServiceStubs.Text

/-- Whether a pattern occurs in a text. -/
def occursIn (pattern : List Char) : List Char → Bool
  | [] => pattern.isEmpty
  | c :: cs => pattern.isPrefixOf (c :: cs) || occursIn pattern cs

/-- Replaces every occurrence of `pattern`, when the first `skip` characters
still belong to the occurrence before. -/
def replaceFrom (pattern replacement : List Char) : (skip : Nat) → List Char → List Char
  | _, [] => []
  | skip + 1, _ :: cs => replaceFrom pattern replacement skip cs
  | 0, c :: cs =>
    if pattern.isPrefixOf (c :: cs) then
      replacement ++ replaceFrom pattern replacement (pattern.length - 1) cs
    else
      c :: replaceFrom pattern replacement 0 cs

/-- Replaces every occurrence of a pattern that is not empty. -/
def replace (pattern replacement cs : List Char) : List Char :=
  replaceFrom pattern replacement 0 cs

end ServiceStubs.Text
