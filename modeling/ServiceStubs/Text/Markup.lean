import ServiceStubs.Text.Blank
import ServiceStubs.Text.Replace

/-!
# Plain text of marked-up documentation

Model documentation is written in HTML.  Its plain text has a space for every
tag, the five basic entities decoded, and every stretch of blanks collapsed to
one space.

## Main definitions

* `withoutTags` — every tag replaced by a space.
* `decodeEntities` — the entities decoded, `&amp;` last so that what it yields is
  not read again.
* `plain` — the plain text.
-/

namespace ServiceStubs.Text

/-- Replaces every tag by a space, when the text starts inside a tag exactly if
`inTag` holds.  A tag reaches from `<` to the next `>`; a `<` without one is
text. -/
def withoutTagsFrom : (inTag : Bool) → List Char → List Char
  | _, [] => []
  | true, c :: cs => withoutTagsFrom (c != '>') cs
  | false, c :: cs =>
    if c = '<' && cs.contains '>' then ' ' :: withoutTagsFrom true cs
    else c :: withoutTagsFrom false cs

/-- Replaces every tag by a space. -/
def withoutTags (cs : List Char) : List Char :=
  withoutTagsFrom false cs

/-- The entities that are decoded, in the order of decoding. -/
def entities : List (List Char × List Char) :=
  [("&lt;".toList, ['<']), ("&gt;".toList, ['>']), ("&quot;".toList, ['"']),
    ("&#39;".toList, ['\x27']), ("&amp;".toList, ['&'])]

/-- Decodes the entities one after the other. -/
def decodeEntities (cs : List Char) : List Char :=
  entities.foldl (fun cs (entity, text) => replace entity text cs) cs

/-- The plain text of marked-up documentation. -/
def plain (s : String) : String :=
  String.ofList ([' '].intercalate (words (decodeEntities (withoutTags s.toList))))

end ServiceStubs.Text
