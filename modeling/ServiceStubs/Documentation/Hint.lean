import ServiceStubs.TypeExpr.Basic
import ServiceStubs.Text.Blank
import ServiceStubs.Text.LetterCase
import ServiceStubs.Text.Split

/-!
# Type hints

Method documentation gives types in words: `string`, `list(integer)`,
`boto3.s3.transfer.TransferConfig`, or a reference to a class.  A hint that is
none of these says nothing, and stands for the type of anything.

## Main definitions

* `hintWords` — the words that name a type.
* `typeOfHint` — the type of a hint, given the names of the resources.
-/

namespace ServiceStubs.Documentation

open Text

/-- The words that name a type, in lower case. -/
def hintWords : List (String × TypeExpr) :=
  [("string", .str), ("str", .str),
    ("integer", .int), ("int", .int), ("long", .int),
    ("boolean", .bool), ("bool", .bool),
    ("float", .float), ("double", .float),
    ("dict", .looseDict),
    ("list", .listOf .any),
    ("datetime", .datetime),
    ("bytes", .bytes),
    ("blob", .blobInput), ("bytes or seekable file-like object", .blobInput),
    ("file-like object", .subscript .fileLike [.any]), ("file", .subscript .fileLike [.any]),
    ("none", .none)]

/-- What stands between a lead and an end, if a text has both. -/
def between? (lead last cs : List Char) : Option (List Char) :=
  if lead.isPrefixOf cs then
    let rest := cs.drop lead.length
    if last.isSuffixOf rest then some (rest.take (rest.length - last.length)) else none
  else none

/-- The class that a reference refers to, without its module. -/
def referredClass? (cs : List Char) : Option String := do
  let path ← between? ":py:class:`".toList ['\x60'] cs
  if path.isEmpty || path.contains '\x60' then none
  else some (String.ofList (splitLast '.' path).2)

/-- A character of a dotted path. -/
def isPathChar (c : Char) : Bool :=
  c.isAlphanum || c = '_' || c = '.'

/-- The type that a dotted path names. -/
def typeOfPath (cs : List Char) : TypeExpr :=
  match splitLast '.' cs with
  | (some source, name) =>
    if cs.all isPathChar && !source.isEmpty && !name.isEmpty then
      .from? (String.ofList source) (String.ofList name)
    else .any
  | (none, _) => .any

/-- The type of a hint without blanks around it that wraps no other hint. -/
def typeOfPlainHint (resources : List String) (cs : List Char) : TypeExpr :=
  match referredClass? cs with
  | some name => if resources.contains name then .resource name else .any
  | none =>
    match hintWords.lookup (String.ofList (lowercased cs)) with
    | some type => type
    | none => typeOfPath cs

/-- The type of a hint that wraps others at most `depth` deep. -/
def typeOfHintFrom (resources : List String) : (depth : Nat) → List Char → TypeExpr
  | 0, _ => .any
  | depth + 1, cs =>
    let cs := trim cs
    match between? "list(".toList [')'] cs with
    | some inner => .listOf (typeOfHintFrom resources depth inner)
    | none =>
      match between? "sequence(".toList [')'] cs with
      | some inner => .subscript .sequence [typeOfHintFrom resources depth inner]
      | none => typeOfPlainHint resources cs

/-- The type of a hint.  Every hint is longer than those it wraps, so its length
bounds the depth, and the empty hint says nothing. -/
def typeOfHint (resources : List String) (hint : String) : TypeExpr :=
  typeOfHintFrom resources hint.toList.length hint.toList

end ServiceStubs.Documentation
