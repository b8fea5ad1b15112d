import ServiceStubs.TypeExpr.Store

/-!
# Definitions of typed dictionaries

A typed dictionary is declared as a class when every field has a name that a
class body admits, and by a call that gives the names as strings otherwise.

## Main definitions

* `isFieldIdentifier` — the names that a class body admits.
* `TypedDict.definition` — the text of the declaration.
* `TypedDict.definitionImports` — what the declaration itself needs, the types of
  the fields apart.
-/

namespace ServiceStubs

/-- The words that a class body does not admit as names. -/
def keywords : List String :=
  ["False", "None", "True", "and", "as", "assert", "async", "await", "break", "class",
    "continue", "def", "del", "elif", "else", "except", "finally", "for", "from", "global", "if",
    "import", "in", "is", "lambda", "nonlocal", "not", "or", "pass", "raise", "return", "try",
    "while", "with", "yield"]

/-- A letter of ASCII or an underscore. -/
def startsIdentifier (c : Char) : Bool :=
  c.isAlpha || c = '_'

/-- A letter or a digit of ASCII or an underscore. -/
def continuesIdentifier (c : Char) : Bool :=
  c.isAlphanum || c = '_'

/-- An identifier of ASCII characters. -/
def isIdentifier : List Char → Bool
  | [] => false
  | c :: cs => startsIdentifier c && cs.all continuesIdentifier

/-- A name that a class body admits. -/
def isFieldIdentifier (name : String) : Bool :=
  isIdentifier name.toList && !keywords.contains name

/-- The type of a field, which says whether the field may be left out. -/
def Field.typeText (f : Field) : String :=
  if f.required then f.type.text else "NotRequired[" ++ f.type.text ++ "]"

namespace TypedDict

/-- The declaration as a class. -/
def classDefinition (d : TypedDict) : List String :=
  ("class " ++ d.name ++ "(TypedDict):")
    :: (if d.fields.isEmpty then ["    pass"] else [])
    ++ d.fields.map fun f => "    " ++ f.name ++ ": " ++ f.typeText

/-- The declaration as a call. -/
def callDefinition (d : TypedDict) : List String :=
  [d.name ++ " = TypedDict(", "    \"" ++ d.name ++ "\",", "    \x7b"]
    ++ d.fields.map (fun f => "        \"" ++ f.name ++ "\": " ++ f.typeText ++ ",")
    ++ ["    \x7d,", ")"]

/-- The text of the declaration. -/
def definition (d : TypedDict) : String :=
  "\n".intercalate
    (if d.fields.all (isFieldIdentifier ·.name) then d.classDefinition else d.callDefinition)

/-- What the declaration itself needs: the base class, and the mark of fields
that may be left out if there is one. -/
def definitionImports (d : TypedDict) : ImportSet :=
  let base : ImportSet := ImportSet.add ∅ ⟨.typingExtensions, "TypedDict", none⟩
  if d.fields.any (!·.required) then base.add ⟨.typingExtensions, "NotRequired", none⟩ else base

end TypedDict

end ServiceStubs
