import ServiceStubs.TypeExpr.Basic

/-!
# Arguments

The arguments of functions and methods.  An argument is required exactly when
it has no default.

## Main definitions

* `Argument` — an argument, and `Argument.text`.
* `requiredFirst` — the required arguments before the others.
* `keywordOnly`, `addKeyword` — arguments that must be given by name.
-/

namespace ServiceStubs

/-- The stars in front of an argument. -/
inductive Stars
  | none
  | one
  | two
  deriving DecidableEq

/-- The text of the stars. -/
def Stars.text : Stars → String
  | none => ""
  | one => "*"
  | two => "**"

/-- An argument. -/
structure Argument where
  name : String
  type : Option TypeExpr := Option.none
  default : Option String := Option.none
  stars : Stars := .none

namespace Argument

/-- An argument that must be given. -/
def needed (name : String) (type : TypeExpr) : Argument :=
  { name, type := some type }

/-- An argument that is `None` unless it is given. -/
def optional (name : String) (type : TypeExpr) : Argument :=
  { name, type := some type, default := some "None" }

/-- The instance that a method is called on. -/
def self : Argument := { name := "self" }

/-- The mark after which arguments must be given by name. -/
def keywordMark : Argument := { name := "", stars := .one }

/-- All further arguments by place. -/
def variadic (type : TypeExpr) : Argument :=
  { name := "args", type := some type, stars := .one }

/-- All further arguments by name. -/
def keywords (type : TypeExpr) : Argument :=
  { name := "kwargs", type := some type, stars := .two }

/-- Whether the argument must be given. -/
def isRequired (a : Argument) : Bool :=
  a.default.isNone

/-- Whether this is the mark after which arguments must be given by name. -/
def isKeywordMark (a : Argument) : Bool :=
  a.name = "" && a.stars = .one

/-- The text of an argument in a signature. -/
def text (a : Argument) : String :=
  a.stars.text ++ a.name ++
    match a.type, a.default with
    | some type, some default => ": " ++ type.text ++ " = " ++ default
    | some type, Option.none => ": " ++ type.text
    | Option.none, some default => "=" ++ default
    | Option.none, Option.none => ""

end Argument

/-- The required arguments before the others, each in their order. -/
def requiredFirst (as : List Argument) : List Argument :=
  as.filter Argument.isRequired ++ as.filter (!·.isRequired)

/-- Arguments that must be given by name, if there are any. -/
def keywordOnly (as : List Argument) : List Argument :=
  if as.isEmpty then [] else .keywordMark :: as

/-- Adds an argument that must be given by name. -/
def addKeyword (as : List Argument) (a : Argument) : List Argument :=
  (if as.isEmpty then [.keywordMark] else as) ++ [a]

end ServiceStubs
