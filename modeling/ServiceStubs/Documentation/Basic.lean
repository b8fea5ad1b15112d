import ServiceStubs.Declaration.Argument
import ServiceStubs.Documentation.Directive
import ServiceStubs.Documentation.Hint
import ServiceStubs.Text.Lines
import ServiceStubs.Text.Markup

/-!
# Method documentation

Method documentation describes a method and names its arguments, their types
and the type it returns:

    Copies an object.

    :type CopySource: dict
    :param CopySource: **[REQUIRED]** Source object.

    :rtype: None

The type of an argument may be given before or after the argument itself.

## Main definitions

* `MethodInfo` — what a documentation says.
* `DocError` — why a documentation cannot be used.
* `MethodInfo.ofText` — reads a documentation.
-/

namespace ServiceStubs.Documentation

open Text

/-- Why a documentation cannot be used. -/
inductive DocError
  /-- A directive that needs a name has none. -/
  | missingName (directive : String)
  /-- No type is given where one is announced. -/
  | emptyType (name : String)
  /-- A type is given for an argument that is not documented. -/
  | orphanType (name : String)
  deriving DecidableEq

/-- The words for an unusable documentation. -/
def DocError.message : DocError → String
  | missingName directive => "`:" ++ directive ++ ":` directive without an argument name"
  | emptyType name => "empty type hint for argument " ++ name
  | orphanType name => "type hint for undocumented argument " ++ name

/-- A documented argument. -/
structure ArgumentInfo where
  name : String
  type : TypeExpr := .any
  required : Bool

/-- The argument as it stands in a signature. -/
def ArgumentInfo.toArgument (a : ArgumentInfo) : Argument :=
  if a.required then .needed a.name a.type else .optional a.name a.type

/-- What a documentation says about a method. -/
structure MethodInfo where
  description : String := ""
  arguments : List ArgumentInfo := []
  returnType : Option TypeExpr := none

/-! ## Reading -/

/-- What has been read of a documentation: the lines of the description, the
arguments, and the type hints with the names of their arguments. -/
structure Reading where
  inDirectives : Bool := false
  description : List (List Char) := []
  arguments : List ArgumentInfo := []
  hints : List (String × String) := []
  returnType : Option TypeExpr := none

namespace Reading

/-- Adds an argument unless it is known already.  It is required if the text
says so between brackets. -/
def addArgument (r : Reading) (name rest : String) : Reading :=
  if r.arguments.any (·.name = name) then r
  else
    let required := occursIn "[REQUIRED]".toList rest.toList
    { r with arguments := r.arguments ++ [{ name, required }] }

/-- Takes in one directive. -/
def addDirective (resources : List String) (r : Reading) (d : Directive) :
    Except DocError Reading :=
  let r := { r with inDirectives := true }
  match d.kind, d.name with
  | .param, none => .error (.missingName "param")
  | .param, some name => .ok (r.addArgument name d.rest)
  | .type, none => .error (.missingName "type")
  | .type, some name =>
    if d.rest = "" then .error (.emptyType name)
    else .ok { r with hints := r.hints ++ [(name, d.rest)] }
  | .returnType, _ =>
    if d.rest = "" then .ok r
    else .ok { r with returnType := some (typeOfHint resources d.rest) }
  | .remark, _ => .ok r

/-- Takes in one line.  Lines before the first directive are description. -/
def addLine (resources : List String) (r : Reading) (line : List Char) :
    Except DocError Reading :=
  match Directive.ofLine? line with
  | some d => r.addDirective resources d
  | none =>
    if r.inDirectives || line.isEmpty then .ok r
    else .ok { r with description := r.description ++ [line] }

end Reading

/-- Gives the first argument of a name its type. -/
def giveType (resources : List String) (as : List ArgumentInfo) (hint : String × String) :
    Except DocError (List ArgumentInfo) :=
  if as.any (·.name = hint.1) then
    .ok (as.map fun a =>
      if a.name = hint.1 then { a with type := typeOfHint resources hint.2 } else a)
  else .error (.orphanType hint.1)

/-- Reads a documentation, given the names of the resources. -/
def MethodInfo.ofText (resources : List String) (text : String) : Except DocError MethodInfo := do
  let r ← ((lines text.toList).map trim).foldlM (Reading.addLine resources) {}
  let arguments ← r.hints.foldlM (giveType resources) r.arguments
  return {
    description := plain (String.ofList ([' '].intercalate r.description))
    arguments
    returnType := r.returnType }

end ServiceStubs.Documentation
