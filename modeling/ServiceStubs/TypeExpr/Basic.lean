import ServiceStubs.Import.Basic

/-!
# Type expressions

The type expressions of stub modules.  Their text is what tells two of them
apart: a type that is written the same way is the same type.

A typed dictionary is referred to by a handle.  The handle carries the name,
which never changes; the fields are kept in a store (`TypeExpr/Store`),
because they may be added to, and refer back, after the handle was given out.

## Main definitions

* `Scalar`, `Generic`, `DictRef`, `TypeExpr` — the expressions.
* `TypeExpr.text` — the text.
* `TypeExpr.nodes` — an expression with all its parts.
* `TypeExpr.addArg?`, `TypeExpr.removeArgs?` — changes of parameters.
* `TypeExpr.imports` — what must be imported to write it.
-/

namespace ServiceStubs

/-- The types that are a plain name. -/
inductive Scalar
  | int
  | str
  | bool
  | float
  | bytes
  | none
  | any
  deriving DecidableEq

/-- The name of a plain type. -/
def Scalar.text : Scalar → String
  | int => "int"
  | str => "str"
  | bool => "bool"
  | float => "float"
  | bytes => "bytes"
  | none => "None"
  | any => "Any"

/-- The types that take parameters. -/
inductive Generic
  | list
  | dict
  | union
  | optional
  | iterator
  | sequence
  | fileLike
  deriving DecidableEq

/-- The name of a type that takes parameters. -/
def Generic.text : Generic → String
  | list => "List"
  | dict => "Dict"
  | union => "Union"
  | optional => "Optional"
  | iterator => "Iterator"
  | sequence => "Sequence"
  | fileLike => "IO"

/-- The types that take parameters. -/
def Generic.all : List Generic :=
  [list, dict, union, optional, iterator, sequence, fileLike]

/-- The handle of a typed dictionary. -/
structure DictRef where
  id : Nat
  name : String
  deriving DecidableEq

/-- A type expression. -/
inductive TypeExpr
  | scalar (s : Scalar)
  /-- One of some strings. -/
  | literal (values : List String)
  | subscript (generic : Generic) (args : List TypeExpr)
  | dict (ref : DictRef)
  /-- A type of another package, under an alias if it has one. -/
  | external (source : ModulePath) (name : String) (asName : Option String)
  /-- A type of the generated package: of the given module, or of the module
  where it is used. -/
  | internal (name : String) (module : Option ModulePath)

namespace TypeExpr

/-! ## Common expressions -/

def int : TypeExpr := .scalar .int
def str : TypeExpr := .scalar .str
def bool : TypeExpr := .scalar .bool
def float : TypeExpr := .scalar .float
def bytes : TypeExpr := .scalar .bytes
def none : TypeExpr := .scalar .none
def any : TypeExpr := .scalar .any

/-- A type of another package. -/
def from? (source name : String) : TypeExpr := .external ⟨source⟩ name Option.none

/-- The type of points in time. -/
def datetime : TypeExpr := from? "datetime" "datetime"

/-- The type of response bodies that are read bit by bit. -/
def streamingBody : TypeExpr := from? "botocore.response" "StreamingBody"

/-- The mark of one of several signatures. -/
def overload : TypeExpr := from? "typing" "overload"

/-- A type of the module where it is used. -/
def named (name : String) : TypeExpr := .internal name Option.none

/-- A type of a module of the generated package. -/
def inModule (name module : String) : TypeExpr := .internal name (some (.inPackage module))

/-- The module of the generated package that declares the resources. -/
def resourceModule : String := "service_resource"

/-- A resource of the service. -/
def resource (name : String) : TypeExpr := inModule name resourceModule

/-- A list of items of a type. -/
def listOf (item : TypeExpr) : TypeExpr := .subscript .list [item]

/-- A dictionary with keys and values of two types. -/
def dictOf (key value : TypeExpr) : TypeExpr := .subscript .dict [key, value]

/-- A dictionary of which only the keys are known to be strings. -/
def looseDict : TypeExpr := dictOf str any

/-- One of several types. -/
def unionOf (variants : List TypeExpr) : TypeExpr := .subscript .union variants

/-- A type or no value. -/
def optionalOf (a : TypeExpr) : TypeExpr := .subscript .optional [a]

/-- What yields items of a type. -/
def iteratorOf (item : TypeExpr) : TypeExpr := .subscript .iterator [item]

/-- What is accepted as a stretch of bytes. -/
def blobInput : TypeExpr :=
  unionOf [bytes, .subscript .fileLike [bytes], streamingBody]

/-! ## Text -/

/-- A string between double quotes, with quotes and backslashes escaped. -/
def quoteValue (s : String) : String :=
  String.ofList ('"' :: s.toList.flatMap
    (fun c => if c = '\\' then ['\\', '\\'] else if c = '"' then ['\\', '"'] else [c]) ++ ['"'])

mutual

/-- The text of an expression. -/
def text : TypeExpr → String
  | .scalar s => s.text
  | .literal values => "Literal[" ++ ", ".intercalate (values.map quoteValue) ++ "]"
  | .subscript g args =>
    if args.isEmpty then g.text else g.text ++ "[" ++ ", ".intercalate (texts args) ++ "]"
  | .dict ref => ref.name
  | .external _ name asName => asName.getD name
  | .internal name _ => name

/-- The texts of some expressions. -/
def texts : List TypeExpr → List String
  | [] => []
  | a :: as => a.text :: texts as

end

/-- Whether two expressions are the same type. -/
def same (a b : TypeExpr) : Bool :=
  a.text = b.text

/-! ## Parts -/

mutual

/-- An expression and its parts, each before its own parts. -/
def nodes : TypeExpr → List TypeExpr
  | .scalar s => [.scalar s]
  | .literal values => [.literal values]
  | .subscript g args => .subscript g args :: nodesOf args
  | .dict ref => [.dict ref]
  | .external source name asName => [.external source name asName]
  | .internal name module => [.internal name module]

/-- Some expressions and their parts. -/
def nodesOf : List TypeExpr → List TypeExpr
  | [] => []
  | a :: as => a.nodes ++ nodesOf as

end

/-- Whether this is the type of anything. -/
def isAny : TypeExpr → Bool
  | .scalar .any => true
  | _ => false

/-- Whether this is the type of no value. -/
def isNone : TypeExpr → Bool
  | .scalar .none => true
  | _ => false

/-- Whether two expressions are one and the same typed dictionary, and not only
of the same name. -/
def sameInstance : TypeExpr → TypeExpr → Bool
  | .dict a, .dict b => a.id = b.id
  | _, _ => false

/-! ## Parameters

Only types that take parameters can be changed once they are made. -/

/-- The parameters of a type that takes some. -/
def args? : TypeExpr → Option (List TypeExpr)
  | .subscript _ args => some args
  | _ => Option.none

/-- A type with one more parameter. -/
def addArg? (arg : TypeExpr) : TypeExpr → Option TypeExpr
  | .subscript g args => some (.subscript g (args ++ [arg]))
  | _ => Option.none

/-- A type without the parameters that are the same as one of some others. -/
def removeArgs? (others : List TypeExpr) : TypeExpr → Option TypeExpr
  | .subscript g args => some (.subscript g (args.filter fun a => !others.any a.same))
  | _ => Option.none

/-! ## Imports -/

/-- The module of the generated package that declares the typed dictionaries. -/
def dictModule : String := "type_defs"

/-- What must be imported to write the head of an expression. -/
def headImport : TypeExpr → Import
  | .scalar .any => ⟨.typing, "Any", Option.none⟩
  | .scalar _ => .builtins
  | .literal _ => ⟨.typing, "Literal", Option.none⟩
  | .subscript g _ => ⟨.typing, g.text, Option.none⟩
  | .dict ref => .inPackage dictModule ref.name
  | .external source name asName => ⟨source, name, asName⟩
  | .internal name (some module) => ⟨module, name, Option.none⟩
  | .internal _ Option.none => .builtins

/-- What must be imported to write an expression.  The fields of a typed
dictionary are written elsewhere. -/
def imports (a : TypeExpr) : ImportSet :=
  ImportSet.addAll ∅ (a.nodes.map headImport)

end TypeExpr

end ServiceStubs
