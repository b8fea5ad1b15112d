import ServiceStubs.Session.FixedDict
import ServiceStubs.Text.Markup

/-!
# Types of shapes

A shape becomes a type expression.  A record shape with members becomes a typed
dictionary, of which there is one per session: it is entered under its name
before the types of its members are asked for, so a shape that refers back to
itself meets its own dictionary.

Bytes are written one way where they are taken and another way where they are
returned; the position says which.

There are two ways down from a shape: through the parts of lists and maps, of
which a model whose lists and maps do not contain themselves has each at most
once in a row, and through the members of a dictionary that is made, of which
there is one per name.  Each way has a limit of its own, and every dictionary
starts the first one anew: so the fields of a dictionary do not depend on how
deep in another type it was first met.

## Main definitions

* `Position` — where a shape is used.
* `dictName` — the name of the dictionary of a shape.
* `Service.shapeTypeWith` — the type of a shape, given those of the shapes that
  it refers to.
* `Service.shapeTypeWithin`, `Service.shapeTypeOpening`, `Service.shapeType` —
  the type of a shape.
* `Service.returnType` — the type that an operation returns.
-/

namespace ServiceStubs

/-- Where a shape is used: in what is sent, or in what is returned. -/
inductive Position
  | input
  | output
  deriving DecidableEq

/-- The end of the name of a dictionary. -/
def dictEnding : String := "TypeDef"

/-- The name of the dictionary of a shape.  A shape whose dictionary would take
a reserved name gives it a longer one. -/
def dictName (shape : String) : String :=
  if isReserved (shape ++ dictEnding) then shape ++ "Shape" ++ dictEnding
  else shape ++ dictEnding

/-- The types of bytes in the two positions. -/
def blobType (streaming : Bool) : Position → TypeExpr
  | .input => .blobInput
  | .output => if streaming then .streamingBody else .bytes

/-- Enters a new dictionary of a shape and returns its handle. -/
def Session.openDict (name : String) (docstring : Option String) : SessionM DictRef :=
  modifyGet fun s =>
    let (ref, store) := s.store.add { name, docstring }
    let (ref, shapes) := s.shapes.enter ref
    (ref, { s with store, shapes })

/-- Adds a field to a dictionary. -/
def Session.addField (ref : DictRef) (f : Field) : SessionM Unit :=
  modify fun s => { s with store := s.store.addField ref f }

namespace Service

/-- The type of a kind or shape that is not known: a resource of that name, or
anything. -/
def unknownType (svc : Service) (name : String) : TypeExpr :=
  if svc.resourceNames.contains name then .resource name else .any

/-- The type of a reference, or the default when there is none or its shape is
not declared. -/
def refType (svc : Service) (typeOf : Position → String → SessionM TypeExpr)
    (position : Position) (ref : Option Schema.ShapeRef) (default : TypeExpr) :
    SessionM TypeExpr :=
  match ref with
  | some ref => if svc.model.shapes.contains ref.shape then typeOf position ref.shape
    else pure default
  | none => pure default

/-- Adds the field for a member of a record shape to its dictionary. -/
def addMember (svc : Service) (typeOf : Position → String → SessionM TypeExpr)
    (position : Position) (shape : Schema.Shape) (ref : DictRef)
    (member : String × Schema.ShapeRef) : SessionM Unit := do
  let type ← svc.refType typeOf position (some member.2) .any
  Session.addField ref ⟨member.1, type, shape.isRequired member.1⟩

/-- The dictionary of a record shape with members. -/
def recordType (svc : Service) (typeOf : Position → String → SessionM TypeExpr)
    (position : Position) (name : String) (shape : Schema.Shape) : SessionM TypeExpr := do
  match (← get).shapes.find? (dictName name) with
  | some ref => return .dict ref
  | none =>
    let ref ← Session.openDict (dictName name) (shape.documentation.map Text.plain)
    shape.members.entries.forM (svc.addMember typeOf position shape ref)
    return .dict ref

/-- The type of a shape, given those of the shapes that it refers to as parts
(`partType`) and as members (`memberType`). -/
def shapeTypeWith (svc : Service) (partType memberType : Position → String → SessionM TypeExpr)
    (position : Position) (name : String) : SessionM TypeExpr :=
  match svc.model.shapes.get? name with
  | none => pure (svc.unknownType name)
  | some shape =>
    match shape.kind with
    | .integer | .long => pure .int
    | .boolean => pure .bool
    | .double | .float => pure .float
    | .timestamp => pure .datetime
    | .blob => pure (blobType shape.streaming position)
    | .string => pure (if shape.choices.isEmpty then .str else .literal shape.choices)
    | .list => do return .listOf (← svc.refType partType position shape.member .any)
    | .map => do
      let key ← svc.refType partType position shape.key .str
      let value ← svc.refType partType position shape.value .any
      return .dictOf key value
    | .record =>
      if shape.members.isEmpty then pure .looseDict
      else svc.recordType memberType position name shape
    | .other tag => pure (svc.unknownType tag)

/-- The type of a shape, when the parts of lists and maps are followed at most
`depth` deep. -/
def shapeTypeWithin (svc : Service) (memberType : Position → String → SessionM TypeExpr) :
    (depth : Nat) → Position → String → SessionM TypeExpr
  | 0 => fun _ _ => pure .any
  | depth + 1 => svc.shapeTypeWith (svc.shapeTypeWithin memberType depth) memberType

/-- How deep the parts of lists and maps are followed: a model whose lists and
maps do not contain themselves has every shape at most once on such a way. -/
def depthLimit (svc : Service) : Nat :=
  svc.model.shapes.size + 1

/-- The type of a shape, when at most `dicts` dictionaries are made inside each
other. -/
def shapeTypeOpening (svc : Service) : (dicts : Nat) → Position → String → SessionM TypeExpr
  | 0 => fun _ _ => pure .any
  | dicts + 1 => svc.shapeTypeWithin (svc.shapeTypeOpening dicts) svc.depthLimit

/-- The type of a shape.  Dictionaries that are made inside each other have
different names, so there are no more of them than shapes. -/
def shapeType (svc : Service) (position : Position) (name : String) : SessionM TypeExpr :=
  svc.shapeTypeOpening (svc.model.shapes.size + 1) position name

/-- The type of a member, which is that of anything when its shape is not
declared. -/
def memberType (svc : Service) (position : Position) (ref : Schema.ShapeRef) :
    SessionM TypeExpr :=
  svc.refType svc.shapeType position (some ref) .any

/-- The member that says something about a response itself. -/
def metadataField : String := "ResponseMetadata"

/-- Adds to a dictionary that is returned what every response says about
itself, unless it has a field of that name. -/
def addMetadata (ref : DictRef) : SessionM Unit := do
  unless ((← get).store.get ref).hasField metadataField do
    let type ← Session.fixedDict .responseMetadata
    Session.addField ref ⟨metadataField, type, true⟩

/-- The type that an operation returns. -/
def returnType (svc : Service) (o : Schema.Operation) : SessionM TypeExpr := do
  match o.output with
  | none => return .looseDict
  | some output =>
    let type ← svc.shapeType .output output.shape
    match type with
    | .dict ref => addMetadata ref
    | _ => pure ()
    return type

end Service

end ServiceStubs
