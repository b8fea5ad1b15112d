import Mathlib.Data.List.Forall2
import ServiceStubs.Proofs.Session.Known

/-!
# Forms of types and dictionaries

The type of a shape does not depend on the session but for the numbers of its
handles, so there is a form of it that needs no session.  The dictionary of a
record shape is described by the shape: its fields are the members, in order, and
their types have the forms of the members.

## Main definitions

* `Service.shapeForm`, `Service.memberForm` — the types of shapes and members,
  without the numbers of their handles.
* `Service.Describes`, `Service.FieldFor` — the record shape behind a dictionary,
  and the field for one of its members.
* `Service.Fresh` — the dictionaries that shapes describe.
* `isReserved_dictName` — no shape's dictionary has a reserved name.
-/

namespace ServiceStubs

/-! ## Reserved names -/

theorem isReserved_iff {name : String} : isReserved name ↔ ∃ d : FixedDict, d.name = name := by
  simp only [isReserved, List.any_eq_true, decide_eq_true_eq]
  constructor
  · rintro ⟨d, -, hd⟩
    exact ⟨d, hd⟩
  · rintro ⟨d, hd⟩
    exact ⟨d, by cases d <;> decide, hd⟩

/-- What is left of a reserved name without its ending. -/
def FixedDict.stem : FixedDict → String
  | paginatorConfig => "PaginatorConfig"
  | waiterConfig => "WaiterConfig"
  | responseMetadata => "ResponseMetadata"
  | copySource => "CopySource"

theorem FixedDict.name_eq (d : FixedDict) : d.name = d.stem ++ dictEnding := by
  cases d <;> decide

/-- **No shape gives its dictionary a reserved name.** -/
theorem isReserved_dictName (shape : String) : isReserved (dictName shape) = false := by
  unfold dictName
  split
  · next h =>
      obtain ⟨d, hd⟩ := isReserved_iff.mp h
      have hshape : d.stem = shape := (String.append_left_inj _).mp (d.name_eq ▸ hd)
      subst hshape
      cases d <;> decide
  · next h => simpa using h

namespace Service

variable (svc : Service)

/-! ## Forms -/

/-- The form of the type of a reference, or the default when there is none or its
shape is not declared. -/
def refForm (form : Position → String → TypeExpr) (position : Position)
    (ref : Option Schema.ShapeRef) (default : TypeExpr) : TypeExpr :=
  match ref with
  | some ref => if svc.model.shapes.contains ref.shape then form position ref.shape else default
  | none => default

/-- The form of the type of a shape, given the forms of its parts. -/
def formWith (partForm : Position → String → TypeExpr) (position : Position) (name : String) :
    TypeExpr :=
  match svc.model.shapes.get? name with
  | none => svc.unknownType name
  | some shape =>
    match shape.kind with
    | .integer | .long => .int
    | .boolean => .bool
    | .double | .float => .float
    | .timestamp => .datetime
    | .blob => blobType shape.streaming position
    | .string => if shape.choices.isEmpty then .str else .literal shape.choices
    | .list => .listOf (svc.refForm partForm position shape.member .any)
    | .map =>
      .dictOf (svc.refForm partForm position shape.key .str)
        (svc.refForm partForm position shape.value .any)
    | .record => if shape.members.isEmpty then .looseDict else .dict ⟨0, dictName name⟩
    | .other tag => svc.unknownType tag

/-- The form of the type of a shape, when parts are followed at most `depth`
deep. -/
def formWithin : (depth : Nat) → Position → String → TypeExpr
  | 0 => fun _ _ => .any
  | depth + 1 => svc.formWith (formWithin depth)

/-- The form of the type of a shape: the type without the numbers of its
handles, which needs no session. -/
def shapeForm (position : Position) (name : String) : TypeExpr :=
  svc.formWithin svc.depthLimit position name

/-- The form of the type of a member. -/
def memberForm (position : Position) (ref : Schema.ShapeRef) : TypeExpr :=
  svc.refForm svc.shapeForm position (some ref) .any

/-! ## Dictionaries of shapes -/

/-- The record shape of this name has members, and gives its dictionary the name
`n`. -/
structure Describes (shapeName : String) (shape : Schema.Shape) (n : String) : Prop where
  declared : svc.model.shapes.get? shapeName = some shape
  record : shape.kind = .record
  nonempty : shape.members.isEmpty = false
  name : dictName shapeName = n

/-- The field for a member of a record shape. -/
structure FieldFor (s : Session) (position : Position) (shape : Schema.Shape)
    (member : String × Schema.ShapeRef) (f : Field) : Prop where
  name : f.name = member.1
  required : f.required = shape.isRequired member.1
  form : f.type.skeleton = svc.memberForm position member.2
  known : svc.Known s f.type

/-- The dictionary of the name `n` as a shape of that name describes it: all its
fields, translated in the given position, and nothing else. -/
def Fresh (s : Session) (position : Position) (n : String) (d : TypedDict) : Prop :=
  ∃ shapeName shape, svc.Describes shapeName shape n ∧ d.name = n ∧
    d.docstring = shape.documentation.map Text.plain ∧
    List.Forall₂ (svc.FieldFor s position shape) shape.members.entries d.fields

variable {svc} {s t u : Session}

theorem FieldFor.mono {position : Position} {shape : Schema.Shape}
    {member : String × Schema.ShapeRef} {f : Field}
    (h : svc.FieldFor s position shape member f) (hst : ∀ r, s.Has r → t.Has r) :
    svc.FieldFor t position shape member f :=
  { h with known := h.known.mono hst }

theorem Fresh.mono {position : Position} {n : String} {d : TypedDict}
    (h : svc.Fresh s position n d) (hst : ∀ r, s.Has r → t.Has r) :
    svc.Fresh t position n d := by
  obtain ⟨shapeName, shape, hshape, hname, hdoc, hfields⟩ := h
  exact ⟨shapeName, shape, hshape, hname, hdoc, hfields.imp fun _ _ h => h.mono hst⟩

end Service

end ServiceStubs
