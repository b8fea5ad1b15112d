import ServiceStubs.Documentation.Method
import ServiceStubs.Proofs.Session.Table
import ServiceStubs.Proofs.TypeExpr.Nodes

/-!
# What types of a session refer to

A type that a session makes refers to dictionaries of the session, to classes of
a fixed list of other packages, to classes that the documentation of the service
names, and to resources of the service; to nothing else.

## Main definitions

* `Schema.Names` — the documentation names a class of another package.
* `libraryNames` — the classes of other packages that stubs use by themselves.
* `Service.Known` — every part of a type refers to one of these.
-/

namespace ServiceStubs

open Documentation

/-- The types that a documentation names. -/
def Documentation.MethodInfo.types (info : MethodInfo) : List TypeExpr :=
  info.arguments.map (·.type) ++ info.returnType.toList

/-- Some readable documentation of the schema names the class `name` of the
module `source`. -/
def Schema.Names (s : Schema) (source name : String) : Prop :=
  ∃ text ∈ s.documentation.values, ∃ info, MethodInfo.ofText s.resourceNames text = .ok info ∧
    ∃ a ∈ info.types, .external ⟨source⟩ name none ∈ a.nodes

/-- The classes of other packages that stubs use by themselves, each with its
module. -/
def libraryNames : List (String × String) :=
  [("datetime", "datetime"), ("botocore.response", "StreamingBody"), ("typing", "overload"),
    ("botocore.client", "BaseClient"), ("botocore.client", "ClientMeta"),
    ("botocore.errorfactory", "BaseClientExceptions"), ("botocore.paginate", "Paginator"),
    ("botocore.waiter", "Waiter"), ("boto3.resources.collection", "ResourceCollection"),
    ("boto3.resources.base", "ServiceResource"), ("boto3.resources.base", "ResourceMeta"),
    ("boto3.session", "Session"), ("botocore.config", "Config")]

namespace Service

/-- What the head of a type may refer to. -/
def KnownHead (svc : Service) (s : Session) : TypeExpr → Prop
  | .scalar _ | .literal _ | .subscript _ _ => True
  | .dict ref => s.Has ref
  | .external source name asName =>
    asName = none ∧ ((source.path, name) ∈ libraryNames ∨ svc.schema.Names source.path name)
  | .internal name module =>
    module = some (.inPackage TypeExpr.resourceModule) ∧ name ∈ svc.resourceNames

/-- Every part of a type refers to something that the session, the library or
the service has. -/
def Known (svc : Service) (s : Session) (a : TypeExpr) : Prop :=
  ∀ t ∈ a.nodes, svc.KnownHead s t

variable {svc : Service} {s t : Session}

/-! ## Parts -/

@[simp] theorem known_scalar (c : Scalar) : svc.Known s (.scalar c) := by
  simp [Known, KnownHead]

@[simp] theorem known_literal (values : List String) : svc.Known s (.literal values) := by
  simp [Known, KnownHead]

@[simp] theorem known_dict (ref : DictRef) : svc.Known s (.dict ref) ↔ s.Has ref := by
  simp [Known, KnownHead]

@[simp] theorem known_internal (name : String) (module : Option ModulePath) :
    svc.Known s (.internal name module) ↔
      module = some (.inPackage TypeExpr.resourceModule) ∧ name ∈ svc.resourceNames := by
  simp [Known, KnownHead]

@[simp] theorem known_subscript (g : Generic) (args : List TypeExpr) :
    svc.Known s (.subscript g args) ↔ ∀ a ∈ args, svc.Known s a := by
  simp only [Known, TypeExpr.mem_nodes_subscript]
  constructor
  · intro h a ha t ht
    exact h t (.inr ⟨a, ha, ht⟩)
  · rintro h t (rfl | ⟨a, ha, ht⟩)
    · trivial
    · exact h a ha t ht

theorem known_library {source name : String} (h : (source, name) ∈ libraryNames) :
    svc.Known s (.from? source name) := by
  simpa [Known, KnownHead, TypeExpr.from?] using Or.inl h

/-! ## Common types -/

@[simp] theorem known_any : svc.Known s .any := known_scalar _
@[simp] theorem known_none : svc.Known s .none := known_scalar _
@[simp] theorem known_int : svc.Known s .int := known_scalar _
@[simp] theorem known_str : svc.Known s .str := known_scalar _
@[simp] theorem known_bool : svc.Known s .bool := known_scalar _
@[simp] theorem known_float : svc.Known s .float := known_scalar _
@[simp] theorem known_bytes : svc.Known s .bytes := known_scalar _

@[simp] theorem known_datetime : svc.Known s .datetime := known_library (by decide)
@[simp] theorem known_streamingBody : svc.Known s .streamingBody := known_library (by decide)

@[simp] theorem known_listOf (a : TypeExpr) : svc.Known s (.listOf a) ↔ svc.Known s a := by
  simp [TypeExpr.listOf]

@[simp] theorem known_iteratorOf (a : TypeExpr) :
    svc.Known s (.iteratorOf a) ↔ svc.Known s a := by
  simp [TypeExpr.iteratorOf]

@[simp] theorem known_dictOf (a b : TypeExpr) :
    svc.Known s (.dictOf a b) ↔ svc.Known s a ∧ svc.Known s b := by
  simp [TypeExpr.dictOf]

@[simp] theorem known_looseDict : svc.Known s .looseDict := by
  simp [TypeExpr.looseDict]

@[simp] theorem known_blobInput : svc.Known s .blobInput := by
  simp [TypeExpr.blobInput, TypeExpr.unionOf]

@[simp] theorem known_resource {name : String} (h : name ∈ svc.resourceNames) :
    svc.Known s (.resource name) := by
  simpa [TypeExpr.resource, TypeExpr.inModule] using h

theorem known_unknownType (svc : Service) (s : Session) (name : String) :
    svc.Known s (svc.unknownType name) := by
  unfold unknownType
  split
  · rename_i h
    exact known_resource (by simpa using h)
  · exact known_any

/-- A type stays known while the session keeps its dictionaries. -/
theorem Known.mono {a : TypeExpr} (h : svc.Known s a) (hst : ∀ r, s.Has r → t.Has r) :
    svc.Known t a := by
  intro b hb
  have hhead := h b hb
  cases b with
  | dict ref => exact hst ref hhead
  | _ => exact hhead

end Service

end ServiceStubs
