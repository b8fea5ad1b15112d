import ServiceStubs.TypeExpr.Store
import ServiceStubs.Collection.OrderedMap
import ServiceStubs.Error
import ServiceStubs.Schema.Correction
import ServiceStubs.Schema.Lookup

/-!
# Sessions

All types of one service share one set of typed dictionaries, so that a name
stands for one dictionary throughout.  A session holds the dictionaries made so
far: those derived from shapes, and apart from them those that every service has.

## Main definitions

* `DictTable` — dictionaries by name; the first one of a name stays.
* `Session` — the dictionaries of one service.
* `Service` — a schema with its corrected model.
* `SessionM`, `Build` — steps in a session, the latter of which may fail.
-/

namespace ServiceStubs

/-! ## Tables of dictionaries -/

/-- Typed dictionaries by name. -/
structure DictTable where
  refs : OrderedMap DictRef := ∅

namespace DictTable

instance : EmptyCollection DictTable := ⟨{}⟩

/-- The dictionary of a name. -/
def find? (t : DictTable) (name : String) : Option DictRef :=
  t.refs.get? name

/-- Enters a dictionary under its name, and returns the one of that name: the
dictionary itself, or one that was entered before. -/
def enter (t : DictTable) (ref : DictRef) : DictRef × DictTable :=
  match t.find? ref.name with
  | some first => (first, t)
  | none => (ref, ⟨t.refs.insert ref.name ref⟩)

/-- The dictionary of a name, which is made and entered under its own name if
there is none. -/
def findOrMake (t : DictTable) (s : Store) (name : String) (d : TypedDict) :
    DictRef × DictTable × Store :=
  match t.find? name with
  | some ref => (ref, t, s)
  | none =>
    let (ref, s) := s.add d
    let (ref, t) := t.enter ref
    (ref, t, s)

/-- The names that are entered, in increasing order. -/
def names (t : DictTable) : List String :=
  t.refs.keys.mergeSort (fun a b => !(decide (b < a)))

end DictTable

/-! ## Sessions -/

/-- The typed dictionaries of one service: those derived from shapes by name,
those that every service has by name, and the store of them all. -/
structure Session where
  store : Store := ∅
  shapes : DictTable := ∅
  fixed : DictTable := ∅

/-- A service: its schema, and its model with the corrections that are always
made. -/
structure Service where
  schema : Schema
  model : Schema.Model
  model_eq : model = schema.model.corrected schema.serviceName := by rfl

namespace Service

/-- The service of a schema. -/
def ofSchema (s : Schema) : Service where
  schema := s
  model := s.model.corrected s.serviceName

/-- The operation of a name, as corrected. -/
def operation (svc : Service) (name : String) : Except Error Schema.Operation :=
  svc.model.operations.lookup svc.schema.serviceName .operation name

/-- The names of the resources. -/
def resourceNames (svc : Service) : List String :=
  svc.schema.resourceNames

end Service

/-! ## Steps -/

/-- A step in a session. -/
abbrev SessionM := StateM Session

/-- A step in a session that may fail. -/
abbrev Build := ExceptT Error SessionM

/-- A step that only looks something up. -/
def Build.ofExcept {α : Type} (r : Except Error α) : Build α :=
  ExceptT.mk (pure r)

end ServiceStubs
