import ServiceStubs.Collection.OrderedMap
import ServiceStubs.Json.Value
import ServiceStubs.ServiceName

/-!
# Service schemas

A schema describes one service: its operations and the shapes of their data,
how its operations are paged through and waited on, its resources, and the
documentation of its methods.

Shapes refer to each other by name.  A reference need not resolve, and shapes
may refer to each other in circles.

## Main definitions

* `Shape`, `ShapeRef`, `Operation`, `Model` — the service model.
* `PagingRule`, `WaitingRule` — paginators and waiters.
* `ResourceModel` and its parts — the resources.
* `Schema` — a whole schema.
-/

namespace ServiceStubs.Schema

/-! ## The service model -/

/-- What a shape is a shape of. -/
inductive ShapeKind
  | integer
  | long
  | boolean
  | double
  | float
  | timestamp
  | blob
  | string
  | list
  | map
  | record
  /-- A kind that has no data type of its own. -/
  | other (tag : String)
  deriving DecidableEq

namespace ShapeKind

/-- The kinds that have a tag of their own, with their tags. -/
def tags : List (String × ShapeKind) :=
  [("integer", integer), ("long", long), ("boolean", boolean), ("double", double),
    ("float", float), ("timestamp", timestamp), ("blob", blob), ("string", string),
    ("list", list), ("map", map), ("structure", record)]

/-- The kind of a tag. -/
def ofTag (tag : String) : ShapeKind :=
  (tags.lookup tag).getD (other tag)

/-- The tag of a kind. -/
def tag : ShapeKind → String
  | integer => "integer"
  | long => "long"
  | boolean => "boolean"
  | double => "double"
  | float => "float"
  | timestamp => "timestamp"
  | blob => "blob"
  | string => "string"
  | list => "list"
  | map => "map"
  | record => "structure"
  | other tag => tag

end ShapeKind

/-- A reference to a shape. -/
structure ShapeRef where
  shape : String
  documentation : Option String := none
  deriving DecidableEq

/-- The description of one data type.  Which parts count depends on the kind:
`members` and `required` for a record, `choices` for a string, `key` and
`value` for a map, `member` for a list, `streaming` for a blob. -/
structure Shape where
  kind : ShapeKind
  members : OrderedMap ShapeRef := ∅
  required : List String := []
  choices : List String := []
  key : Option ShapeRef := none
  value : Option ShapeRef := none
  member : Option ShapeRef := none
  documentation : Option String := none
  streaming : Bool := false
  deriving DecidableEq

/-- Whether a member must be given. -/
def Shape.isRequired (s : Shape) (member : String) : Bool :=
  s.required.contains member

/-- One operation of the service. -/
structure Operation where
  input : Option ShapeRef := none
  output : Option ShapeRef := none
  documentation : Option String := none
  deriving DecidableEq

/-- The operations of the service and the shapes of their data. -/
structure Model where
  operations : OrderedMap Operation := ∅
  shapes : OrderedMap Shape := ∅
  deriving DecidableEq

/-- Equality up to the order of operations, shapes and members. -/
def Model.same (m n : Model) : Bool :=
  m.operations.sameEntries (· == ·) n.operations
    && m.shapes.sameEntries (fun s t =>
      s.members.sameEntries (· == ·) t.members && s == { t with members := s.members }) n.shapes

/-! ## Paginators and waiters -/

/-- The inputs that say where to go on: one, or several. -/
inductive InputToken
  | single (name : String)
  | several (names : List String)
  deriving DecidableEq

/-- The names of the inputs that say where to go on. -/
def InputToken.names : InputToken → List String
  | single name => [name]
  | several names => names

/-- How to page through the results of an operation. -/
structure PagingRule where
  inputToken : InputToken
  limitKey : Option String := none
  outputToken : Option JsonValue := none
  resultKey : Option JsonValue := none

/-- How to wait for a state that an operation shows. -/
structure WaitingRule where
  operation : String
  delay : Option Nat := none
  maxAttempts : Option Nat := none
  deriving DecidableEq

/-! ## Resources -/

/-- Where the value of a parameter comes from. -/
inductive ParamSource
  | identifier
  | input
  | data
  | requestParameter
  | response
  | responsePath
  | string
  | integer
  | boolean
  | other
  deriving DecidableEq

namespace ParamSource

/-- The sources with their names. -/
def names : List (String × ParamSource) :=
  [("identifier", identifier), ("input", input), ("data", data),
    ("requestParameter", requestParameter), ("response", response),
    ("responsePath", responsePath), ("string", string), ("integer", integer),
    ("boolean", boolean)]

/-- The source of a name; a name that is not known is some other source. -/
def ofName (name : String) : ParamSource :=
  (names.lookup name).getD other

/-- The name of a source. -/
def name : ParamSource → String
  | identifier => "identifier"
  | input => "input"
  | data => "data"
  | requestParameter => "requestParameter"
  | response => "response"
  | responsePath => "responsePath"
  | string => "string"
  | integer => "integer"
  | boolean => "boolean"
  | other => "other"

end ParamSource

/-- What fills one argument of a request, or one identifier of a resource. -/
structure Param where
  target : String
  source : ParamSource
  name : Option String := none
  path : Option String := none
  deriving DecidableEq

/-- The call of an operation. -/
structure Request where
  operation : String
  params : List Param := []
  deriving DecidableEq

/-- The arguments that are filled from the identifiers of the resource. -/
def Request.identifierTargets (r : Request) : List String :=
  (r.params.filter (·.source = .identifier)).map (·.target)

/-- The resource that something yields. -/
structure ResourceTarget where
  type : String
  identifiers : List Param := []
  path : Option String := none
  deriving DecidableEq

/-- Whether several resources are yielded, which a path ending in `[]` says. -/
def ResourceTarget.isList (t : ResourceTarget) : Bool :=
  t.path.any fun p => ['[', ']'].isSuffixOf p.toList

/-- An action of a resource, or one of its collections. -/
structure Action where
  request : Option Request := none
  resource : Option ResourceTarget := none
  path : Option String := none
  deriving DecidableEq

/-- A relation of a resource to one other resource. -/
structure Relation where
  resource : ResourceTarget
  deriving DecidableEq

/-- A waiter of a resource, which is a waiter of the client with some arguments
filled. -/
structure ResourceWaiter where
  waiterName : String
  params : List Param := []
  deriving DecidableEq

/-- An identifier of a resource. -/
structure Identifier where
  name : String
  deriving DecidableEq

/-- A resource, or the service resource. -/
structure ResourceModel where
  identifiers : List Identifier := []
  shape : Option String := none
  load : Option Action := none
  actions : OrderedMap Action := ∅
  batchActions : OrderedMap Action := ∅
  has : OrderedMap Relation := ∅
  hasMany : OrderedMap Action := ∅
  waiters : OrderedMap ResourceWaiter := ∅
  deriving DecidableEq

/-- The resources of a service. -/
structure Resources where
  service : ResourceModel := {}
  resources : OrderedMap ResourceModel := ∅
  deriving DecidableEq

end ServiceStubs.Schema

namespace ServiceStubs

/-! ## Schemas -/

/-- The description of one service. -/
structure Schema where
  serviceName : String
  className : String
  model : Schema.Model
  paginators : OrderedMap Schema.PagingRule := ∅
  waiters : OrderedMap Schema.WaitingRule := ∅
  resources : Option Schema.Resources := none
  documentation : OrderedMap String := ∅

/-- The names of the service. -/
def Schema.service (s : Schema) : ServiceName :=
  ⟨s.serviceName, s.className⟩

end ServiceStubs
