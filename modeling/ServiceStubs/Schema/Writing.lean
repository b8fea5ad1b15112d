import ServiceStubs.Json.Printer
import ServiceStubs.Json.Record
import ServiceStubs.Schema.Basic

/-!
# Writing schemas

The JSON records of a schema, field by field in the order in which
`Schema/Reading` lists them.  A reference and a shape leave out the fields that
say nothing; every other record writes all its fields, with null for an optional
one that is not there.

## Main definitions

* `Model.toJson`, `Schema.toJson` — a service model, and a whole schema.
* `Model.text`, `Schema.text` — their compact texts.
-/

namespace ServiceStubs

/-- The object of an ordered map. -/
def OrderedMap.toJson {α : Type} (f : α → Json) (m : OrderedMap α) : Json :=
  .record (m.entries.map fun (k, v) => (k, f v))

namespace Schema

/-- A field that is there only if it says something. -/
def shownIf (shown : Bool) (name : String) (j : Json) : List (String × Json) :=
  if shown then [(name, j)] else []

/-- A field that is there only if it has a value. -/
def shownIfSome {α : Type} (name : String) (f : α → Json) (a : Option α) :
    List (String × Json) :=
  a.toList.map fun a => (name, f a)

/-! ## The service model -/

/-- The record of a reference to a shape. -/
def ShapeRef.toJson (r : ShapeRef) : Json :=
  .record ([("shape", .text r.shape)] ++ shownIfSome "documentation" .text r.documentation)

/-- The record of a shape. -/
def Shape.toJson (s : Shape) : Json :=
  .record ([("type", .text s.kind.tag)]
    ++ shownIf (!s.members.isEmpty) "members" (s.members.toJson ShapeRef.toJson)
    ++ shownIf (!s.required.isEmpty) "required" (.texts s.required)
    ++ shownIf (!s.choices.isEmpty) "enum" (.texts s.choices)
    ++ shownIfSome "key" ShapeRef.toJson s.key
    ++ shownIfSome "value" ShapeRef.toJson s.value
    ++ shownIfSome "member" ShapeRef.toJson s.member
    ++ shownIfSome "documentation" .text s.documentation
    ++ shownIf s.streaming "streaming" (.bool true))

/-- The record of an operation. -/
def Operation.toJson (o : Operation) : Json :=
  .record [("input", .ofOption ShapeRef.toJson o.input),
    ("output", .ofOption ShapeRef.toJson o.output),
    ("documentation", .ofOption .text o.documentation)]

/-- The record of a service model. -/
def Model.toJson (m : Model) : Json :=
  .record [("operations", m.operations.toJson Operation.toJson),
    ("shapes", m.shapes.toJson Shape.toJson)]

/-- The text of a service model. -/
def Model.text (m : Model) : String :=
  m.toJson.compact

/-! ## Paginators and waiters -/

/-- One name, or a list of names. -/
def InputToken.toJson : InputToken → Json
  | single name => .text name
  | several names => .texts names

/-- The record of a paging rule. -/
def PagingRule.toJson (r : PagingRule) : Json :=
  .record [("input_token", r.inputToken.toJson),
    ("limit_key", .ofOption .text r.limitKey),
    ("output_token", .ofOption JsonValue.toJson r.outputToken),
    ("result_key", .ofOption JsonValue.toJson r.resultKey)]

/-- The record of a waiting rule. -/
def WaitingRule.toJson (r : WaitingRule) : Json :=
  .record [("operation", .text r.operation),
    ("delay", .ofOption .nat r.delay),
    ("maxAttempts", .ofOption .nat r.maxAttempts)]

/-! ## Resources -/

/-- The record of a parameter. -/
def Param.toJson (p : Param) : Json :=
  .record [("target", .text p.target),
    ("source", .text p.source.name),
    ("name", .ofOption .text p.name),
    ("path", .ofOption .text p.path)]

/-- The record of a request. -/
def Request.toJson (r : Request) : Json :=
  .record [("operation", .text r.operation),
    ("params", .list (r.params.map Param.toJson))]

/-- The record of the resource that something yields. -/
def ResourceTarget.toJson (t : ResourceTarget) : Json :=
  .record [("type", .text t.type),
    ("identifiers", .list (t.identifiers.map Param.toJson)),
    ("path", .ofOption .text t.path)]

/-- The record of an action. -/
def Action.toJson (a : Action) : Json :=
  .record [("request", .ofOption Request.toJson a.request),
    ("resource", .ofOption ResourceTarget.toJson a.resource),
    ("path", .ofOption .text a.path)]

/-- The record of a relation. -/
def Relation.toJson (r : Relation) : Json :=
  .record [("resource", r.resource.toJson)]

/-- The record of a waiter of a resource. -/
def ResourceWaiter.toJson (w : ResourceWaiter) : Json :=
  .record [("waiterName", .text w.waiterName),
    ("params", .list (w.params.map Param.toJson))]

/-- The record of an identifier. -/
def Identifier.toJson (i : Identifier) : Json :=
  .record [("name", .text i.name)]

/-- The record of a resource. -/
def ResourceModel.toJson (r : ResourceModel) : Json :=
  .record [("identifiers", .list (r.identifiers.map Identifier.toJson)),
    ("shape", .ofOption .text r.shape),
    ("load", .ofOption Action.toJson r.load),
    ("actions", r.actions.toJson Action.toJson),
    ("batchActions", r.batchActions.toJson Action.toJson),
    ("has", r.has.toJson Relation.toJson),
    ("hasMany", r.hasMany.toJson Action.toJson),
    ("waiters", r.waiters.toJson ResourceWaiter.toJson)]

/-- The record of the resources of a service. -/
def Resources.toJson (r : Resources) : Json :=
  .record [("service", r.service.toJson),
    ("resources", r.resources.toJson ResourceModel.toJson)]

/-! ## Schemas -/

/-- The record of a schema. -/
def toJson (s : Schema) : Json :=
  .record [("service_name", .text s.serviceName),
    ("class_name", .text s.className),
    ("model", s.model.toJson),
    ("paginators", s.paginators.toJson PagingRule.toJson),
    ("waiters", s.waiters.toJson WaitingRule.toJson),
    ("resources", .ofOption Resources.toJson s.resources),
    ("documentation", s.documentation.toJson .text)]

/-- The text of a schema. -/
def text (s : Schema) : String :=
  s.toJson.compact

end Schema

end ServiceStubs
