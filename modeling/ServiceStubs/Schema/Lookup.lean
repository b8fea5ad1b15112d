import ServiceStubs.Error
import ServiceStubs.Schema.Basic

/-!
# Looking up schema entries

Operations, shapes, paginators, waiters, resources and the parts of a resource
are looked up by name; a name that is not declared is an error, which says what
was looked for in which service.

## Main definitions

* `Schema.operation`, `Schema.shape`, `Schema.paginator`, `Schema.waiter`,
  `Schema.resource` — the entries of a schema.
* `ResourceModel.action`, `ResourceModel.collection` — the parts of a resource.
* `Schema.documentationOf` — the documentation of a method.
-/

namespace ServiceStubs

/-- The value of a name in a map, or the error that `service` has no entry of
the kind with that name. -/
def OrderedMap.lookup {α : Type} (m : OrderedMap α) (service : String) (kind : EntryKind)
    (name : String) : Except Error α :=
  match m.get? name with
  | some a => .ok a
  | none => .error (.notDeclared service kind name)

namespace Schema

/-- The operation of a name. -/
def operation (s : Schema) (name : String) : Except Error Operation :=
  s.model.operations.lookup s.serviceName .operation name

/-- The shape of a name. -/
def shape (s : Schema) (name : String) : Except Error Shape :=
  s.model.shapes.lookup s.serviceName .shape name

/-- The paging rule of a name. -/
def paginator (s : Schema) (name : String) : Except Error PagingRule :=
  s.paginators.lookup s.serviceName .paginator name

/-- The waiting rule of a name. -/
def waiter (s : Schema) (name : String) : Except Error WaitingRule :=
  s.waiters.lookup s.serviceName .waiter name

/-- The declared resources, the service resource apart. -/
def declaredResources (s : Schema) : OrderedMap ResourceModel :=
  match s.resources with
  | some r => r.resources
  | none => ∅

/-- The resource of a name. -/
def resource (s : Schema) (name : String) : Except Error ResourceModel :=
  s.declaredResources.lookup s.serviceName .resource name

/-- The names of the declared resources. -/
def resourceNames (s : Schema) : List String :=
  s.declaredResources.keys

/-- The documentation of a method of an entity, if it has any. -/
def documentationOf (s : Schema) (entity method : String) : Option String :=
  s.documentation.get? (entity ++ "." ++ method)

/-- The action of a name. -/
def ResourceModel.action (r : ResourceModel) (service name : String) : Except Error Action :=
  r.actions.lookup service .action name

/-- The relation to many resources of a name. -/
def ResourceModel.collection (r : ResourceModel) (service name : String) :
    Except Error Action :=
  r.hasMany.lookup service .collection name

end Schema

end ServiceStubs
