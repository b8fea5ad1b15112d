import ServiceStubs.Package.Client

/-!
# Collections

A collection yields the resources that a parent has many of: all of them, those
that a filter leaves, or some page by page.  The batch actions of the resource
are methods of its collections.

## Main definitions

* `CollectionStub.baseMethods` — the methods that every collection has.
* `Service.collection`, `Service.collections` — the collections of a parent.
-/

namespace ServiceStubs

open Text (snakeCase)

/-- The methods that every collection has, around the method that filters. -/
def CollectionStub.baseMethods (c : CollectionStub) (filter : FunctionStub) :
    List FunctionStub :=
  let self := c.decl.type
  [.method "all" [] self, filter, .method "limit" [.needed "count" .int] self,
    .method "page_size" [.needed "count" .int] self,
    .method "pages" [] (.iteratorOf (.listOf c.itemType)),
    .method "__iter__" [] (.iteratorOf c.itemType)]

namespace Service

/-- The resource that a relation leads to, which must be declared. -/
def itemModel (svc : Service) (name : String) (relation : Schema.Action) :
    Except Error (String × Schema.ResourceModel) := do
  match relation.resource with
  | none => .error (.notDeclared svc.schema.serviceName .collection name)
  | some target => return (target.type, ← svc.schema.resource target.type)

/-- The collection of a relation of a parent. -/
def collection (svc : Service) (parent : String) (owner : Schema.ResourceModel)
    (name : String) : Build CollectionStub := do
  let relation ← Build.ofExcept (owner.collection svc.schema.serviceName name)
  let (item, model) ← Build.ofExcept (svc.itemModel name relation)
  let empty := CollectionStub.ofRelation parent name (snakeCase name) (.resource item)
  let filter ← svc.filterMethod relation empty.decl.type
  let batch ← model.batchActions.entries.mapM fun (name, action) => svc.batchMethod name action
  let docs := svc.docs empty.decl.name
  return { empty with
    decl := { empty.decl with
      methods := (empty.baseMethods filter ++ batch).map docs.document } }

/-- The collections of a parent. -/
def collections (svc : Service) (parent : String) (owner : Schema.ResourceModel) :
    Build (List CollectionStub) :=
  owner.hasMany.keys.mapM (svc.collection parent owner)

end Service

end ServiceStubs
