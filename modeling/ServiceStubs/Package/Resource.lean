import ServiceStubs.Package.Collection

/-!
# Resources

A resource has the methods of its actions, of its relations to other resources
and of its waiters, those that every resource has, and what else is documented.
Each collection is an attribute of the resource.

## Main definitions

* `Service.resource` — one resource.
* `Service.serviceResource` — the resource of the service as a whole, if the
  schema has resources, with all of them.
-/

namespace ServiceStubs

/-- The attribute that every resource has. -/
def metaAttribute : Attribute :=
  ⟨"meta", .from? "boto3.resources.base" "ResourceMeta"⟩

/-- The name of the service resource in the names of its collections. -/
def serviceCollectionParent : String := "ServiceResource"

/-- The method that every resource has. -/
def subresourcesMethod : String := "get_available_subresources"

/-- The methods of a resource that can be loaded. -/
def loadMethods : List String := ["load", "reload"]

namespace Service

/-- The methods of the actions and relations of a resource. -/
def ownMethods (svc : Service) (owner : Schema.ResourceModel) : Build (List FunctionStub) := do
  let actions ← owner.actions.keys.mapM (svc.actionMethod owner)
  let relations ← Build.ofExcept
    (owner.has.entries.mapM fun (name, r) => svc.relationMethod name r.resource)
  return actions ++ relations

/-- The methods of the waiters of a resource. -/
def waitMethods (svc : Service) (owner : Schema.ResourceModel) : Build (List FunctionStub) :=
  owner.waiters.entries.mapM fun (name, w) => svc.resourceWaitMethod name w

/-- The methods of a resource: those of the schema, documented, then those that
it has in any case, then what else is documented. -/
def documented (docs : EntityDocs) (methods : List FunctionStub) (others : List String) :
    List FunctionStub :=
  let methods := methods.map docs.document ++ others.filterMap docs.fallback?
  methods ++ docs.further methods

/-- A resource. -/
def resource (svc : Service) (name : String) : Build ResourceStub := do
  let model ← Build.ofExcept (svc.schema.resource name)
  let empty := ResourceStub.ofService svc.serviceName name
  let attributes ← svc.resourceAttributes model
  let own ← svc.ownMethods model
  let waits ← svc.waitMethods model
  let collections ← svc.collections name model
  let others := subresourcesMethod :: if model.load.isSome then loadMethods else []
  return {
    decl := { empty.decl with
      attributes := attributes ++ metaAttribute :: collections.map (·.asAttribute)
      methods := documented (svc.docs name) (own ++ waits) others }
    collections }

/-- The service resource of a schema that has resources. -/
def serviceResourceOf (svc : Service) (service : Schema.ResourceModel) :
    Build ServiceResourceStub := do
  let empty := ServiceResourceStub.ofService svc.serviceName
  let own ← svc.ownMethods service
  let collections ← svc.collections serviceCollectionParent service
  let resources ← svc.resourceNames.mapM svc.resource
  return {
    decl := { empty.decl with
      attributes := metaAttribute :: collections.map (·.asAttribute)
      methods := documented (svc.docs empty.decl.name) own [subresourcesMethod] }
    collections
    resources }

/-- The service resource, if the schema has resources. -/
def serviceResource (svc : Service) : Build (Option ServiceResourceStub) :=
  svc.schema.resources.mapM fun r => svc.serviceResourceOf r.service

end Service

end ServiceStubs
