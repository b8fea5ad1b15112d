import ServiceStubs.Package.Factory
import ServiceStubs.Package.Resource

/-!
# Packages

All that a stub package declares for a service, built in one session so that its
entities share their typed dictionaries.  The first reference to something that
is not declared stops it.

## Main definitions

* `Service.paginators`, `Service.waiters` — the paginators and waiters.
* `Service.package` — the package.
* `Schema.package` — the package of a schema, in a session of its own.
-/

namespace ServiceStubs

/-- A class with one method, which is documented under the name of the class. -/
def ClassStub.withMethod (c : ClassStub) (s : Schema) (f : FunctionStub) : ClassStub :=
  { c with methods := [(EntityDocs.mk s c.name).document f] }

namespace Service

/-- The paginator of a name. -/
def paginator (svc : Service) (name : String) : Build PaginatorStub := do
  let empty := PaginatorStub.ofService svc.serviceName name name
  let method ← svc.paginateMethod name
  return { empty with decl := empty.decl.withMethod svc.schema method }

/-- The paginators of a service. -/
def paginators (svc : Service) : Build (List PaginatorStub) :=
  svc.schema.paginators.keys.mapM svc.paginator

/-- The waiter of a name. -/
def waiter (svc : Service) (name : String) (rule : Schema.WaitingRule) : Build WaiterStub := do
  let empty := WaiterStub.ofService svc.serviceName name rule.operation
  let method ← svc.waitMethod name
  return { empty with decl := empty.decl.withMethod svc.schema method }

/-- The waiters of a service. -/
def waiters (svc : Service) : Build (List WaiterStub) :=
  svc.schema.waiters.entries.mapM fun (name, rule) => svc.waiter name rule

/-- The package of a service. -/
def package (svc : Service) : Build PackageStub := do
  let client ← svc.client
  let serviceResource ← svc.serviceResource
  let paginators ← svc.paginators
  let waiters ← svc.waiters
  return {
    service := svc.serviceName
    client
    serviceResource
    paginators
    waiters
    factories := svc.serviceName.factories serviceResource.isSome }

end Service

/-- The package of a schema, or the reason why there is none, and the session in
which it was built. -/
def Schema.package (s : Schema) : Except Error PackageStub × Session :=
  (Service.ofSchema s).package.run.run {}

end ServiceStubs
