import ServiceStubs.Declaration.Entity
import ServiceStubs.Package.EntityDocs
import ServiceStubs.Session.Methods

/-!
# The client of a service

The client has a method for every operation, the methods that every client has,
one signature of `get_paginator` for every paginator and one of `get_waiter` for
every waiter, and what else is documented.

## Main definitions

* `accessor` — the signature that yields one paginator or waiter.
* `Service.client` — the client.
-/

namespace ServiceStubs

open Text (snakeCase)

/-- The module that declares the client. -/
def clientModule : String := "client"

/-- The module that declares the paginators. -/
def paginatorModule : String := "paginator"

/-- The module that declares the waiters. -/
def waiterModule : String := "waiter"

/-- The methods that every client has besides its operations. -/
def commonClientMethods : List String :=
  ["can_paginate", "close", "generate_presigned_url"]

/-- One of the signatures of a method that yields an entity by its name. -/
def accessor (method name className module : String) : FunctionStub :=
  { FunctionStub.method method [.needed "operation_name" (.literal [snakeCase name])]
      (.inModule className module) with decorators := [.overload] }

/-- The attributes that every client has. -/
def clientAttributes : List Attribute :=
  [⟨"meta", .from? "botocore.client" "ClientMeta"⟩,
    ⟨"exceptions", .from? "botocore.errorfactory" "BaseClientExceptions"⟩]

namespace Service

/-- The names of the service. -/
def serviceName (svc : Service) : ServiceName :=
  svc.schema.service

/-- The documentation of the methods of an entity. -/
def docs (svc : Service) (entity : String) : EntityDocs :=
  ⟨svc.schema, entity⟩

/-- The signature that yields a paginator, whose operation must be declared. -/
def paginatorAccessor (svc : Service) (name : String) : Except Error FunctionStub := do
  discard (svc.operation name)
  return accessor "get_paginator" name (name ++ "Paginator") paginatorModule

/-- The signature that yields a waiter, whose operation must be declared. -/
def waiterAccessor (svc : Service) (name : String) (rule : Schema.WaitingRule) :
    Except Error FunctionStub := do
  discard (svc.operation rule.operation)
  return accessor "get_waiter" name (name ++ "Waiter") waiterModule

/-- The client of a service. -/
def client (svc : Service) : Build ClientStub := do
  let empty := ClientStub.ofService svc.serviceName
  let docs := svc.docs empty.decl.name
  let operations ← svc.clientMethods
  let paginators ← Build.ofExcept (svc.schema.paginators.keys.mapM svc.paginatorAccessor)
  let waiters ← Build.ofExcept
    (svc.schema.waiters.entries.mapM fun (name, rule) => svc.waiterAccessor name rule)
  let methods := operations.map docs.document ++ commonClientMethods.filterMap docs.fallback?
    ++ paginators ++ waiters
  return { decl :=
    { empty.decl with
      attributes := clientAttributes
      methods := methods ++ docs.further methods } }

end Service

end ServiceStubs
