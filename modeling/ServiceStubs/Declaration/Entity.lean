import ServiceStubs.TypeExpr.Definition
import ServiceStubs.Declaration.Class
import ServiceStubs.ServiceName

/-!
# Entities of a service

The classes that a stub package declares for a service: its client, its
paginators and waiters, and its resources with their collections.  Each has a
class of a fixed base; what is special to an entity stands beside the class.

## Main definitions

* `ClientStub`, `PaginatorStub`, `WaiterStub` — of the low-level service.
* `CollectionStub`, `ResourceStub`, `ServiceResourceStub` — of the resources.
* `PackageStub` — all that is declared for one service.
-/

namespace ServiceStubs

/-! ## The low-level service -/

/-- The client of a service. -/
structure ClientStub where
  decl : ClassStub

/-- A client that declares nothing yet. -/
def ClientStub.ofService (s : ServiceName) : ClientStub where
  decl :=
    { name := s.clientName
      docstring := s.className ++ " client"
      bases := [.from? "botocore.client" "BaseClient"] }

instance : Annotated ClientStub := ⟨fun c => Annotated.annotations c.decl⟩

/-- A paginator of a service. -/
structure PaginatorStub where
  decl : ClassStub
  paginatorName : String
  operationName : String

/-- A paginator that declares nothing yet. -/
def PaginatorStub.ofService (s : ServiceName) (paginator operation : String) :
    PaginatorStub where
  decl :=
    { name := paginator ++ "Paginator"
      docstring := "Paginator for " ++ s.className ++ " " ++ operation
      bases := [.from? "botocore.paginate" "Paginator"] }
  paginatorName := paginator
  operationName := operation

instance : Annotated PaginatorStub := ⟨fun p => Annotated.annotations p.decl⟩

/-- A waiter of a service. -/
structure WaiterStub where
  decl : ClassStub
  waiterName : String
  operationName : String

/-- A waiter that declares nothing yet. -/
def WaiterStub.ofService (s : ServiceName) (waiter operation : String) : WaiterStub where
  decl :=
    { name := waiter ++ "Waiter"
      docstring := "Waiter for " ++ s.className ++ " " ++ waiter
      bases := [.from? "botocore.waiter" "Waiter"] }
  waiterName := waiter
  operationName := operation

instance : Annotated WaiterStub := ⟨fun w => Annotated.annotations w.decl⟩

/-! ## Resources -/

/-- The resources that a parent has many of. -/
structure CollectionStub where
  decl : ClassStub
  /-- The class that has the collection. -/
  parentName : String
  /-- The attribute of the parent that is the collection. -/
  attributeName : String
  /-- What the collection holds. -/
  itemType : TypeExpr

namespace CollectionStub

/-- A collection that declares nothing yet. -/
def ofRelation (parent relation attr : String) (item : TypeExpr) : CollectionStub where
  decl :=
    { name := parent ++ relation ++ "Collection"
      docstring := parent ++ "." ++ attr ++ " collection"
      bases := [.from? "boto3.resources.collection" "ResourceCollection"] }
  parentName := parent
  attributeName := attr
  itemType := item

/-- The attribute of the parent. -/
def asAttribute (c : CollectionStub) : Attribute :=
  ⟨c.attributeName, c.decl.type⟩

instance : Annotated CollectionStub :=
  ⟨fun c => Annotated.annotations c.decl ++ [c.itemType]⟩

end CollectionStub

/-- A resource with its collections. -/
structure ResourceStub where
  decl : ClassStub
  collections : List CollectionStub := []

/-- A resource that declares nothing yet. -/
def ResourceStub.ofService (s : ServiceName) (name : String) : ResourceStub where
  decl :=
    { name
      docstring := s.className ++ " " ++ name ++ " resource"
      bases := [.from? "boto3.resources.base" "ServiceResource"] }

instance : Annotated ResourceStub :=
  ⟨fun r => Annotated.annotations r.decl ++ Annotated.annotations r.collections⟩

/-- The resource of the service as a whole, with all other resources. -/
structure ServiceResourceStub where
  decl : ClassStub
  collections : List CollectionStub := []
  resources : List ResourceStub := []

namespace ServiceResourceStub

/-- A service resource that declares nothing yet. -/
def ofService (s : ServiceName) : ServiceResourceStub where
  decl :=
    { name := s.serviceResourceName
      docstring := s.className ++ " resource"
      bases := [.from? "boto3.resources.base" "ServiceResource"] }

/-- Every collection: its own, then those of the other resources. -/
def allCollections (r : ServiceResourceStub) : List CollectionStub :=
  r.collections ++ r.resources.flatMap (·.collections)

/-- The first of the other resources that has a name. -/
def resource? (r : ServiceResourceStub) (name : String) : Option ResourceStub :=
  r.resources.find? (·.decl.name = name)

/-- Every class: its own, the other resources, the collections. -/
def allClasses (r : ServiceResourceStub) : List ClassStub :=
  r.decl :: r.resources.map (·.decl) ++ r.allCollections.map (·.decl)

instance : Annotated ServiceResourceStub :=
  ⟨fun r => Annotated.annotations r.decl ++ Annotated.annotations r.collections
    ++ Annotated.annotations r.resources⟩

end ServiceResourceStub

/-! ## Packages -/

/-- All that is declared for one service. -/
structure PackageStub where
  service : ServiceName
  client : ClientStub
  serviceResource : Option ServiceResourceStub := none
  paginators : List PaginatorStub := []
  waiters : List WaiterStub := []
  /-- The functions that make clients and resources at run time. -/
  factories : List FunctionStub := []

namespace PackageStub

/-- The first paginator of a name. -/
def paginator? (p : PackageStub) (name : String) : Option PaginatorStub :=
  p.paginators.find? (·.paginatorName = name)

/-- The first waiter of a name. -/
def waiter? (p : PackageStub) (name : String) : Option WaiterStub :=
  p.waiters.find? (·.waiterName = name)

/-- The closures of the entities of a package, in order. -/
def closures (p : PackageStub) (s : Store) : List TypeSet :=
  [s.types p.client] ++ p.serviceResource.toList.map s.types ++ p.paginators.map s.types
    ++ p.waiters.map s.types ++ p.factories.map s.types

/-- The types that the entities of a package reach. -/
def types (p : PackageStub) (s : Store) : TypeSet :=
  (p.closures s).foldl KeyedSet.union ∅

/-- The typed dictionaries that a package uses, by name. -/
def dicts (p : PackageStub) (s : Store) : List TypedDict :=
  (p.types s).toList.filterMap fun
    | .dict ref => some (s.get ref)
    | _ => none

/-- What must be imported to declare the typed dictionaries of a package. -/
def dictImports (p : PackageStub) (s : Store) : ImportSet :=
  let needed := (p.dicts s).flatMap fun d =>
    d.definitionImports.toList ++ d.fields.flatMap (·.type.imports.toList)
  (ImportSet.addAll ∅ needed).filter fun i =>
    !i.isBuiltins && !i.source.isInPackage TypeExpr.dictModule

end PackageStub

end ServiceStubs
