import ServiceStubs.Package.Basic
import ServiceStubs.Proofs.Session.Plan

/-!
# Plans of entities

The plans of the client, of collections and resources, and of a whole package are
put together from those of their methods, in the order in which these are made.

## Main definitions

* `Service.clientPlan`, `Service.collectionPlan`, `Service.resourcePlan`,
  `Service.serviceResourcePlan` — the plans of entities.
* `Service.packagePlan` — the plan of a package.
-/

namespace ServiceStubs.Service

variable (svc : Service)

/-! ## The low-level service -/

/-- The operations of the client, and then the paginators and waiters that it
yields, of which only the operations are looked up. -/
def clientPlan : Plan :=
  (Plan.forAll svc.model.operations.keys svc.clientMethodPlan).andThen <|
    .lookup (svc.schema.paginators.keys.mapM svc.paginatorAccessor) fun _ =>
      .lookup (svc.schema.waiters.entries.mapM fun (name, rule) => svc.waiterAccessor name rule)
        fun _ => .done

theorem follows_client : Build.Follows svc svc.client svc.clientPlan := by
  unfold client clientPlan
  refine .bind (.mapM fun name _ => follows_clientMethod svc name) fun operations => ?_
  exact .ofExcept_bind fun paginators _ => .ofExcept_bind fun waiters _ => .pure _

theorem follows_paginator (name : String) :
    Build.Follows svc (svc.paginator name) (svc.paginateMethodPlan name) :=
  (follows_paginateMethod svc name).bind_pure _

theorem follows_waiter (name : String) (rule : Schema.WaitingRule) :
    Build.Follows svc (svc.waiter name rule) (svc.waitMethodPlan name) :=
  (follows_waitMethod svc name).bind_pure _

/-! ## Resources -/

/-- A collection looks up its relation and the resource that this leads to; then
come the filter and the batch actions of that resource. -/
def collectionPlan (owner : Schema.ResourceModel) (name : String) : Plan :=
  .lookup (owner.collection svc.schema.serviceName name) fun relation =>
    .lookup (svc.itemModel name relation) fun target =>
      (svc.filterMethodPlan relation).andThen
        (.forAll target.2.batchActions.entries fun entry => svc.batchMethodPlan entry.2)

theorem follows_collection (parent : String) (owner : Schema.ResourceModel) (name : String) :
    Build.Follows svc (svc.collection parent owner name) (svc.collectionPlan owner name) := by
  unfold collection collectionPlan
  refine .ofExcept_bind fun relation _ => .ofExcept_bind fun target _ => ?_
  refine (follows_filterMethod svc relation _).bind fun filter => ?_
  exact (Build.Follows.mapM fun entry _ =>
    follows_batchMethod svc entry.1 entry.2).bind_pure _

/-- The collections of a parent. -/
def collectionsPlan (owner : Schema.ResourceModel) : Plan :=
  .forAll owner.hasMany.keys (svc.collectionPlan owner)

theorem follows_collections (parent : String) (owner : Schema.ResourceModel) :
    Build.Follows svc (svc.collections parent owner) (svc.collectionsPlan owner) :=
  .mapM fun name _ => follows_collection svc parent owner name

/-- The actions of a resource, and then its relations, of which only the targets
are looked up. -/
def ownMethodsPlan (owner : Schema.ResourceModel) : Plan :=
  (Plan.forAll owner.actions.keys (svc.actionMethodPlan owner)).andThen <|
    .lookup (owner.has.entries.mapM fun (name, r) => svc.relationMethod name r.resource)
      fun _ => .done

theorem follows_ownMethods (owner : Schema.ResourceModel) :
    Build.Follows svc (svc.ownMethods owner) (svc.ownMethodsPlan owner) := by
  unfold ownMethods ownMethodsPlan
  refine .bind (.mapM fun name _ => follows_actionMethod svc owner name) fun actions => ?_
  exact .ofExcept_bind fun relations _ => .pure _

/-- The waiters of a resource. -/
def waitMethodsPlan (owner : Schema.ResourceModel) : Plan :=
  .forAll owner.waiters.entries fun entry => svc.resourceWaitMethodPlan entry.2

theorem follows_waitMethods (owner : Schema.ResourceModel) :
    Build.Follows svc (svc.waitMethods owner) (svc.waitMethodsPlan owner) :=
  .mapM fun entry _ => follows_resourceWaitMethod svc entry.1 entry.2

/-- The parts of a resource. -/
def resourcePlan (name : String) : Plan :=
  .lookup (svc.schema.resource name) fun model =>
    (svc.ownMethodsPlan model).andThen <|
      (svc.waitMethodsPlan model).andThen (svc.collectionsPlan model)

theorem follows_resource (name : String) :
    Build.Follows svc (svc.resource name) (svc.resourcePlan name) := by
  unfold resource resourcePlan
  refine .ofExcept_bind fun model _ => ?_
  refine .lift_bind (follows_resourceAttributes svc model) fun attributes => ?_
  refine (follows_ownMethods svc model).bind fun own => ?_
  refine (follows_waitMethods svc model).bind fun waits => ?_
  exact (follows_collections svc name model).bind_pure _

/-- The parts of the service resource, and then the other resources. -/
def serviceResourcePlan : Plan :=
  match svc.schema.resources with
  | none => .done
  | some r =>
    (svc.ownMethodsPlan r.service).andThen <|
      (svc.collectionsPlan r.service).andThen (.forAll svc.resourceNames svc.resourcePlan)

theorem follows_serviceResource :
    Build.Follows svc svc.serviceResource svc.serviceResourcePlan := by
  unfold serviceResource serviceResourcePlan
  cases svc.schema.resources with
  | none => exact .pure _
  | some r =>
      refine Build.Follows.bind_pure ?_ _
      unfold serviceResourceOf
      refine (follows_ownMethods svc r.service).bind fun own => ?_
      refine (follows_collections svc _ r.service).bind fun collections => ?_
      exact (Build.Follows.mapM fun name _ => follows_resource svc name).bind_pure _

/-! ## Packages -/

/-- The client, the resources, the paginators and the waiters. -/
def packagePlan : Plan :=
  svc.clientPlan.andThen <| svc.serviceResourcePlan.andThen <|
    (Plan.forAll svc.schema.paginators.keys svc.paginateMethodPlan).andThen
      (.forAll svc.schema.waiters.entries fun entry => svc.waitMethodPlan entry.1)

theorem follows_paginators :
    Build.Follows svc svc.paginators
      (.forAll svc.schema.paginators.keys svc.paginateMethodPlan) :=
  .mapM fun name _ => follows_paginator svc name

theorem follows_waiters :
    Build.Follows svc svc.waiters
      (.forAll svc.schema.waiters.entries fun entry => svc.waitMethodPlan entry.1) :=
  .mapM fun entry _ => follows_waiter svc entry.1 entry.2

/-- **A package follows its plan.** -/
theorem follows_package : Build.Follows svc svc.package svc.packagePlan := by
  unfold package packagePlan
  refine (follows_client svc).bind fun client => ?_
  refine (follows_serviceResource svc).bind fun resource => ?_
  refine (follows_paginators svc).bind fun paginators => ?_
  exact (follows_waiters svc).bind_pure _

end ServiceStubs.Service
