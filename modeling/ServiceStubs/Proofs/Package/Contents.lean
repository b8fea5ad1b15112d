import ServiceStubs.Package.Basic
import ServiceStubs.Proofs.Schema.Lookup
import ServiceStubs.Proofs.Session.Gives

/-!
# What a package is made of

Each class of a package has the methods that the schema describes for it, each of
them completed by its documentation, then those that every such class has, and
then what else is documented.

## Main definitions

* `PackageStub.classes` — all classes of a package.
* `Service.owners`, `Service.SchemaMethod` — the resources of a schema, and the
  methods that it describes.
* `Service.PackageMethod` — where a method of a class comes from.
* `Service.parts_client` and its kin — what each kind of class is made of.
* `Service.methods_client` and its kin — the methods of each kind of class.
* `Service.packageMethod_of_mem` — every method of a package comes from somewhere.
* `Service.documents_operation` and its kin — the methods that a package has.
-/

namespace ServiceStubs

/-- All classes of a package. -/
def PackageStub.classes (p : PackageStub) : List ClassStub :=
  p.client.decl :: p.serviceResource.toList.flatMap ServiceResourceStub.allClasses
    ++ p.paginators.map (·.decl) ++ p.waiters.map (·.decl)

namespace Service

open Text (snakeCase)

variable {svc : Service} {name : String}

/-! ## Sources of methods -/

/-- The resources of a schema: the service resource, then the others. -/
def owners (svc : Service) : List Schema.ResourceModel :=
  svc.schema.resources.toList.map (·.service) ++ svc.schema.declaredResources.values

theorem service_mem_owners {r : Schema.Resources} (h : svc.schema.resources = some r) :
    r.service ∈ svc.owners :=
  List.mem_append_left _ (by simp [h])

theorem resource_mem_owners {model : Schema.ResourceModel}
    (h : svc.schema.resource name = .ok model) : model ∈ svc.owners :=
  List.mem_append_right _ (OrderedMap.mem_values_of_get? (OrderedMap.lookup_eq_ok_iff.mp h))

variable (svc) in
/-- A method that the schema describes, before it is documented. -/
inductive SchemaMethod : FunctionStub → Prop
  | operation {name f} (h : (svc.clientMethod name).Gives f) : SchemaMethod f
  | paginate {name f} (h : (svc.paginateMethod name).Gives f) : SchemaMethod f
  | wait {name f} (h : (svc.waitMethod name).Gives f) : SchemaMethod f
  | action {owner name f} (howner : owner ∈ svc.owners)
      (h : (svc.actionMethod owner name).Gives f) : SchemaMethod f
  | relation {owner name r f} (howner : owner ∈ svc.owners) (hr : (name, r) ∈ owner.has.entries)
      (h : svc.relationMethod name r.resource = .ok f) : SchemaMethod f
  | resourceWait {name w f} (h : (svc.resourceWaitMethod name w).Gives f) : SchemaMethod f
  | filter {relation self f} (h : (svc.filterMethod relation self).Gives f) : SchemaMethod f
  | batch {name a f} (h : (svc.batchMethod name a).Gives f) : SchemaMethod f
  /-- A method of every collection that takes nothing. -/
  | plain {name type} : SchemaMethod (.method name [] type)
  /-- A method of every collection that takes a number. -/
  | counted {name type} : SchemaMethod (.method name [.needed "count" .int] type)

variable (svc) in
/-- Where a method of a class comes from. -/
inductive PackageMethod : FunctionStub → Prop
  | described (entity : String) {f} (h : svc.SchemaMethod f) :
      PackageMethod ((svc.docs entity).document f)
  | fallback {entity name f} (h : (svc.docs entity).fallback? name = some f) : PackageMethod f
  | accessor (method name className module : String) :
      PackageMethod (accessor method name className module)
  | further {entity name text} (h : (name, text) ∈ (svc.docs entity).entries) :
      PackageMethod ((svc.docs entity).ofText name text)

/-! ## The low-level service -/

/-- What the client is made of: the attributes that every client has; and the methods of
the operations, those that every client has, the signatures that yield paginators and
waiters, and what else is documented. -/
theorem parts_client {c : ClientStub} (h : svc.client.Gives c) :
    ∃ operations paginators waiters, svc.clientMethods.Gives operations ∧
      svc.schema.paginators.keys.mapM svc.paginatorAccessor = .ok paginators ∧
      (svc.schema.waiters.entries.mapM fun (name, rule) => svc.waiterAccessor name rule) =
        .ok waiters ∧
      let docs := svc.docs svc.serviceName.clientName
      let methods := operations.map docs.document ++ commonClientMethods.filterMap docs.fallback?
        ++ paginators ++ waiters
      c.decl =
        { (ClientStub.ofService svc.serviceName).decl with
          attributes := clientAttributes
          methods := methods ++ docs.further methods } := by
  unfold client at h
  obtain ⟨operations, hoperations, h⟩ := h.of_bind
  obtain ⟨paginators, hpaginators, h⟩ := h.of_ofExcept_bind
  obtain ⟨waiters, hwaiters, h⟩ := h.of_ofExcept_bind
  obtain rfl := h.of_pure
  exact ⟨operations, paginators, waiters, hoperations, hpaginators, hwaiters, rfl⟩

/-- The methods of the client: those of the operations, those that every client has,
the signatures that yield paginators and waiters, and what else is documented. -/
theorem methods_client {c : ClientStub} (h : svc.client.Gives c) :
    ∃ operations paginators waiters, svc.clientMethods.Gives operations ∧
      svc.schema.paginators.keys.mapM svc.paginatorAccessor = .ok paginators ∧
      (svc.schema.waiters.entries.mapM fun (name, rule) => svc.waiterAccessor name rule) =
        .ok waiters ∧
      let docs := svc.docs svc.serviceName.clientName
      let methods := operations.map docs.document ++ commonClientMethods.filterMap docs.fallback?
        ++ paginators ++ waiters
      c.decl.methods = methods ++ docs.further methods := by
  obtain ⟨operations, paginators, waiters, hoperations, hpaginators, hwaiters, hdecl⟩ :=
    parts_client h
  exact ⟨operations, paginators, waiters, hoperations, hpaginators, hwaiters, by rw [hdecl]⟩

/-- A paginator is made of its one method. -/
theorem parts_paginator {p : PaginatorStub} (h : (svc.paginator name).Gives p) :
    ∃ f, (svc.paginateMethod name).Gives f ∧
      p.decl = (PaginatorStub.ofService svc.serviceName name name).decl.withMethod svc.schema f := by
  unfold paginator at h
  obtain ⟨f, hf, h⟩ := h.of_bind
  obtain rfl := h.of_pure
  exact ⟨f, hf, rfl⟩

theorem methods_paginator {p : PaginatorStub} (h : (svc.paginator name).Gives p) :
    ∃ f, (svc.paginateMethod name).Gives f ∧
      p.decl.methods = [(svc.docs p.decl.name).document f] := by
  obtain ⟨f, hf, hdecl⟩ := parts_paginator h
  exact ⟨f, hf, by rw [hdecl]; rfl⟩

/-- A waiter is made of its one method. -/
theorem parts_waiter {rule : Schema.WaitingRule} {w : WaiterStub}
    (h : (svc.waiter name rule).Gives w) :
    ∃ f, (svc.waitMethod name).Gives f ∧
      w.decl =
        (WaiterStub.ofService svc.serviceName name rule.operation).decl.withMethod svc.schema f := by
  unfold waiter at h
  obtain ⟨f, hf, h⟩ := h.of_bind
  obtain rfl := h.of_pure
  exact ⟨f, hf, rfl⟩

theorem methods_waiter {rule : Schema.WaitingRule} {w : WaiterStub}
    (h : (svc.waiter name rule).Gives w) :
    ∃ f, (svc.waitMethod name).Gives f ∧
      w.decl.methods = [(svc.docs w.decl.name).document f] := by
  obtain ⟨f, hf, hdecl⟩ := parts_waiter h
  exact ⟨f, hf, by rw [hdecl]; rfl⟩

/-! ## Resources -/

/-- What a collection is made of: no attributes; and the methods that every collection
has, around the one that filters, and the batch actions. -/
theorem parts_collection {parent : String} {owner : Schema.ResourceModel} {c : CollectionStub}
    (h : (svc.collection parent owner name).Gives c) :
    ∃ relation item filter batch, owner.collection svc.schema.serviceName name = .ok relation ∧
      svc.itemModel name relation = .ok item ∧
      (svc.filterMethod relation c.decl.type).Gives filter ∧
      List.Forall₂ (fun entry f => (svc.batchMethod entry.1 entry.2).Gives f)
        item.2.batchActions.entries batch ∧
      let empty := CollectionStub.ofRelation parent name (snakeCase name) (.resource item.1)
      c = { empty with
        decl := { empty.decl with
          methods :=
            (empty.baseMethods filter ++ batch).map (svc.docs empty.decl.name).document } } := by
  unfold collection at h
  obtain ⟨relation, hrelation, h⟩ := h.of_ofExcept_bind
  obtain ⟨⟨item, model⟩, hitem, h⟩ := h.of_ofExcept_bind
  obtain ⟨filter, hfilter, h⟩ := h.of_bind
  obtain ⟨batch, hbatch, h⟩ := h.of_bind
  obtain rfl := h.of_pure
  exact ⟨relation, (item, model), filter, batch, hrelation, hitem, hfilter, hbatch.of_mapM, rfl⟩

/-- The methods of a collection: those that every collection has, around the one
that filters, and the batch actions. -/
theorem methods_collection {parent : String} {owner : Schema.ResourceModel} {c : CollectionStub}
    (h : (svc.collection parent owner name).Gives c) :
    ∃ relation item filter batch, owner.collection svc.schema.serviceName name = .ok relation ∧
      svc.itemModel name relation = .ok item ∧
      (svc.filterMethod relation c.decl.type).Gives filter ∧
      List.Forall₂ (fun entry f => (svc.batchMethod entry.1 entry.2).Gives f)
        item.2.batchActions.entries batch ∧
      c.decl.methods = (c.baseMethods filter ++ batch).map (svc.docs c.decl.name).document := by
  obtain ⟨relation, item, filter, batch, hrelation, hitem, hfilter, hbatch, hc⟩ :=
    parts_collection h
  exact ⟨relation, item, filter, batch, hrelation, hitem, hfilter, hbatch, by rw [hc]; rfl⟩

/-- The methods of the actions and relations of a resource. -/
theorem methods_own {owner : Schema.ResourceModel} {own : List FunctionStub}
    (h : (svc.ownMethods owner).Gives own) :
    ∃ actions relations, own = actions ++ relations ∧
      List.Forall₂ (fun name f => (svc.actionMethod owner name).Gives f)
        owner.actions.keys actions ∧
      List.Forall₂ (fun entry f => svc.relationMethod entry.1 entry.2.resource = .ok f)
        owner.has.entries relations := by
  unfold ownMethods at h
  obtain ⟨actions, hactions, h⟩ := h.of_bind
  obtain ⟨relations, hrelations, h⟩ := h.of_ofExcept_bind
  obtain rfl := h.of_pure
  exact ⟨actions, relations, rfl, hactions.of_mapM, forall₂_of_mapM_eq_ok hrelations⟩

/-- The methods that a resource has in any case. -/
def commonMethods (model : Schema.ResourceModel) : List String :=
  subresourcesMethod :: if model.load.isSome then loadMethods else []

/-- What a resource is made of: attributes for its data, what every resource has, and
its collections; and the methods of its actions, relations and waiters, those that it
has in any case, and what else is documented. -/
theorem parts_resource {r : ResourceStub} (h : (svc.resource name).Gives r) :
    ∃ model attributes own waits, svc.schema.resource name = .ok model ∧
      (svc.resourceAttributes model).Gives attributes ∧
      (svc.ownMethods model).Gives own ∧
      List.Forall₂ (fun entry f => (svc.resourceWaitMethod entry.1 entry.2).Gives f)
        model.waiters.entries waits ∧
      (svc.collections name model).Gives r.collections ∧
      r.decl =
        { (ResourceStub.ofService svc.serviceName name).decl with
          attributes := attributes ++ metaAttribute :: r.collections.map (·.asAttribute)
          methods := documented (svc.docs name) (own ++ waits) (commonMethods model) } := by
  unfold resource at h
  obtain ⟨model, hmodel, h⟩ := h.of_ofExcept_bind
  obtain ⟨attributes, hattributes, h⟩ := h.of_lift_bind
  obtain ⟨own, hown, h⟩ := h.of_bind
  obtain ⟨waits, hwaits, h⟩ := h.of_bind
  obtain ⟨collections, hcollections, h⟩ := h.of_bind
  obtain rfl := h.of_pure
  exact ⟨model, attributes, own, waits, hmodel, hattributes, hown, hwaits.of_mapM, hcollections,
    rfl⟩

/-- The methods of a resource: those of its actions, relations and waiters, those
that it has in any case, and what else is documented. -/
theorem methods_resource {r : ResourceStub} (h : (svc.resource name).Gives r) :
    ∃ model own waits others, svc.schema.resource name = .ok model ∧
      (svc.ownMethods model).Gives own ∧
      List.Forall₂ (fun entry f => (svc.resourceWaitMethod entry.1 entry.2).Gives f)
        model.waiters.entries waits ∧
      (svc.collections name model).Gives r.collections ∧
      r.decl.methods = documented (svc.docs name) (own ++ waits) others := by
  obtain ⟨model, attributes, own, waits, hmodel, -, hown, hwaits, hcollections, hdecl⟩ :=
    parts_resource h
  exact ⟨model, own, waits, _, hmodel, hown, hwaits, hcollections, by rw [hdecl]⟩

/-- What the service resource is made of. -/
theorem parts_serviceResourceOf {service : Schema.ResourceModel} {r : ServiceResourceStub}
    (h : (svc.serviceResourceOf service).Gives r) :
    ∃ own, (svc.ownMethods service).Gives own ∧
      (svc.collections serviceCollectionParent service).Gives r.collections ∧
      List.Forall₂ (fun name r => (svc.resource name).Gives r) svc.resourceNames r.resources ∧
      r.decl =
        { (ServiceResourceStub.ofService svc.serviceName).decl with
          attributes := metaAttribute :: r.collections.map (·.asAttribute)
          methods := documented (svc.docs svc.serviceName.serviceResourceName) own
            [subresourcesMethod] } := by
  unfold serviceResourceOf at h
  obtain ⟨own, hown, h⟩ := h.of_bind
  obtain ⟨collections, hcollections, h⟩ := h.of_bind
  obtain ⟨resources, hresources, h⟩ := h.of_bind
  obtain rfl := h.of_pure
  exact ⟨own, hown, hcollections, hresources.of_mapM, rfl⟩

theorem methods_serviceResourceOf {service : Schema.ResourceModel} {r : ServiceResourceStub}
    (h : (svc.serviceResourceOf service).Gives r) :
    ∃ own, (svc.ownMethods service).Gives own ∧
      (svc.collections serviceCollectionParent service).Gives r.collections ∧
      List.Forall₂ (fun name r => (svc.resource name).Gives r) svc.resourceNames r.resources ∧
      r.decl.methods = documented (svc.docs r.decl.name) own [subresourcesMethod] := by
  obtain ⟨own, hown, hcollections, hresources, hdecl⟩ := parts_serviceResourceOf h
  exact ⟨own, hown, hcollections, hresources, by rw [hdecl]; rfl⟩

/-- A service resource is that of the resources of the schema. -/
theorem exists_resources_of_gives {made : Option ServiceResourceStub}
    (h : svc.serviceResource.Gives made) :
    ∀ r ∈ made, ∃ resources, svc.schema.resources = some resources ∧
      (svc.serviceResourceOf resources.service).Gives r := by
  unfold serviceResource at h
  cases hresources : svc.schema.resources with
  | none =>
      rw [hresources] at h
      obtain rfl := h.of_pure
      nofun
  | some resources =>
      rw [hresources] at h
      obtain ⟨r, hr, h⟩ := h.of_bind
      obtain rfl := h.of_pure
      rintro _ ⟨⟩
      exact ⟨resources, rfl, hr⟩

/-! ## Packages -/

/-- The entities of a package. -/
theorem entities_package {p : PackageStub} (h : svc.package.Gives p) :
    svc.client.Gives p.client ∧ svc.serviceResource.Gives p.serviceResource ∧
      List.Forall₂ (fun name p => (svc.paginator name).Gives p)
        svc.schema.paginators.keys p.paginators ∧
      List.Forall₂ (fun entry w => (svc.waiter entry.1 entry.2).Gives w)
        svc.schema.waiters.entries p.waiters := by
  unfold package at h
  obtain ⟨client, hclient, h⟩ := h.of_bind
  obtain ⟨resource, hresource, h⟩ := h.of_bind
  obtain ⟨paginators, hpaginators, h⟩ := h.of_bind
  obtain ⟨waiters, hwaiters, h⟩ := h.of_bind
  obtain rfl := h.of_pure
  exact ⟨hclient, hresource, hpaginators.of_mapM, hwaiters.of_mapM⟩

/-! ## Every method comes from somewhere -/

/-- A documented list of methods of the schema. -/
theorem packageMethod_of_mem_map {entity : String} {fs : List FunctionStub} {f : FunctionStub}
    (hfs : ∀ g ∈ fs, svc.SchemaMethod g) (hf : f ∈ fs.map (svc.docs entity).document) :
    svc.PackageMethod f := by
  obtain ⟨g, hg, rfl⟩ := List.mem_map.mp hf
  exact .described entity (hfs g hg)

theorem packageMethod_of_mem_fallback {entity : String} {names : List String} {f : FunctionStub}
    (hf : f ∈ names.filterMap (svc.docs entity).fallback?) : svc.PackageMethod f := by
  obtain ⟨name, -, hname⟩ := List.mem_filterMap.mp hf
  exact .fallback hname

theorem packageMethod_of_mem_further {entity : String} {methods : List FunctionStub}
    {f : FunctionStub} (hf : f ∈ (svc.docs entity).further methods) : svc.PackageMethod f := by
  obtain ⟨⟨name, text⟩, hentry, rfl⟩ := List.mem_map.mp hf
  exact .further (List.mem_filter.mp hentry).1

theorem packageMethod_of_mem_documented {entity : String} {methods : List FunctionStub}
    {others : List String} {f : FunctionStub} (hmethods : ∀ g ∈ methods, svc.SchemaMethod g)
    (hf : f ∈ documented (svc.docs entity) methods others) : svc.PackageMethod f := by
  simp only [documented, List.mem_append] at hf
  rcases hf with (hf | hf) | hf
  · exact packageMethod_of_mem_map hmethods hf
  · exact packageMethod_of_mem_fallback hf
  · exact packageMethod_of_mem_further hf

theorem packageMethod_client {c : ClientStub} (h : svc.client.Gives c) {f : FunctionStub}
    (hf : f ∈ c.decl.methods) : svc.PackageMethod f := by
  obtain ⟨operations, paginators, waiters, hoperations, hpaginators, hwaiters, hmethods⟩ :=
    methods_client h
  simp only [hmethods, List.mem_append] at hf
  rcases hf with (((hf | hf) | hf) | hf) | hf
  · refine packageMethod_of_mem_map (fun g hg => ?_) hf
    obtain ⟨name, -, hname⟩ := exists_of_mem_forall₂ hoperations.of_mapM hg
    exact .operation hname
  · exact packageMethod_of_mem_fallback hf
  · obtain ⟨name, -, h⟩ := exists_of_mem_forall₂ (forall₂_of_mapM_eq_ok hpaginators) hf
    obtain ⟨_, -, h⟩ := bind_eq_ok_iff.mp h
    obtain rfl := Except.ok.inj h
    exact .accessor _ _ _ _
  · obtain ⟨⟨name, rule⟩, -, h⟩ := exists_of_mem_forall₂ (forall₂_of_mapM_eq_ok hwaiters) hf
    obtain ⟨_, -, h⟩ := bind_eq_ok_iff.mp h
    obtain rfl := Except.ok.inj h
    exact .accessor _ _ _ _
  · exact packageMethod_of_mem_further hf

theorem schemaMethod_of_mem_baseMethods {c : CollectionStub} {filter f : FunctionStub}
    (hfilter : svc.SchemaMethod filter) (hf : f ∈ c.baseMethods filter) : svc.SchemaMethod f := by
  simp only [CollectionStub.baseMethods, List.mem_cons, List.not_mem_nil, or_false] at hf
  rcases hf with rfl | rfl | rfl | rfl | rfl | rfl
  · exact .plain
  · exact hfilter
  · exact .counted
  · exact .counted
  · exact .plain
  · exact .plain

theorem packageMethod_collections {parent : String} {owner : Schema.ResourceModel}
    {cs : List CollectionStub} (h : (svc.collections parent owner).Gives cs) {c : CollectionStub}
    (hc : c ∈ cs) {f : FunctionStub} (hf : f ∈ c.decl.methods) : svc.PackageMethod f := by
  obtain ⟨name, -, hc⟩ := exists_of_mem_forall₂ h.of_mapM hc
  obtain ⟨relation, item, filter, batch, -, -, hfilter, hbatch, hmethods⟩ := methods_collection hc
  rw [hmethods] at hf
  refine packageMethod_of_mem_map (fun g hg => ?_) hf
  rcases List.mem_append.mp hg with hg | hg
  · exact schemaMethod_of_mem_baseMethods (.filter hfilter) hg
  · obtain ⟨entry, -, hbatch⟩ := exists_of_mem_forall₂ hbatch hg
    exact .batch hbatch

theorem schemaMethod_own {owner : Schema.ResourceModel} (howner : owner ∈ svc.owners)
    {own : List FunctionStub} (h : (svc.ownMethods owner).Gives own) :
    ∀ f ∈ own, svc.SchemaMethod f := by
  obtain ⟨actions, relations, rfl, hactions, hrelations⟩ := methods_own h
  intro f hf
  rcases List.mem_append.mp hf with hf | hf
  · obtain ⟨name, -, hname⟩ := exists_of_mem_forall₂ hactions hf
    exact .action howner hname
  · obtain ⟨⟨name, r⟩, hentry, hrelation⟩ := exists_of_mem_forall₂ hrelations hf
    exact .relation howner hentry hrelation

theorem packageMethod_resource {r : ResourceStub} (h : (svc.resource name).Gives r)
    {f : FunctionStub} (hf : f ∈ r.decl.methods) : svc.PackageMethod f := by
  obtain ⟨model, own, waits, others, hmodel, hown, hwaits, -, hmethods⟩ := methods_resource h
  rw [hmethods] at hf
  refine packageMethod_of_mem_documented (fun g hg => ?_) hf
  rcases List.mem_append.mp hg with hg | hg
  · exact schemaMethod_own (resource_mem_owners hmodel) hown g hg
  · obtain ⟨entry, -, hwait⟩ := exists_of_mem_forall₂ hwaits hg
    exact .resourceWait hwait

theorem packageMethod_serviceResource {made : Option ServiceResourceStub}
    (h : svc.serviceResource.Gives made) {r : ServiceResourceStub} (hr : r ∈ made)
    {c : ClassStub} (hc : c ∈ r.allClasses) {f : FunctionStub} (hf : f ∈ c.methods) :
    svc.PackageMethod f := by
  obtain ⟨resources, hresources, hr⟩ := exists_resources_of_gives h r hr
  obtain ⟨own, hown, hcollections, hothers, hmethods⟩ := methods_serviceResourceOf hr
  simp only [ServiceResourceStub.allClasses, ServiceResourceStub.allCollections, List.mem_append,
    List.mem_cons, List.map_append, List.mem_map, List.mem_flatMap] at hc
  rcases hc with (rfl | ⟨other, hother, rfl⟩) | ⟨c, hc, rfl⟩ | ⟨c, ⟨other, hother, hc⟩, rfl⟩
  · rw [hmethods] at hf
    exact packageMethod_of_mem_documented (schemaMethod_own (service_mem_owners hresources) hown) hf
  · obtain ⟨name, -, hname⟩ := exists_of_mem_forall₂ hothers hother
    exact packageMethod_resource hname hf
  · exact packageMethod_collections hcollections hc hf
  · obtain ⟨name, -, hname⟩ := exists_of_mem_forall₂ hothers hother
    obtain ⟨model, -, -, -, -, -, -, hcollections, -⟩ := methods_resource hname
    exact packageMethod_collections hcollections hc hf

/-- **Every method of every class of a package comes from the schema, from what every
class of its kind has, or from the documentation.** -/
theorem packageMethod_of_mem {p : PackageStub} (h : svc.package.Gives p) {c : ClassStub}
    (hc : c ∈ p.classes) {f : FunctionStub} (hf : f ∈ c.methods) : svc.PackageMethod f := by
  obtain ⟨hclient, hresource, hpaginators, hwaiters⟩ := entities_package h
  simp only [PackageStub.classes, List.mem_append, List.mem_cons, List.mem_flatMap,
    Option.mem_toList, List.mem_map] at hc
  rcases hc with ((rfl | ⟨r, hr, hc⟩) | ⟨paginator, hpaginator, rfl⟩) | ⟨waiter, hwaiter, rfl⟩
  · exact packageMethod_client hclient hf
  · exact packageMethod_serviceResource hresource hr hc hf
  · obtain ⟨name, -, hname⟩ := exists_of_mem_forall₂ hpaginators hpaginator
    obtain ⟨g, hg, hmethods⟩ := methods_paginator hname
    rw [hmethods, List.mem_singleton] at hf
    exact hf ▸ .described _ (.paginate hg)
  · obtain ⟨entry, -, hentry⟩ := exists_of_mem_forall₂ hwaiters hwaiter
    obtain ⟨g, hg, hmethods⟩ := methods_waiter hentry
    rw [hmethods, List.mem_singleton] at hf
    exact hf ▸ .described _ (.wait hg)

/-! ## Every method of the schema is there -/

/-- Every element has given some value. -/
theorem exists_of_mem_forall₂_left {α β : Type} {R : α → β → Prop} {as : List α} {bs : List β}
    (h : List.Forall₂ R as bs) {a : α} (ha : a ∈ as) : ∃ b ∈ bs, R a b :=
  exists_of_mem_forall₂ (List.Forall₂.flip h) ha

/-- What follows for elements that stand at one place. -/
theorem forall₂_imp_of_mem {α β : Type} {R S : α → β → Prop} {as : List α} {bs : List β}
    (h : List.Forall₂ R as bs) (himp : ∀ a ∈ as, ∀ b ∈ bs, R a b → S a b) :
    List.Forall₂ S as bs := by
  induction h with
  | nil => exact .nil
  | cons hab _ ih =>
      refine .cons (himp _ List.mem_cons_self _ List.mem_cons_self hab) (ih fun a ha b hb => ?_)
      exact himp a (List.mem_cons_of_mem _ ha) b (List.mem_cons_of_mem _ hb)

/-- Some class of the package has the method, documented. -/
def Documents (svc : Service) (p : PackageStub) (f : FunctionStub) : Prop :=
  ∃ c ∈ p.classes, ∃ entity, (svc.docs entity).document f ∈ c.methods

variable {p : PackageStub}

theorem documents_operation (h : svc.package.Gives p) {name : String}
    (hname : name ∈ svc.model.operations.keys) :
    ∃ f, (svc.clientMethod name).Gives f ∧ svc.Documents p f := by
  obtain ⟨operations, paginators, waiters, hoperations, -, -, hmethods⟩ :=
    methods_client (entities_package h).1
  obtain ⟨f, hf, hgives⟩ := exists_of_mem_forall₂_left hoperations.of_mapM hname
  refine ⟨f, hgives, p.client.decl, by simp [PackageStub.classes], svc.serviceName.clientName, ?_⟩
  rw [hmethods]
  simp only [List.mem_append]
  exact .inl (.inl (.inl (.inl (List.mem_map_of_mem hf))))

theorem documents_paginator (h : svc.package.Gives p) {name : String}
    (hname : name ∈ svc.schema.paginators.keys) :
    ∃ f, (svc.paginateMethod name).Gives f ∧ svc.Documents p f := by
  obtain ⟨-, -, hpaginators, -⟩ := entities_package h
  obtain ⟨paginator, hmem, hgives⟩ := exists_of_mem_forall₂_left hpaginators hname
  obtain ⟨f, hf, hmethods⟩ := methods_paginator hgives
  refine ⟨f, hf, paginator.decl, ?_, paginator.decl.name, by rw [hmethods]; simp⟩
  simp only [PackageStub.classes, List.mem_append]
  exact .inl (.inr (List.mem_map_of_mem hmem))

theorem documents_waiter (h : svc.package.Gives p) {name : String} {rule : Schema.WaitingRule}
    (hentry : (name, rule) ∈ svc.schema.waiters.entries) :
    ∃ f, (svc.waitMethod name).Gives f ∧ svc.Documents p f := by
  obtain ⟨-, -, -, hwaiters⟩ := entities_package h
  obtain ⟨waiter, hmem, hgives⟩ := exists_of_mem_forall₂_left hwaiters hentry
  obtain ⟨f, hf, hmethods⟩ := methods_waiter hgives
  refine ⟨f, hf, waiter.decl, ?_, waiter.decl.name, by rw [hmethods]; simp⟩
  simp only [PackageStub.classes, List.mem_append]
  exact .inr (List.mem_map_of_mem hmem)

/-- A documented list holds each of its methods, documented. -/
theorem mem_documented {docs : EntityDocs} {methods : List FunctionStub} {others : List String}
    {f : FunctionStub} (hf : f ∈ methods) : docs.document f ∈ documented docs methods others := by
  simp only [documented, List.mem_append]
  exact .inl (.inl (List.mem_map_of_mem hf))

theorem exists_relation_own {owner : Schema.ResourceModel} {own : List FunctionStub}
    (h : (svc.ownMethods owner).Gives own) {r : Schema.Relation} (hr : r ∈ owner.has.values) :
    ∃ f ∈ own, ∃ name, svc.relationMethod name r.resource = .ok f := by
  obtain ⟨actions, relations, rfl, -, hrelations⟩ := methods_own h
  obtain ⟨⟨name, r⟩, hentry, rfl⟩ := List.mem_map.mp hr
  obtain ⟨f, hf, hrelation⟩ := exists_of_mem_forall₂_left hrelations hentry
  exact ⟨f, List.mem_append_right _ hf, name, hrelation⟩

/-- A package of a schema with resources has the service resource and all others. -/
theorem exists_serviceResource (h : svc.package.Gives p) {resources : Schema.Resources}
    (hresources : svc.schema.resources = some resources) :
    ∃ r ∈ p.serviceResource, (svc.serviceResourceOf resources.service).Gives r := by
  have hgives := (entities_package h).2.1
  unfold serviceResource at hgives
  rw [hresources] at hgives
  obtain ⟨r, hr, hgives⟩ := hgives.of_bind
  exact ⟨r, hgives.of_pure.symm, hr⟩

/-- The classes of the service resource are classes of the package. -/
theorem mem_classes_of_serviceResource {made : ServiceResourceStub}
    (hmade : made ∈ p.serviceResource) {c : ClassStub} (hc : c ∈ made.allClasses) :
    c ∈ p.classes := by
  simp only [PackageStub.classes, List.mem_append, List.mem_cons]
  exact .inl (.inl (.inr (List.mem_flatMap.mpr ⟨made, Option.mem_toList.mpr hmade, hc⟩)))

/-- The service resource has the methods of its own relations. -/
theorem documents_serviceRelation (h : svc.package.Gives p) {resources : Schema.Resources}
    (hresources : svc.schema.resources = some resources) {r : Schema.Relation}
    (hr : r ∈ resources.service.has.values) :
    ∃ name f, svc.relationMethod name r.resource = .ok f ∧ svc.Documents p f := by
  obtain ⟨made, hmade, hgives⟩ := exists_serviceResource h hresources
  obtain ⟨own, hown, -, -, hmethods⟩ := methods_serviceResourceOf hgives
  obtain ⟨f, hf, name, hrelation⟩ := exists_relation_own hown hr
  refine ⟨name, f, hrelation, made.decl, mem_classes_of_serviceResource hmade ?_, made.decl.name, ?_⟩
  · simp [ServiceResourceStub.allClasses]
  · rw [hmethods]
    exact mem_documented hf

/-- Every other resource has those of its relations. -/
theorem documents_resourceRelation (h : svc.package.Gives p) {resources : Schema.Resources}
    (hresources : svc.schema.resources = some resources) {resource : String}
    {owner : Schema.ResourceModel} (hentry : (resource, owner) ∈ resources.resources.entries)
    {r : Schema.Relation} (hr : r ∈ owner.has.values) :
    ∃ name f, svc.relationMethod name r.resource = .ok f ∧ svc.Documents p f := by
  have hdeclared : svc.schema.declaredResources = resources.resources := by
    simp only [Schema.declaredResources, hresources]
  have hmodel : svc.schema.resource resource = .ok owner :=
    OrderedMap.lookup_eq_ok_iff_mem.mpr (hdeclared ▸ hentry)
  obtain ⟨made, hmade, hgives⟩ := exists_serviceResource h hresources
  obtain ⟨-, -, -, hothers, -⟩ := methods_serviceResourceOf hgives
  obtain ⟨other, hother, hgives⟩ :=
    exists_of_mem_forall₂_left hothers (hdeclared ▸ OrderedMap.mem_keys_of_mem hentry)
  obtain ⟨model, own, waits, others, hmodel', hown, -, -, hmethods⟩ := methods_resource hgives
  obtain rfl : model = owner := Except.ok.inj (hmodel'.symm.trans hmodel)
  obtain ⟨f, hf, name, hrelation⟩ := exists_relation_own hown hr
  refine ⟨name, f, hrelation, other.decl, mem_classes_of_serviceResource hmade ?_, resource, ?_⟩
  · simp only [ServiceResourceStub.allClasses, List.mem_append, List.mem_cons]
    exact .inl (.inr (List.mem_map_of_mem hother))
  · rw [hmethods]
    exact mem_documented (List.mem_append_left _ hf)

theorem documents_relation (h : svc.package.Gives p) {owner : Schema.ResourceModel}
    (howner : owner ∈ svc.owners) {r : Schema.Relation} (hr : r ∈ owner.has.values) :
    ∃ name f, svc.relationMethod name r.resource = .ok f ∧ svc.Documents p f := by
  rcases List.mem_append.mp howner with howner | howner
  · obtain ⟨resources, hresources, rfl⟩ := List.mem_map.mp howner
    exact documents_serviceRelation h (Option.mem_toList.mp hresources) hr
  · obtain ⟨⟨resource, owner⟩, hentry, rfl⟩ := List.mem_map.mp howner
    cases hresources : svc.schema.resources with
    | none =>
        simp only [Schema.declaredResources, hresources] at hentry
        exact absurd hentry List.not_mem_nil
    | some resources =>
        simp only [Schema.declaredResources, hresources] at hentry
        exact documents_resourceRelation h hresources hentry hr

end Service

end ServiceStubs
