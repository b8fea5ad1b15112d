import ServiceStubs.Package.Basic
import ServiceStubs.Proofs.Package.EntityDocs
import ServiceStubs.Proofs.Session.Methods

/-!
# Entities have known types

Each entity of a package is made by requests to the session, whether or not this
fails.  An entity that is made has the name of its class, and annotations that
are known to the session or name a class of the package: that of a paginator or
waiter, or that of a collection.

## Main definitions

* `Service.accessorTypes` — the classes that the client yields.
* `Service.BuiltServiceResource`, `Service.BuiltPackage` — what holds of the service
  resource and of a whole package.
* `Service.yields_package` — the package.
-/

namespace ServiceStubs.Service

open Text (snakeCase)

variable {svc : Service} {s t : Session} {own : List TypeExpr}

/-! ## The client -/

variable (svc) in
/-- The classes of paginators and waiters, which the client yields. -/
def accessorTypes : List TypeExpr :=
  svc.schema.paginators.keys.map (fun name => .inModule (name ++ "Paginator") paginatorModule)
    ++ svc.schema.waiters.keys.map (fun name => .inModule (name ++ "Waiter") waiterModule)

theorem typed_accessor {method name className module : String}
    (h : .inModule className module ∈ own) :
    svc.Typed s own (accessor method name className module) := by
  rw [typed_function_iff]
  refine ⟨?_, .inl h, ?_⟩
  · simp [accessor, FunctionStub.method]
  · intro d hd
    obtain rfl := List.mem_singleton.mp hd
    exact .inr (known_library (by decide))

theorem typed_paginatorAccessors {fs : List FunctionStub}
    (h : svc.schema.paginators.keys.mapM svc.paginatorAccessor = .ok fs) :
    svc.Typed s svc.accessorTypes fs := by
  refine typed_list_iff.mpr fun f hf => ?_
  obtain ⟨name, hname, hf⟩ := exists_of_mem_forall₂ (forall₂_of_mapM_eq_ok h) hf
  obtain ⟨_, -, hf⟩ := bind_eq_ok_iff.mp hf
  obtain rfl := Except.ok.inj hf
  exact typed_accessor (List.mem_append_left _ (List.mem_map_of_mem hname))

theorem typed_waiterAccessors {fs : List FunctionStub}
    (h : (svc.schema.waiters.entries.mapM fun (name, rule) => svc.waiterAccessor name rule)
      = .ok fs) :
    svc.Typed s svc.accessorTypes fs := by
  refine typed_list_iff.mpr fun f hf => ?_
  obtain ⟨⟨name, rule⟩, hentry, hf⟩ := exists_of_mem_forall₂ (forall₂_of_mapM_eq_ok h) hf
  obtain ⟨_, -, hf⟩ := bind_eq_ok_iff.mp hf
  obtain rfl := Except.ok.inj hf
  exact typed_accessor (List.mem_append_right _
    (List.mem_map_of_mem (OrderedMap.mem_keys_of_mem hentry)))

theorem typed_clientAttributes : svc.Typed s own clientAttributes := by
  have hmeta : svc.Known s (.from? "botocore.client" "ClientMeta") := known_library (by decide)
  have hexceptions : svc.Known s (.from? "botocore.errorfactory" "BaseClientExceptions") :=
    known_library (by decide)
  simp [clientAttributes, hmeta, hexceptions]

theorem yields_client (hs : s.Valid) :
    Build.Yields svc s svc.client fun t c =>
      c.decl.name = svc.serviceName.clientName ∧ svc.Typed t svc.accessorTypes c := by
  unfold client
  refine (yields_clientMethods hs).bind hs fun t operations ht _ hoperations => ?_
  refine .ofExcept_bind fun paginators hpaginators => .ofExcept_bind fun waiters hwaiters =>
    .pure ⟨rfl, ?_⟩
  refine typed_class_iff.mpr ⟨?_, typed_clientAttributes, ?_⟩
  · intro b hb
    obtain rfl := List.mem_singleton.mp hb
    exact .inr (known_library (by decide))
  · simp only [typed_append]
    exact ⟨⟨⟨⟨typed_map_document rfl (hoperations.subset (List.nil_subset _)),
      typed_filterMap_fallback rfl _⟩, typed_paginatorAccessors hpaginators⟩,
      typed_waiterAccessors hwaiters⟩, typed_further rfl _⟩

/-! ## Paginators and waiters -/

/-- A class with one documented method and a base of the library. -/
theorem typed_withMethod {c : ClassStub} {f : FunctionStub} {source name : String}
    (hbases : c.bases = [.from? source name]) (hbase : (source, name) ∈ libraryNames)
    (hattributes : c.attributes = []) (hf : svc.Typed s own f) :
    svc.Typed s own (c.withMethod svc.schema f) := by
  refine typed_class_iff.mpr ⟨?_, ?_, ?_⟩
  · intro b hb
    obtain rfl : b = .from? source name := by simpa [ClassStub.withMethod, hbases] using hb
    exact .inr (known_library hbase)
  · simp [ClassStub.withMethod, hattributes]
  · exact typed_cons.mpr ⟨typed_document rfl hf, typed_nil⟩

theorem yields_paginator (hs : s.Valid) (name : String) :
    Build.Yields svc s (svc.paginator name) fun t p =>
      p.decl.name = name ++ "Paginator" ∧ svc.Typed t [] p := by
  unfold paginator
  exact (yields_paginateMethod hs name).bind hs fun t f _ _ hf =>
    .pure ⟨rfl, typed_withMethod rfl (by decide) rfl hf⟩

theorem yields_paginators (hs : s.Valid) :
    Build.Yields svc s svc.paginators fun t ps =>
      ps.map (·.decl.name) = svc.schema.paginators.keys.map (· ++ "Paginator") ∧
        svc.Typed t [] ps := by
  refine (Build.Yields.mapM hs (fun _ _ _ _ htu h => ⟨h.1, h.2.mono htu⟩)
    fun name _ _ ht _ => yields_paginator ht name).imp fun t ps hps => ⟨?_, ?_⟩
  · exact map_eq_of_forall₂ (hps.imp fun _ _ h => h.1)
  · exact typed_of_forall₂ (hps.imp fun _ _ h => h.2)

theorem yields_waiter (hs : s.Valid) (name : String) (rule : Schema.WaitingRule) :
    Build.Yields svc s (svc.waiter name rule) fun t w =>
      w.decl.name = name ++ "Waiter" ∧ svc.Typed t [] w := by
  unfold waiter
  exact (yields_waitMethod hs name).bind hs fun t f _ _ hf =>
    .pure ⟨rfl, typed_withMethod rfl (by decide) rfl hf⟩

theorem yields_waiters (hs : s.Valid) :
    Build.Yields svc s svc.waiters fun t ws =>
      ws.map (·.decl.name) = svc.schema.waiters.keys.map (· ++ "Waiter") ∧
        svc.Typed t [] ws := by
  refine (Build.Yields.mapM hs (fun _ _ _ _ htu h => ⟨h.1, h.2.mono htu⟩)
    fun entry _ _ ht _ => yields_waiter ht entry.1 entry.2).imp fun t ws hws => ⟨?_, ?_⟩
  · rw [OrderedMap.keys, List.map_map]
    exact map_eq_of_forall₂ (hws.imp fun _ _ h => h.1)
  · exact typed_of_forall₂ (hws.imp fun _ _ h => h.2)

/-! ## Collections -/

theorem typed_collection_iff {c : CollectionStub} :
    svc.Typed s own c ↔ svc.Typed s own c.decl ∧ (c.itemType ∈ own ∨ svc.Known s c.itemType) := by
  simp only [Typed]
  change (∀ a ∈ Annotated.annotations c.decl ++ [c.itemType], _) ↔ _
  simp [or_imp, forall_and]

theorem typed_baseMethods {c : CollectionStub} {filter : FunctionStub}
    (hitem : svc.Known s c.itemType) (hfilter : svc.Typed s [c.decl.type] filter) :
    svc.Typed s [c.decl.type] (c.baseMethods filter) := by
  simp [CollectionStub.baseMethods, hfilter, hitem]

/-- The resource that a relation leads to is declared. -/
theorem known_itemModel {name : String} {relation : Schema.Action} {item : String}
    {model : Schema.ResourceModel} (h : svc.itemModel name relation = .ok (item, model)) :
    svc.Known s (.resource item) := by
  unfold itemModel at h
  split at h
  · nomatch h
  · obtain ⟨model', hmodel, h⟩ := bind_eq_ok_iff.mp h
    obtain ⟨rfl, rfl⟩ := Prod.mk.inj (Except.ok.inj h)
    exact known_resource (Schema.exists_resource_iff.mp ⟨_, hmodel⟩)

variable (svc) in
/-- What holds of a collection that is made: its class has the ending of
collections, and uses known types and itself. -/
structure BuiltCollection (s : Session) (c : CollectionStub) : Prop where
  name : ∃ stem, c.decl.name = stem ++ "Collection"
  typed : svc.Typed s [c.decl.type] c

theorem BuiltCollection.mono {c : CollectionStub} (h : svc.BuiltCollection s c)
    (hst : s.Grows t) : svc.BuiltCollection t c :=
  { h with typed := h.typed.mono hst }

theorem yields_collection (hs : s.Valid) (parent : String) (owner : Schema.ResourceModel)
    (name : String) :
    Build.Yields svc s (svc.collection parent owner name) svc.BuiltCollection := by
  unfold collection
  refine .ofExcept_bind fun relation _ => .ofExcept_bind fun target htarget => ?_
  obtain ⟨item, model⟩ := target
  dsimp only
  refine (yields_filterMethod hs relation _).bind hs fun t filter ht _ hfilter => ?_
  refine (yields_build_mapM ht fun entry _ u hu _ =>
    yields_batchMethod hu entry.1 entry.2).bind ht fun u batch hu htu hbatch => .pure ⟨⟨_, rfl⟩, ?_⟩
  have hitem : svc.Known u (.resource item) := known_itemModel htarget
  refine typed_collection_iff.mpr ⟨typed_class_iff.mpr ⟨?_, typed_nil, ?_⟩, .inr hitem⟩
  · intro b hb
    obtain rfl := List.mem_singleton.mp hb
    exact .inr (known_library (by decide))
  · refine typed_map_document rfl (typed_append.mpr ⟨?_, hbatch.subset (List.nil_subset _)⟩)
    exact typed_baseMethods hitem (hfilter.mono htu)

theorem yields_collections (hs : s.Valid) (parent : String) (owner : Schema.ResourceModel) :
    Build.Yields svc s (svc.collections parent owner) fun t cs =>
      ∀ c ∈ cs, svc.BuiltCollection t c := by
  refine (Build.Yields.mapM hs (fun _ _ _ _ htu h => h.mono htu)
    fun name _ _ ht _ => yields_collection ht parent owner name).imp fun t cs hcs c hc => ?_
  obtain ⟨_, -, h⟩ := exists_of_mem_forall₂ hcs hc
  exact h

theorem typed_collections {cs : List CollectionStub} (h : ∀ c ∈ cs, svc.BuiltCollection s c)
    (hown : cs.map (·.decl.type) ⊆ own) : svc.Typed s own cs :=
  typed_list_iff.mpr fun c hc => (h c hc).typed.subset
    (List.cons_subset.mpr ⟨hown (List.mem_map_of_mem hc), List.nil_subset _⟩)

/-- The attributes that are collections. -/
theorem typed_collectionAttributes {cs : List CollectionStub}
    (hown : cs.map (·.decl.type) ⊆ own) : svc.Typed s own (cs.map (·.asAttribute)) := by
  refine typed_list_iff.mpr fun a ha => ?_
  obtain ⟨c, hc, rfl⟩ := List.mem_map.mp ha
  exact typed_attribute.mpr (.inl (hown (List.mem_map_of_mem hc)))

/-! ## Resources -/

theorem yields_ownMethods (hs : s.Valid) (owner : Schema.ResourceModel) :
    Build.Yields svc s (svc.ownMethods owner) (svc.Typed · []) := by
  unfold ownMethods
  refine (yields_build_mapM hs fun name _ t ht _ => yields_actionMethod ht owner name).bind hs
    fun t actions ht _ hactions => .ofExcept_bind fun relations hrelations => .pure ?_
  refine typed_append.mpr ⟨hactions, typed_list_iff.mpr fun f hf => ?_⟩
  obtain ⟨_, -, hf⟩ := exists_of_mem_forall₂ (forall₂_of_mapM_eq_ok hrelations) hf
  exact typed_relationMethod hf

theorem yields_waitMethods (hs : s.Valid) (owner : Schema.ResourceModel) :
    Build.Yields svc s (svc.waitMethods owner) (svc.Typed · []) :=
  yields_build_mapM hs fun entry _ _ ht _ => yields_resourceWaitMethod ht entry.1 entry.2

theorem typed_documented {docs : EntityDocs} (hdocs : docs.schema = svc.schema)
    {methods : List FunctionStub} (h : svc.Typed s own methods) (others : List String) :
    svc.Typed s own (documented docs methods others) := by
  simp only [documented, typed_append]
  exact ⟨⟨typed_map_document hdocs h, typed_filterMap_fallback hdocs others⟩,
    typed_further hdocs _⟩

theorem typed_metaAttribute : svc.Typed s own metaAttribute :=
  typed_attribute.mpr (.inr (known_library (by decide)))

theorem typed_resource_iff {r : ResourceStub} :
    svc.Typed s own r ↔ svc.Typed s own r.decl ∧ svc.Typed s own r.collections := by
  simp only [Typed]
  change (∀ a ∈ Annotated.annotations r.decl ++ Annotated.annotations r.collections, _) ↔ _
  simp only [List.mem_append, or_imp, forall_and]

variable (svc) in
/-- What holds of a resource that is made. -/
structure BuiltResource (s : Session) (name : String) (r : ResourceStub) : Prop where
  name : r.decl.name = name
  collections : ∀ c ∈ r.collections, svc.BuiltCollection s c
  typed : svc.Typed s (r.collections.map (·.decl.type)) r

theorem BuiltResource.mono {name : String} {r : ResourceStub} (h : svc.BuiltResource s name r)
    (hst : s.Grows t) : svc.BuiltResource t name r where
  name := h.name
  collections c hc := (h.collections c hc).mono hst
  typed := h.typed.mono hst

theorem yields_resource (hs : s.Valid) (name : String) :
    Build.Yields svc s (svc.resource name) fun t r => svc.BuiltResource t name r := by
  unfold resource
  refine .ofExcept_bind fun model _ => ?_
  refine .lift_bind (yields_resourceAttributes hs model) hs fun t attributes ht _ hattributes => ?_
  refine (yields_ownMethods ht model).bind ht fun u methods hu htu hmethods => ?_
  refine (yields_waitMethods hu model).bind hu fun v waits hv huv hwaits => ?_
  refine (yields_collections hv name model).bind hv fun w collections _ hvw hcollections =>
    .pure ⟨rfl, hcollections, ?_⟩
  refine typed_resource_iff.mpr ⟨typed_class_iff.mpr ⟨?_, ?_, ?_⟩,
    typed_collections hcollections (List.Subset.refl _)⟩
  · intro b hb
    obtain rfl := List.mem_singleton.mp hb
    exact .inr (known_library (by decide))
  · exact typed_append.mpr ⟨((hattributes.mono htu).mono (huv.trans hvw)).subset
      (List.nil_subset _), typed_cons.mpr ⟨typed_metaAttribute,
        typed_collectionAttributes (List.Subset.refl _)⟩⟩
  · refine typed_documented rfl (typed_append.mpr ⟨?_, ?_⟩) _
    · exact (hmethods.mono (huv.trans hvw)).subset (List.nil_subset _)
    · exact (hwaits.mono hvw).subset (List.nil_subset _)

variable (svc) in
/-- What holds of the service resource that is made. -/
structure BuiltServiceResource (s : Session) (r : ServiceResourceStub) : Prop where
  name : r.decl.name = svc.serviceName.serviceResourceName
  resources : r.resources.map (·.decl.name) = svc.resourceNames
  collections : ∀ c ∈ r.allCollections, svc.BuiltCollection s c
  typed : svc.Typed s (r.allCollections.map (·.decl.type)) r

theorem typed_serviceResource_iff {r : ServiceResourceStub} :
    svc.Typed s own r ↔
      svc.Typed s own r.decl ∧ svc.Typed s own r.collections ∧ svc.Typed s own r.resources := by
  simp only [Typed]
  change (∀ a ∈ Annotated.annotations r.decl ++ Annotated.annotations r.collections
    ++ Annotated.annotations r.resources, _) ↔ _
  simp only [List.mem_append, or_imp, forall_and, and_assoc]

theorem yields_serviceResourceOf (hs : s.Valid) (service : Schema.ResourceModel) :
    Build.Yields svc s (svc.serviceResourceOf service) svc.BuiltServiceResource := by
  unfold serviceResourceOf
  refine (yields_ownMethods hs service).bind hs fun t methods ht _ hmethods => ?_
  refine (yields_collections ht _ service).bind ht fun u collections hu htu hcollections => ?_
  refine (Build.Yields.mapM hu (fun _ _ _ _ htu h => h.mono htu)
    fun name _ v hv _ => yields_resource hv name).bind hu
      fun v resources _ huv hresources => .pure ⟨rfl, ?_, ?_, ?_⟩
  · exact (map_eq_of_forall₂ (hresources.imp fun _ _ h => h.name)).trans (List.map_id _)
  · intro c hc
    rcases List.mem_append.mp hc with hc | hc
    · exact (hcollections c hc).mono huv
    · obtain ⟨r, hr, hc⟩ := List.mem_flatMap.mp hc
      obtain ⟨_, -, hbuilt⟩ := exists_of_mem_forall₂ hresources hr
      exact hbuilt.collections c hc
  · have hleft : collections.map (·.decl.type) ⊆
        (collections ++ resources.flatMap (·.collections)).map (·.decl.type) :=
      List.map_subset _ (List.subset_append_left _ _)
    refine typed_serviceResource_iff.mpr ⟨typed_class_iff.mpr ⟨?_, ?_, ?_⟩, ?_, ?_⟩
    · intro b hb
      obtain rfl := List.mem_singleton.mp hb
      exact .inr (known_library (by decide))
    · exact typed_cons.mpr ⟨typed_metaAttribute, typed_collectionAttributes hleft⟩
    · exact typed_documented rfl ((hmethods.mono (htu.trans huv)).subset (List.nil_subset _)) _
    · exact typed_collections (fun c hc => (hcollections c hc).mono huv) hleft
    · refine typed_list_iff.mpr fun r hr => ?_
      obtain ⟨_, -, hbuilt⟩ := exists_of_mem_forall₂ hresources hr
      refine hbuilt.typed.subset (List.map_subset _ fun c hc => ?_)
      exact List.mem_append_right _ (List.mem_flatMap.mpr ⟨r, hr, hc⟩)

theorem yields_serviceResource (hs : s.Valid) :
    Build.Yields svc s svc.serviceResource fun t made =>
      made.isSome = svc.schema.resources.isSome ∧ ∀ r ∈ made, svc.BuiltServiceResource t r := by
  unfold serviceResource
  cases svc.schema.resources with
  | none => exact .pure ⟨rfl, nofun⟩
  | some resources =>
      refine (yields_serviceResourceOf hs resources.service).bind hs
        fun t r _ _ hr => .pure ⟨rfl, ?_⟩
      rintro _ ⟨⟩
      exact hr

/-! ## Factory functions -/

/-- What the factory functions of a service make. -/
def products (n : ServiceName) (hasResource : Bool) : List TypeExpr :=
  (Factory.client :: if hasResource then [Factory.resource] else []).map (·.product n)

theorem typed_factories (n : ServiceName) (hasResource : Bool) :
    svc.Typed s (products n hasResource) (n.factories hasResource) := by
  refine typed_list_iff.mpr fun f hf => ?_
  obtain ⟨factory, hfactory, rfl⟩ := List.mem_map.mp hf
  refine typed_function_iff.mpr ⟨?_, .inl (List.mem_map_of_mem hfactory), nofun⟩
  have hsession : svc.Known s (.from? "boto3.session" "Session") := known_library (by decide)
  have hconfig : svc.Known s (.from? "botocore.config" "Config") := known_library (by decide)
  simp [Factory.function, Factory.arguments, forwardedSettings, TypeExpr.optionalOf,
    TypeExpr.unionOf, hsession, hconfig]

/-! ## Packages -/

theorem BuiltServiceResource.mono {r : ServiceResourceStub} (h : svc.BuiltServiceResource s r)
    (hst : s.Grows t) : svc.BuiltServiceResource t r where
  name := h.name
  resources := h.resources
  collections c hc := (h.collections c hc).mono hst
  typed := h.typed.mono hst

variable (svc) in
/-- What holds of a package that is made: its entities have the names that the
schema gives them, and known types. -/
structure BuiltPackage (s : Session) (p : PackageStub) : Prop where
  service : p.service = svc.serviceName
  client_name : p.client.decl.name = svc.serviceName.clientName
  client : svc.Typed s svc.accessorTypes p.client
  resource_isSome : p.serviceResource.isSome = svc.schema.resources.isSome
  resource : ∀ r ∈ p.serviceResource, svc.BuiltServiceResource s r
  paginator_names :
    p.paginators.map (·.decl.name) = svc.schema.paginators.keys.map (· ++ "Paginator")
  paginators : svc.Typed s [] p.paginators
  waiter_names : p.waiters.map (·.decl.name) = svc.schema.waiters.keys.map (· ++ "Waiter")
  waiters : svc.Typed s [] p.waiters
  factories : p.factories = svc.serviceName.factories p.serviceResource.isSome

/-- **A package is made by requests to the session, and what is made has known
types.** -/
theorem yields_package (hs : s.Valid) : Build.Yields svc s svc.package svc.BuiltPackage := by
  unfold package
  refine (yields_client hs).bind hs fun t client ht _ hclient => ?_
  refine (yields_serviceResource ht).bind ht fun u resource hu htu hresource => ?_
  refine (yields_paginators hu).bind hu fun v paginators hv huv hpaginators => ?_
  refine (yields_waiters hv).bind hv fun w waiters _ hvw hwaiters => .pure ?_
  have huw : u.Grows w := huv.trans hvw
  exact ⟨rfl, hclient.1, hclient.2.mono (htu.trans huw), hresource.1,
    fun r hr => (hresource.2 r hr).mono huw, hpaginators.1, hpaginators.2.mono hvw,
    hwaiters.1, hwaiters.2, rfl⟩

end ServiceStubs.Service
