import ServiceStubs.Package.Basic
import ServiceStubs.Proofs.Session.Agree

/-!
# Entities in two sessions

Entities are put together from methods, attributes and their documentation, which
looks at names only.  So a step that makes an entity agrees in all sessions when
the steps that make its parts do.

## Main definitions

* `Alike.document`, `Alike.further_eq` — documentation of methods that are alike.
* `Service.agree_client`, `Service.agree_collection`, `Service.agree_resource` and
  their kin — the entities.
-/

namespace ServiceStubs

open Documentation

/-! ## Documentation -/

section Documentation

variable {f g : FunctionStub} {fs gs : List FunctionStub}

theorem Alike.document (h : Alike f g) (docs : EntityDocs) :
    Alike (docs.document f) (docs.document g) := by
  have hname : f.name = g.name := (alike_function_iff.mp h).1
  unfold EntityDocs.document
  rw [hname]
  split
  · exact h
  · split
    · exact h.complete _
    · exact h

theorem Alike.map_document (h : Alike fs gs) (docs : EntityDocs) :
    Alike (fs.map docs.document) (gs.map docs.document) :=
  h.map fun _ _ hfg => hfg.document docs

/-- The documented methods that an entity lacks depend on names only. -/
theorem Alike.further_eq (h : Alike fs gs) (docs : EntityDocs) :
    docs.further fs = docs.further gs := by
  have hnames : fs.map (·.name) = gs.map (·.name) :=
    h.map_eq fun _ _ hfg => (alike_function_iff.mp hfg).1
  have hall : ∀ (n : String) (fs : List FunctionStub),
      fs.all (·.name ≠ n) = (fs.map (·.name)).all (· ≠ n) := by
    intro n fs
    rw [List.all_map]
    rfl
  simp only [EntityDocs.further, hall, hnames]

theorem Alike.append_further (h : Alike fs gs) (docs : EntityDocs) :
    Alike (fs ++ docs.further fs) (gs ++ docs.further gs) := by
  rw [h.further_eq docs]
  exact h.append (.refl _)

theorem Alike.documented (h : Alike fs gs) (docs : EntityDocs) (others : List String) :
    Alike (Service.documented docs fs others) (Service.documented docs gs others) :=
  ((h.map_document docs).append (.refl (others.filterMap docs.fallback?))).append_further docs

/-- A class with one method, documented. -/
theorem Alike.withMethod (h : Alike f g) (c : ClassStub) (s : Schema) :
    Alike (c.withMethod s f) (c.withMethod s g) :=
  alike_class_iff.mpr ⟨rfl, rfl, .refl _, .refl _, (h.document _).cons (.refl [])⟩

end Documentation

namespace Service

variable (svc : Service)

/-! ## The low-level service -/

theorem agree_client : Build.Agree svc.client svc.client := by
  unfold client
  refine Build.Agree.bind (.mapM fun name _ => svc.agree_clientMethod name)
    fun fs fs' hfs => ?_
  refine .ofExcept_bind fun paginators _ => .ofExcept_bind fun waiters _ => .pure ?_
  refine alike_client_iff.mpr (alike_class_iff.mpr ⟨rfl, rfl, .refl _, .refl _, ?_⟩)
  exact Alike.append_further
    ((((hfs.map_document _).append (.refl _)).append (.refl paginators)).append (.refl waiters)) _

theorem agree_paginator (name : String) :
    Build.Agree (svc.paginator name) (svc.paginator name) := by
  unfold paginator
  exact (svc.agree_paginateMethod name).bind fun f f' hf =>
    .pure (alike_paginator_iff.mpr ⟨hf.withMethod _ _, rfl, rfl⟩)

theorem agree_paginators : Build.Agree svc.paginators svc.paginators :=
  .mapM fun name _ => svc.agree_paginator name

theorem agree_waiter (name : String) (rule : Schema.WaitingRule) :
    Build.Agree (svc.waiter name rule) (svc.waiter name rule) := by
  unfold waiter
  exact (svc.agree_waitMethod name).bind fun f f' hf =>
    .pure (alike_waiter_iff.mpr ⟨hf.withMethod _ _, rfl, rfl⟩)

theorem agree_waiters : Build.Agree svc.waiters svc.waiters :=
  .mapM fun entry _ => svc.agree_waiter entry.1 entry.2

/-! ## Collections -/

theorem alike_baseMethods {filter filter' : FunctionStub} (h : Alike filter filter')
    (c : CollectionStub) : Alike (c.baseMethods filter) (c.baseMethods filter') :=
  (Alike.refl _).cons (h.cons (.refl _))

theorem agree_collection (parent : String) (owner : Schema.ResourceModel) (name : String) :
    Build.Agree (svc.collection parent owner name) (svc.collection parent owner name) := by
  unfold collection
  refine .ofExcept_bind fun relation _ => .ofExcept_bind fun target _ => ?_
  obtain ⟨item, model⟩ := target
  refine (svc.agree_filterMethod relation _).bind fun filter filter' hfilter => ?_
  refine Build.Agree.bind (.mapM fun entry _ => svc.agree_batchMethod entry.1 entry.2)
    fun batch batch' hbatch => .pure ?_
  refine alike_collection_iff.mpr
    ⟨alike_class_iff.mpr ⟨rfl, rfl, .refl _, .refl _, ?_⟩, rfl, rfl, .refl _⟩
  exact ((alike_baseMethods hfilter _).append hbatch).map_document _

theorem agree_collections (parent : String) (owner : Schema.ResourceModel) :
    Build.Agree (svc.collections parent owner) (svc.collections parent owner) :=
  .mapM fun name _ => svc.agree_collection parent owner name

/-- The attributes that are collections depend on names only. -/
theorem alike_asAttribute {cs cs' : List CollectionStub} (h : Alike cs cs') :
    Alike (cs.map (·.asAttribute)) (cs'.map (·.asAttribute)) := by
  refine h.map fun c c' hc => ?_
  obtain ⟨hdecl, -, hattribute, -⟩ := alike_collection_iff.mp hc
  have hname : c.decl.name = c'.decl.name := (alike_class_iff.mp hdecl).1
  refine alike_attribute_iff.mpr ⟨hattribute, ?_⟩
  rw [CollectionStub.asAttribute, CollectionStub.asAttribute, ClassStub.type, hname]
  exact .refl _

/-! ## Resources -/

theorem agree_ownMethods (owner : Schema.ResourceModel) :
    Build.Agree (svc.ownMethods owner) (svc.ownMethods owner) := by
  unfold ownMethods
  refine Build.Agree.bind (.mapM fun name _ => svc.agree_actionMethod owner name)
    fun actions actions' hactions => ?_
  exact .ofExcept_bind fun relations _ => .pure (hactions.append (.refl relations))

theorem agree_waitMethods (owner : Schema.ResourceModel) :
    Build.Agree (svc.waitMethods owner) (svc.waitMethods owner) :=
  .mapM fun entry _ => svc.agree_resourceWaitMethod entry.1 entry.2

theorem agree_resource (name : String) :
    Build.Agree (svc.resource name) (svc.resource name) := by
  unfold resource
  refine .ofExcept_bind fun model _ => ?_
  refine .lift_bind (svc.agree_resourceAttributes model) fun as as' has => ?_
  refine (svc.agree_ownMethods model).bind fun own own' hown => ?_
  refine (svc.agree_waitMethods model).bind fun waits waits' hwaits => ?_
  refine (svc.agree_collections name model).bind fun cs cs' hcs => .pure ?_
  refine alike_resource_iff.mpr ⟨alike_class_iff.mpr ⟨rfl, rfl, .refl _, ?_, ?_⟩, hcs⟩
  · exact has.append (.cons (.refl _) (alike_asAttribute hcs))
  · exact (hown.append hwaits).documented _ _

theorem agree_serviceResourceOf (service : Schema.ResourceModel) :
    Build.Agree (svc.serviceResourceOf service) (svc.serviceResourceOf service) := by
  unfold serviceResourceOf
  refine (svc.agree_ownMethods service).bind fun own own' hown => ?_
  refine (svc.agree_collections _ service).bind fun cs cs' hcs => ?_
  refine Build.Agree.bind (.mapM fun name _ => svc.agree_resource name) fun rs rs' hrs => .pure ?_
  refine alike_serviceResource_iff.mpr
    ⟨alike_class_iff.mpr ⟨rfl, rfl, .refl _, ?_, hown.documented _ _⟩, hcs, hrs⟩
  exact .cons (.refl _) (alike_asAttribute hcs)

theorem agree_serviceResource : Build.Agree svc.serviceResource svc.serviceResource := by
  unfold serviceResource
  cases svc.schema.resources with
  | none => exact .pure (.refl none)
  | some resources =>
      exact (svc.agree_serviceResourceOf resources.service).bind fun r r' hr =>
        .pure (congrArg some hr)

/-! ## Packages -/

theorem agree_package : Build.Agree svc.package svc.package := by
  unfold package
  refine svc.agree_client.bind fun client client' hclient => ?_
  refine svc.agree_serviceResource.bind fun resource resource' hresource => ?_
  refine svc.agree_paginators.bind fun paginators paginators' hpaginators => ?_
  refine svc.agree_waiters.bind fun waiters waiters' hwaiters => .pure ?_
  have hsome : resource.isSome = resource'.isSome := by
    rcases hresource.cases_option with ⟨rfl, rfl⟩ | ⟨_, _, rfl, rfl, -⟩ <;> rfl
  refine alike_package_iff.mpr ⟨rfl, hclient, hresource, hpaginators, hwaiters, ?_⟩
  rw [hsome]
  exact .refl _

end Service

end ServiceStubs
