import ServiceStubs.Proofs.Package.Agree
import ServiceStubs.Proofs.Package.Calls

/-!
# What is written does not depend on the session

The dictionaries of a session depend on what it was asked for, and in which order.
What is written of a type, a method or an entity does not: neither its text, nor
what must be imported for it, nor the error of a step that fails.

## Main definitions

* `Rendering` — the texts of a thing and what must be imported for it, with
  `FunctionStub.rendering` and its kin.
* `SessionStep`, `Service.rendered` — what is written of what a step makes.
* `Service.rendered_eq` — it is the same after any two sequences of steps.
-/

namespace ServiceStubs

/-! ## Texts -/

/-- What is written of a method. -/
structure MethodText where
  signature : String
  docstring : String
  decorators : List String
  body : Option String

/-- What is written of a class. -/
structure ClassText where
  header : String
  docstring : String
  attributes : List String
  methods : List MethodText

/-- What is written of a type, of arguments and attributes, of a method, or of an
entity with the names that stand beside its class, and what must be imported. -/
inductive Rendering
  | type (text : String) (imports : ImportSet)
  | arguments (texts : List String) (imports : ImportSet)
  | attributes (texts : List String) (imports : ImportSet)
  | method (text : MethodText) (imports : ImportSet)
  | entity (text : ClassText) (names : List String) (imports : ImportSet)

def TypeExpr.rendering (a : TypeExpr) : Rendering :=
  .type a.text (requiredImports a)

def Argument.renderingAll (as : List Argument) : Rendering :=
  .arguments (as.map Argument.text) (requiredImports as)

def Attribute.renderingAll (as : List Attribute) : Rendering :=
  .attributes (as.map Attribute.text) (requiredImports as)

def FunctionStub.written (f : FunctionStub) : MethodText :=
  ⟨f.signature, f.docstring, f.decoratorTexts, f.body⟩

def FunctionStub.rendering (f : FunctionStub) : Rendering :=
  .method f.written (requiredImports f)

def ClassStub.written (c : ClassStub) : ClassText :=
  ⟨c.header, c.docstring, c.attributes.map Attribute.text, c.methods.map FunctionStub.written⟩

def ClientStub.rendering (c : ClientStub) : Rendering :=
  .entity c.decl.written [c.decl.name] (requiredImports c)

def PaginatorStub.rendering (p : PaginatorStub) : Rendering :=
  .entity p.decl.written [p.decl.name, p.paginatorName, p.operationName] (requiredImports p)

def WaiterStub.rendering (w : WaiterStub) : Rendering :=
  .entity w.decl.written [w.decl.name, w.waiterName, w.operationName] (requiredImports w)

def CollectionStub.rendering (c : CollectionStub) : Rendering :=
  .entity c.decl.written [c.decl.name, c.parentName, c.attributeName, c.itemType.text]
    (requiredImports c)

/-- A resource, then its collections. -/
def ResourceStub.renderings (r : ResourceStub) : List Rendering :=
  .entity r.decl.written [r.decl.name] (requiredImports r)
    :: r.collections.map CollectionStub.rendering

/-- The service resource, its collections, then the other resources. -/
def ServiceResourceStub.renderings (r : ServiceResourceStub) : List Rendering :=
  .entity r.decl.written [r.decl.name] (requiredImports r)
    :: r.collections.map CollectionStub.rendering
    ++ (r.resources.map ResourceStub.renderings).flatten

/-- The service resource, if there is one. -/
def ServiceResourceStub.renderings? (r : Option ServiceResourceStub) : List Rendering :=
  (r.toList.map ServiceResourceStub.renderings).flatten

/-- The entities of a package, then its functions. -/
def PackageStub.renderings (p : PackageStub) : List Rendering :=
  p.client.rendering :: ServiceResourceStub.renderings? p.serviceResource
    ++ p.paginators.map PaginatorStub.rendering ++ p.waiters.map WaiterStub.rendering
    ++ p.factories.map FunctionStub.rendering

/-! ## What is alike is written alike -/

namespace Alike

theorem type_rendering {a b : TypeExpr} (h : Alike a b) : a.rendering = b.rendering := by
  rw [TypeExpr.rendering, h.text_eq, h.requiredImports_eq, TypeExpr.rendering]

theorem arguments_rendering {as bs : List Argument} (h : Alike as bs) :
    Argument.renderingAll as = Argument.renderingAll bs := by
  have htexts : as.map Argument.text = bs.map Argument.text :=
    h.map_eq fun _ _ => Alike.argument_text_eq
  rw [Argument.renderingAll, htexts, h.requiredImports_eq, Argument.renderingAll]

theorem map_attribute_text {as bs : List Attribute} (h : Alike as bs) :
    as.map Attribute.text = bs.map Attribute.text :=
  h.map_eq fun _ _ => Alike.attribute_text_eq

theorem attributes_rendering {as bs : List Attribute} (h : Alike as bs) :
    Attribute.renderingAll as = Attribute.renderingAll bs := by
  rw [Attribute.renderingAll, h.map_attribute_text, h.requiredImports_eq, Attribute.renderingAll]

theorem method_written {f g : FunctionStub} (h : Alike f g) : f.written = g.written := by
  obtain ⟨-, -, -, hdoc, -, hbody⟩ := alike_function_iff.mp h
  rw [FunctionStub.written, h.signature_eq, hdoc, h.decoratorTexts_eq, hbody,
    FunctionStub.written]

theorem method_rendering {f g : FunctionStub} (h : Alike f g) : f.rendering = g.rendering := by
  rw [FunctionStub.rendering, h.method_written, h.requiredImports_eq, FunctionStub.rendering]

theorem class_written {c d : ClassStub} (h : Alike c d) : c.written = d.written := by
  obtain ⟨-, hdoc, -, hattributes, hmethods⟩ := alike_class_iff.mp h
  have hwritten : c.methods.map FunctionStub.written = d.methods.map FunctionStub.written :=
    hmethods.map_eq fun _ _ => Alike.method_written
  rw [ClassStub.written, h.header_eq, hdoc, hattributes.map_attribute_text, hwritten,
    ClassStub.written]

theorem class_name {c d : ClassStub} (h : Alike c d) : c.name = d.name :=
  (alike_class_iff.mp h).1

theorem client_rendering {c d : ClientStub} (h : Alike c d) : c.rendering = d.rendering := by
  have hdecl := alike_client_iff.mp h
  rw [ClientStub.rendering, hdecl.class_written, hdecl.class_name, h.requiredImports_eq,
    ClientStub.rendering]

theorem paginator_rendering {p q : PaginatorStub} (h : Alike p q) :
    p.rendering = q.rendering := by
  obtain ⟨hdecl, hname, hoperation⟩ := alike_paginator_iff.mp h
  rw [PaginatorStub.rendering, hdecl.class_written, hdecl.class_name, hname, hoperation,
    h.requiredImports_eq, PaginatorStub.rendering]

theorem waiter_rendering {v w : WaiterStub} (h : Alike v w) : v.rendering = w.rendering := by
  obtain ⟨hdecl, hname, hoperation⟩ := alike_waiter_iff.mp h
  rw [WaiterStub.rendering, hdecl.class_written, hdecl.class_name, hname, hoperation,
    h.requiredImports_eq, WaiterStub.rendering]

theorem collection_rendering {c d : CollectionStub} (h : Alike c d) :
    c.rendering = d.rendering := by
  obtain ⟨hdecl, hparent, hattribute, hitem⟩ := alike_collection_iff.mp h
  rw [CollectionStub.rendering, hdecl.class_written, hdecl.class_name, hparent, hattribute,
    hitem.text_eq, h.requiredImports_eq, CollectionStub.rendering]

theorem map_collection_rendering {cs ds : List CollectionStub} (h : Alike cs ds) :
    cs.map CollectionStub.rendering = ds.map CollectionStub.rendering :=
  h.map_eq fun _ _ => Alike.collection_rendering

theorem resource_renderings {r q : ResourceStub} (h : Alike r q) :
    r.renderings = q.renderings := by
  obtain ⟨hdecl, hcollections⟩ := alike_resource_iff.mp h
  rw [ResourceStub.renderings, hdecl.class_written, hdecl.class_name, h.requiredImports_eq,
    hcollections.map_collection_rendering, ResourceStub.renderings]

theorem serviceResource_renderings {r q : ServiceResourceStub} (h : Alike r q) :
    r.renderings = q.renderings := by
  obtain ⟨hdecl, hcollections, hresources⟩ := alike_serviceResource_iff.mp h
  have hall : r.resources.map ResourceStub.renderings = q.resources.map ResourceStub.renderings :=
    hresources.map_eq fun _ _ => Alike.resource_renderings
  rw [ServiceResourceStub.renderings, hdecl.class_written, hdecl.class_name,
    h.requiredImports_eq, hcollections.map_collection_rendering, hall,
    ServiceResourceStub.renderings]

theorem serviceResource_renderings? {r q : Option ServiceResourceStub} (h : Alike r q) :
    ServiceResourceStub.renderings? r = ServiceResourceStub.renderings? q := by
  rcases h.cases_option with ⟨rfl, rfl⟩ | ⟨a, b, rfl, rfl, hab⟩
  · rfl
  · simp only [ServiceResourceStub.renderings?, Option.toList_some, List.map_cons,
      hab.serviceResource_renderings]

theorem package_renderings {p q : PackageStub} (h : Alike p q) :
    p.renderings = q.renderings := by
  obtain ⟨-, hclient, hresource, hpaginators, hwaiters, hfactories⟩ := alike_package_iff.mp h
  rw [PackageStub.renderings, hclient.client_rendering, hresource.serviceResource_renderings?,
    hpaginators.map_eq fun _ _ => Alike.paginator_rendering,
    hwaiters.map_eq fun _ _ => Alike.waiter_rendering,
    hfactories.map_eq fun _ _ => Alike.method_rendering, PackageStub.renderings]

end Alike

/-! ## Steps -/

/-- What may be done with a session: a call, or the method of a relation to one
other resource, which asks nothing of the session. -/
inductive SessionStep
  | call (c : Call)
  | getter (name : String) (target : Schema.ResourceTarget)

/-- The call of a step, if it is one. -/
def SessionStep.call? : SessionStep → Option Call
  | .call c => some c
  | .getter _ _ => none

namespace Service

variable (svc : Service)

/-- The session after some steps, one after the other, in a new session. -/
def afterSteps (steps : List SessionStep) : Session :=
  svc.afterAll (steps.filterMap SessionStep.call?)

/-- What is written of what a call makes, or its error. -/
def renderedCall (s : Session) : Call → Except Error (List Rendering)
  | .shapeType position name => .ok [((svc.shapeType position name).val s).rendering]
  | .fixedDict d => .ok [((Session.fixedDict d).val s).rendering]
  | .arguments operation input exclude =>
    .ok [Argument.renderingAll ((svc.arguments operation input exclude).val s)]
  | .returnType o => .ok [((svc.returnType o).val s).rendering]
  | .clientMethod name => ((svc.clientMethod name).outcome s).map ([·.rendering])
  | .paginateMethod name => ((svc.paginateMethod name).outcome s).map ([·.rendering])
  | .waitMethod name => ((svc.waitMethod name).outcome s).map ([·.rendering])
  | .action name a => ((svc.actionOf name a).outcome s).map ([·.rendering])
  | .actionMethod owner name => ((svc.actionMethod owner name).outcome s).map ([·.rendering])
  | .batchMethod name a => ((svc.batchMethod name a).outcome s).map ([·.rendering])
  | .filterMethod relation self =>
    ((svc.filterMethod relation self).outcome s).map ([·.rendering])
  | .resourceWaitMethod name w => ((svc.resourceWaitMethod name w).outcome s).map ([·.rendering])
  | .resourceAttributes r => .ok [Attribute.renderingAll ((svc.resourceAttributes r).val s)]
  | .client => (svc.client.outcome s).map ([·.rendering])
  | .paginators => (svc.paginators.outcome s).map (·.map PaginatorStub.rendering)
  | .waiters => (svc.waiters.outcome s).map (·.map WaiterStub.rendering)
  | .collection parent owner name =>
    ((svc.collection parent owner name).outcome s).map ([·.rendering])
  | .collections parent owner =>
    ((svc.collections parent owner).outcome s).map (·.map CollectionStub.rendering)
  | .resource name => ((svc.resource name).outcome s).map ResourceStub.renderings
  | .serviceResource => (svc.serviceResource.outcome s).map ServiceResourceStub.renderings?
  | .package => (svc.package.outcome s).map PackageStub.renderings

/-- What is written of what a step makes, or its error. -/
def rendered (s : Session) : SessionStep → Except Error (List Rendering)
  | .call c => svc.renderedCall s c
  | .getter name target => (svc.relationMethod name target).map ([·.rendering])

end Service

section Agree

variable {α ρ : Type} [Annotated α] [Skeletal α] {s t : Session} {r : α → ρ}

theorem SessionM.Agree.val_eq {m : SessionM α} (h : SessionM.Agree m m) (hs : s.Valid)
    (ht : t.Valid) (hr : ∀ x y, Alike x y → r x = r y) :
    (Except.ok [r (m.val s)] : Except Error (List ρ)) = .ok [r (m.val t)] := by
  rw [hr _ _ (h s t hs ht).2.2]

theorem Build.Agree.outcome_eq {m m' : Build α} (h : Build.Agree m m') (hs : s.Valid)
    (ht : t.Valid) (hr : ∀ x y, Alike x y → r x = r y) :
    (m.outcome s).map r = (m'.outcome t).map r := by
  rcases (h s t hs ht).2.2.cases with ⟨e, he, he'⟩ | ⟨a, a', ha, ha', halike⟩
  · rw [he, he']
  · rw [ha, ha']
    exact congrArg Except.ok (hr a a' halike)

end Agree

namespace Service

variable (svc : Service) {s t : Session}

/-- What is written of a call is the same in all valid sessions. -/
theorem renderedCall_eq (hs : s.Valid) (ht : t.Valid) (c : Call) :
    svc.renderedCall s c = svc.renderedCall t c := by
  have htype : ∀ {m : SessionM TypeExpr}, SessionM.Agree m m →
      (Except.ok [(m.val s).rendering] : Except Error (List Rendering)) =
        .ok [(m.val t).rendering] :=
    fun h => h.val_eq hs ht fun _ _ => Alike.type_rendering
  have hmethod : ∀ {m : Build FunctionStub}, Build.Agree m m →
      (m.outcome s).map ([·.rendering]) = (m.outcome t).map ([·.rendering]) :=
    fun h => h.outcome_eq hs ht fun _ _ hfg => congrArg ([·]) hfg.method_rendering
  cases c with
  | shapeType position name => exact htype (svc.agree_shapeType position name)
  | fixedDict d => exact htype (agree_fixedDict d)
  | arguments operation input exclude =>
      exact (svc.agree_arguments operation input exclude).val_eq hs ht
        fun _ _ => Alike.arguments_rendering
  | returnType o => exact htype (svc.agree_returnType o)
  | clientMethod name => exact hmethod (svc.agree_clientMethod name)
  | paginateMethod name => exact hmethod (svc.agree_paginateMethod name)
  | waitMethod name => exact hmethod (svc.agree_waitMethod name)
  | action name a => exact hmethod (svc.agree_actionOf name a)
  | actionMethod owner name => exact hmethod (svc.agree_actionMethod owner name)
  | batchMethod name a => exact hmethod (svc.agree_batchMethod name a)
  | filterMethod relation self => exact hmethod (svc.agree_filterMethod relation self)
  | resourceWaitMethod name w => exact hmethod (svc.agree_resourceWaitMethod name w)
  | resourceAttributes r =>
      exact (svc.agree_resourceAttributes r).val_eq hs ht
        fun _ _ => Alike.attributes_rendering
  | client =>
      exact svc.agree_client.outcome_eq hs ht fun _ _ h => congrArg ([·]) h.client_rendering
  | paginators =>
      exact svc.agree_paginators.outcome_eq hs ht fun _ _ h =>
        h.map_eq fun _ _ => Alike.paginator_rendering
  | waiters =>
      exact svc.agree_waiters.outcome_eq hs ht fun _ _ h =>
        h.map_eq fun _ _ => Alike.waiter_rendering
  | collection parent owner name =>
      exact (svc.agree_collection parent owner name).outcome_eq hs ht fun _ _ h =>
        congrArg ([·]) h.collection_rendering
  | collections parent owner =>
      exact (svc.agree_collections parent owner).outcome_eq hs ht fun _ _ h =>
        h.map_collection_rendering
  | resource name =>
      exact (svc.agree_resource name).outcome_eq hs ht fun _ _ => Alike.resource_renderings
  | serviceResource =>
      exact svc.agree_serviceResource.outcome_eq hs ht fun _ _ =>
        Alike.serviceResource_renderings?
  | package => exact svc.agree_package.outcome_eq hs ht fun _ _ => Alike.package_renderings

/-- **A step has the same outcome after any two sequences of steps**: the same error,
or the same texts and imports, whatever the two sessions hold. -/
theorem rendered_eq (before before' : List SessionStep) (x : SessionStep) :
    svc.rendered (svc.afterSteps before) x = svc.rendered (svc.afterSteps before') x := by
  cases x with
  | call c =>
      exact svc.renderedCall_eq (svc.consistent_afterAll _).valid
        (svc.consistent_afterAll _).valid c
  | getter name target => rfl

end Service

end ServiceStubs
