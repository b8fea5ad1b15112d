import ServiceStubs.Proofs.Package.Dictionaries
import ServiceStubs.Proofs.Session.Sameness

/-!
# What calls hand out

A call hands out the annotations of what it makes: of a type itself, of arguments
and results, of attributes, and of the classes of a package.  Whoever has them
reaches dictionaries through them, in their parts and in the fields of other
dictionaries; all of these are the session's.

## Main definitions

* `Session.Covers` — annotations refer to dictionaries of the session only.
* `Service.handed` — the annotations that a call hands out.
* `Service.covers_handed` — they refer to dictionaries of the session.
* `Service.Consistent.has_of_reachedFrom` — what is reached is the session's.
-/

namespace ServiceStubs

variable {svc : Service} {s t : Session} {α : Type} [Annotated α] {own : List TypeExpr}

/-! ## Annotations of a session -/

/-- The dictionaries in the types are the session's. -/
def Session.Covers (s : Session) (as : List TypeExpr) : Prop :=
  ∀ a ∈ as, ∀ r, .dict r ∈ a.nodes → s.Has r

namespace Session.Covers

variable {as bs : List TypeExpr}

theorem append (has : s.Covers as) (hbs : s.Covers bs) : s.Covers (as ++ bs) := by
  intro a ha
  rcases List.mem_append.mp ha with ha | ha
  · exact has a ha
  · exact hbs a ha

theorem mono (h : s.Covers as) (hst : s.Grows t) : t.Covers as :=
  fun a ha r hr => hst.has (h a ha r hr)

/-- Elements of a list are covered one by one. -/
theorem list {xs : List α} (h : ∀ x ∈ xs, s.Covers (Annotated.annotations x)) :
    s.Covers (Annotated.annotations xs) := by
  intro a ha
  obtain ⟨x, hx, ha⟩ := List.mem_flatMap.mp ha
  exact h x hx a ha

theorem option {x : Option α} (h : ∀ y ∈ x, s.Covers (Annotated.annotations y)) :
    s.Covers (Annotated.annotations x) := by
  intro a ha
  obtain ⟨y, hy, ha⟩ := List.mem_flatMap.mp ha
  exact h y (Option.mem_toList.mp hy) a ha

end Session.Covers

namespace Service

theorem not_isClass_dict (r : DictRef) : ¬ IsClass (.dict r) := by
  rintro ⟨name, module, c, h, -⟩
  nomatch h

/-- Known types refer to dictionaries of the session, and classes of a package to
none. -/
theorem Typed.covers {x : α} (h : svc.Typed s own x) (hown : ∀ a ∈ own, IsClass a) :
    s.Covers (Annotated.annotations x) := by
  intro a ha r hr
  rcases h.head hown ha hr with hmem | hknown
  · exact absurd (hown _ hmem) (not_isClass_dict r)
  · exact hknown

theorem Typed.covers_nil {x : α} (h : svc.Typed s [] x) : s.Covers (Annotated.annotations x) :=
  h.covers nofun

/-- **What is reached from annotations of a session is the session's.** -/
theorem Consistent.has_of_reachedFrom {returned : String → Prop} (h : svc.Consistent returned s)
    {as : List TypeExpr} (has : s.Covers as) {r : DictRef}
    (hr : s.store.ReachedFrom as (.dict r)) : s.Has r := by
  obtain ⟨a, ha, t, ht, hreaches⟩ := hr
  cases t with
  | dict r' => exact h.knownHead_of_reaches (a := .dict r') (has a ha r' ht) hreaches
  | _ => nomatch Store.eq_of_reaches (by simp) hreaches

/-! ## Entities -/

theorem BuiltCollection.covers {c : CollectionStub} (h : svc.BuiltCollection s c) :
    s.Covers (Annotated.annotations c) :=
  h.typed.covers fun _ ha => List.mem_singleton.mp ha ▸ h.isClass

theorem BuiltResource.covers {name : String} {r : ResourceStub}
    (h : svc.BuiltResource s name r) : s.Covers (Annotated.annotations r) := by
  refine h.typed.covers fun a ha => ?_
  obtain ⟨c, hc, rfl⟩ := List.mem_map.mp ha
  exact (h.collections c hc).isClass

theorem BuiltPackage.covers_entities {p : PackageStub} (h : svc.BuiltPackage s p) :
    s.Covers p.entityAnnotations := by
  refine .append (.append (.append ?_ ?_) ?_) ?_
  · exact h.client.covers isClass_accessorTypes
  · exact .option fun r hr => (h.resource r hr).typed.covers (h.resource r hr).isClass
  · exact h.paginators.covers_nil
  · exact h.waiters.covers_nil

theorem BuiltPackage.covers {p : PackageStub} (h : svc.BuiltPackage s p) :
    s.Covers (Annotated.annotations p) := by
  have hfactories : svc.Typed s (products svc.serviceName p.serviceResource.isSome) p.factories :=
    h.factories ▸ typed_factories _ _
  exact h.covers_entities.append (hfactories.covers (isClass_products _ _))

end Service

/-! ## Handing out -/

/-- The annotations of what a step makes. -/
def SessionM.handed (m : SessionM α) (s : Session) : List TypeExpr :=
  Annotated.annotations (m.val s)

/-- The annotations of what a step makes, if it succeeds. -/
def Build.handed (m : Build α) (s : Session) : List TypeExpr :=
  Annotated.annotations (m.outcome s).toOption

theorem SessionM.Yields.covers {m : SessionM α} (h : SessionM.Yields svc s m (svc.Typed · [])) :
    (m.state s).Covers (m.handed s) :=
  h.holds.covers_nil

/-- A type that is known is handed out as it is. -/
theorem SessionM.Yields.covers_known {m : SessionM TypeExpr}
    (h : SessionM.Yields svc s m fun t a => svc.Known t a) : (m.state s).Covers (m.handed s) :=
  (h.imp fun _ _ ha => Service.typed_typeExpr.mpr (.inr ha)).covers

theorem Build.Yields.holds_of_mem {β : Type} {m : Build β} {Q : Session → β → Prop}
    (h : Build.Yields svc s m Q) {a : β} (ha : a ∈ (m.outcome s).toOption) : Q (m.state s) a := by
  cases hm : m.outcome s with
  | error e => simp [hm, Except.toOption] at ha
  | ok b =>
      obtain rfl : b = a := by simpa [hm, Except.toOption] using ha
      exact h.holds b hm

theorem Build.Yields.covers {m : Build α} {Q : Session → α → Prop} (h : Build.Yields svc s m Q)
    (hQ : ∀ t a, Q t a → t.Covers (Annotated.annotations a)) :
    (m.state s).Covers (m.handed s) :=
  .option fun _ ha => hQ _ _ (h.holds_of_mem ha)

theorem Build.Yields.covers_typed {m : Build α} (h : Build.Yields svc s m (svc.Typed · [])) :
    (m.state s).Covers (m.handed s) :=
  h.covers fun _ _ ha => ha.covers_nil

namespace Service

variable (svc)

/-- The annotations that a call hands out.  The type that stands for a collection is
given to the call that makes its method, so only the arguments are handed out there. -/
def handed (s : Session) : Call → List TypeExpr
  | .shapeType position name => (svc.shapeType position name).handed s
  | .fixedDict d => (Session.fixedDict d).handed s
  | .arguments operation input exclude => (svc.arguments operation input exclude).handed s
  | .returnType o => (svc.returnType o).handed s
  | .clientMethod name => (svc.clientMethod name).handed s
  | .paginateMethod name => (svc.paginateMethod name).handed s
  | .waitMethod name => (svc.waitMethod name).handed s
  | .action name a => (svc.actionOf name a).handed s
  | .actionMethod owner name => (svc.actionMethod owner name).handed s
  | .batchMethod name a => (svc.batchMethod name a).handed s
  | .filterMethod relation self =>
    Annotated.annotations (((svc.filterMethod relation self).outcome s).toOption.map (·.arguments))
  | .resourceWaitMethod name w => (svc.resourceWaitMethod name w).handed s
  | .resourceAttributes r => (svc.resourceAttributes r).handed s
  | .client => svc.client.handed s
  | .paginators => svc.paginators.handed s
  | .waiters => svc.waiters.handed s
  | .collection parent owner name => (svc.collection parent owner name).handed s
  | .collections parent owner => (svc.collections parent owner).handed s
  | .resource name => (svc.resource name).handed s
  | .serviceResource => svc.serviceResource.handed s
  | .package => svc.package.handed s

variable {svc}

theorem yields_shapeType (hs : s.Valid) (position : Position) (name : String) :
    SessionM.Yields svc s (svc.shapeType position name) fun t a => svc.Known t a :=
  ⟨⟨[.shape position name], rfl⟩, (shapeType_spec svc hs position name).known⟩

theorem yields_filterArguments (hs : s.Valid) (relation : Schema.Action) (self : TypeExpr) :
    Build.Yields svc s (svc.filterMethod relation self) fun t f => svc.Typed t [] f.arguments := by
  unfold filterMethod
  split
  · exact .pure (by simp [FunctionStub.method])
  · next request _ =>
      refine .ofExcept_bind fun o _ => ?_
      exact .lift_bind (yields_keywordArguments hs request.operation o _) hs
        fun t as _ _ has => .pure (by simp [FunctionStub.method, has])

/-- **What a call hands out refers to dictionaries of the session only.** -/
theorem covers_handed (hs : s.Valid) (c : Call) : (svc.after s c).Covers (svc.handed s c) := by
  cases c with
  | shapeType position name => exact (yields_shapeType hs position name).covers_known
  | fixedDict d =>
      have h : SessionM.Yields svc s (Session.fixedDict d) fun t a => svc.Known t a :=
        yields_fixedDict hs d
      exact h.covers_known
  | arguments operation input exclude => exact (yields_arguments hs operation input exclude).covers
  | returnType o => exact (yields_returnType hs o).covers_known
  | clientMethod name => exact (yields_clientMethod hs name).covers_typed
  | paginateMethod name => exact (yields_paginateMethod hs name).covers_typed
  | waitMethod name => exact (yields_waitMethod hs name).covers_typed
  | action name a => exact (yields_actionOf hs name a).covers_typed
  | actionMethod owner name => exact (yields_actionMethod hs owner name).covers_typed
  | batchMethod name a => exact (yields_batchMethod hs name a).covers_typed
  | filterMethod relation self =>
      refine .option fun as has => ?_
      obtain ⟨f, hf, rfl⟩ := Option.map_eq_some_iff.mp has
      exact ((yields_filterArguments hs relation self).holds_of_mem hf).covers_nil
  | resourceWaitMethod name w => exact (yields_resourceWaitMethod hs name w).covers_typed
  | resourceAttributes r => exact (yields_resourceAttributes hs r).covers
  | client => exact (yields_client hs).covers fun _ _ h => h.2.covers isClass_accessorTypes
  | paginators => exact (yields_paginators hs).covers fun _ _ h => h.2.covers_nil
  | waiters => exact (yields_waiters hs).covers fun _ _ h => h.2.covers_nil
  | collection parent owner name =>
      exact (yields_collection hs parent owner name).covers fun _ _ h => h.covers
  | collections parent owner =>
      exact (yields_collections hs parent owner).covers fun _ _ h => .list fun c hc => (h c hc).covers
  | resource name => exact (yields_resource hs name).covers fun _ _ h => h.covers
  | serviceResource =>
      exact (yields_serviceResource hs).covers fun _ _ h =>
        .option fun r hr => (h.2 r hr).typed.covers (h.2 r hr).isClass
  | package => exact (yields_package hs).covers fun _ _ h => h.covers

end Service

end ServiceStubs
