import ServiceStubs.Proofs.Import.Group
import ServiceStubs.Proofs.Package.Dictionaries
import ServiceStubs.Proofs.Stub.MarkedModule

/-!
# What the modules of a package provide and need

Each module of a package declares classes, typed dictionaries or functions, and
is written for the annotations of some part of the package.  Apart from known
types, these annotations are classes that the package itself declares.

## Main definitions

* `PackageStub.Provides`, `PackageStub.Links` — the text of a module declares a name,
  and so an import from the package finds it.
* `Service.Backs` — what a module of classes may import for.
* `Service.Settled.forall_classModules` — all modules of classes are so backed.
* `Service.Settled.mem_dictImports` — what the module of dictionaries needs.
-/

namespace ServiceStubs

open Stub

/-! ## What modules provide -/

theorem exists_mem_importsFor {module : String} {is : List Import} {i : Import} :
    (∃ g ∈ importsFor module is, i ∈ g.imports) ↔
      i ∈ is ∧ i.isBuiltins = false ∧ i.source.isInPackage module = false := by
  rw [importsFor, exists_mem_groupImports, List.mem_filter, Bool.and_eq_true, Bool.not_eq_true',
    Bool.not_eq_true']

/-- The base class of a typed dictionary, and the mark of its optional fields if it
has any. -/
def TypedDict.definitionNeeds (d : TypedDict) : List Import :=
  ⟨.typingExtensions, "TypedDict", none⟩ ::
    if d.fields.any (!·.required) then [⟨.typingExtensions, "NotRequired", none⟩] else []

theorem TypedDict.of_mem_definitionNeeds {d : TypedDict} {i : Import}
    (h : i ∈ d.definitionNeeds) :
    i.source = .typingExtensions ∧ i.asName = none ∧ i.name ≠ "" := by
  unfold definitionNeeds at h
  split at h
  · simp only [List.mem_cons, List.not_mem_nil, or_false] at h
    rcases h with rfl | rfl <;> exact ⟨rfl, rfl, by decide⟩
  · obtain rfl := List.mem_singleton.mp h
    exact ⟨rfl, rfl, by decide⟩

theorem TypedDict.mem_definitionImports {d : TypedDict} {i : Import} :
    i ∈ d.definitionImports.toList ↔ i ∈ d.definitionNeeds := by
  have heq : d.definitionImports = ImportSet.addAll ∅ d.definitionNeeds := by
    unfold definitionImports definitionNeeds
    split <;> rfl
  rw [heq, ImportSet.mem_addAll fun j hj => (of_mem_definitionNeeds hj).2.1]

namespace PackageStub

variable {p : PackageStub} {settings : Settings} {st : Store} {module name : String}

/-- The module is generated, and its text declares a class or a typed dictionary of the
name. -/
def Provides (p : PackageStub) (settings : Settings) (st : Store) (module name : String) : Prop :=
  ∃ m ∈ p.modules settings st, m.file = module ++ ".pyi" ∧
    ∃ kind, kind.isType ∧ (kind, name) ∈ m.marked.declared

/-- An import from the package names something that a module of it provides. -/
def Links (p : PackageStub) (settings : Settings) (st : Store) (i : Import) : Prop :=
  i.source.isRelative → ∃ module, i.source = .inPackage module ∧
    p.Provides settings st module i.name

theorem Links.inPackage (h : p.Provides settings st module name) :
    p.Links settings st (.inPackage module name) :=
  fun _ => ⟨module, rfl, h⟩

theorem Links.of_not_relative {i : Import} (h : i.source.isRelative = false) :
    p.Links settings st i := by
  intro hrel
  simp [h] at hrel

/-! ## The modules of a package -/

theorem mem_modules_iff {m : Module} : m ∈ p.modules settings st ↔
    m = p.initModule settings ∨ m ∈ p.classModules settings ∨ m = p.dictModule settings st ∨
      m = p.functionModule settings := by
  simp [modules]

theorem statements_initModule (p : PackageStub) (settings : Settings) :
    (p.initModule settings).statements =
      importsFor "__init__" (p.offered.map fun (module, name) => .inPackage module name) :=
  List.append_nil _

theorem statements_classModule (p : PackageStub) (settings : Settings) (module subject : String)
    (needed : ImportSet) (classes : List ClassStub) :
    (p.classModule settings module subject needed classes).statements =
      importsFor module needed.toList :=
  List.append_nil _

theorem statements_dictModule (p : PackageStub) (settings : Settings) (st : Store) :
    (p.dictModule settings st).statements =
      importsFor TypeExpr.dictModule (p.dictImports st).toList :=
  List.append_nil _

theorem provides_classModule {subject : String} {needed : ImportSet} {classes : List ClassStub}
    (hm : p.classModule settings module subject needed classes ∈ p.classModules settings)
    (hname : name ∈ classes.map (·.name)) : p.Provides settings st module name := by
  obtain ⟨c, hc, rfl⟩ := List.mem_map.mp hname
  refine ⟨_, mem_modules_iff.mpr (.inr (.inl hm)), rfl, .classDef, rfl, ?_⟩
  exact Module.mem_declared_iff.mpr ⟨c.declaration, List.mem_map_of_mem hc, rfl, rfl⟩

/-- **What a package offers, it provides.** -/
theorem provides_offered (h : (module, name) ∈ p.offered) : p.Provides settings st module name := by
  simp only [offered, List.mem_append, List.mem_singleton, List.mem_map, Prod.mk.injEq] at h
  rcases h with ((⟨rfl, rfl⟩ | ⟨made, hmade, rfl, rfl⟩) | ⟨e, he, rfl, rfl⟩) | ⟨e, he, rfl, rfl⟩
  · exact provides_classModule (List.mem_append_left _ List.mem_cons_self) List.mem_cons_self
  · exact provides_classModule (List.mem_append_right _ (List.mem_map_of_mem hmade))
      List.mem_cons_self
  · exact provides_classModule
      (List.mem_append_left _ (List.mem_cons_of_mem _ List.mem_cons_self))
      (List.mem_map_of_mem (List.mem_map_of_mem he))
  · exact provides_classModule
      (List.mem_append_left _ (List.mem_cons_of_mem _ (List.mem_cons_of_mem _ List.mem_cons_self)))
      (List.mem_map_of_mem (List.mem_map_of_mem he))

theorem provides_class {made : ServiceResourceStub} (hmade : made ∈ p.serviceResource)
    (hname : name ∈ made.allClasses.map (·.name)) :
    p.Provides settings st TypeExpr.resourceModule name :=
  provides_classModule
    (List.mem_append_right _ (List.mem_map_of_mem (Option.mem_toList.mpr hmade))) hname

theorem Declares.provides {r : DictRef} (h : p.Declares st r) :
    p.Provides settings st TypeExpr.dictModule r.name := by
  refine ⟨p.dictModule settings st, mem_modules_iff.mpr (.inr (.inr (.inl rfl))), rfl,
    .typedDict, rfl, ?_⟩
  exact Module.mem_declared_iff.mpr
    ⟨(st.get r).declaration, List.mem_map_of_mem h.mem, rfl, h.name⟩

end PackageStub

namespace Service

variable {svc : Service} {s : Session} {p : PackageStub} {settings : Settings} {t : TypeExpr}
  {own : List TypeExpr}

/-! ## The package's own classes -/

namespace Settled

variable (h : svc.Settled s p)
include h

theorem provides_resource {name : String} (hname : name ∈ svc.resourceNames) :
    p.Provides settings s.store TypeExpr.resourceModule name := by
  have hsome : svc.schema.resources.isSome := by
    cases hresources : svc.schema.resources with
    | none =>
        have hnone : svc.resourceNames = [] := by
          rw [resourceNames, Schema.resourceNames, Schema.declaredResources, hresources]
          rfl
        exact absurd (hnone ▸ hname) List.not_mem_nil
    | some r => rfl
  obtain ⟨made, hmade⟩ := Option.isSome_iff_exists.mp (h.built.resource_isSome.trans hsome)
  rw [← (h.built.resource made hmade).resources] at hname
  refine PackageStub.provides_class hmade ?_
  simp only [ServiceResourceStub.allClasses, List.map_append, List.map_cons, List.map_map]
  exact List.mem_append_left _ (List.mem_cons_of_mem _ hname)

theorem links_accessorTypes :
    ∀ a ∈ svc.accessorTypes, p.Links settings s.store a.headImport := by
  intro a ha
  rcases List.mem_append.mp ha with ha | ha <;> obtain ⟨name, hname, rfl⟩ := List.mem_map.mp ha
  · refine .inPackage (PackageStub.provides_offered ?_)
    have hmem : name ++ "Paginator" ∈ p.paginators.map (·.decl.name) :=
      h.built.paginator_names ▸ List.mem_map_of_mem hname
    obtain ⟨e, he, hename⟩ := List.mem_map.mp hmem
    exact List.mem_append_left _ (List.mem_append_right _
      (List.mem_map.mpr ⟨e, he, Prod.ext rfl hename⟩))
  · refine .inPackage (PackageStub.provides_offered ?_)
    have hmem : name ++ "Waiter" ∈ p.waiters.map (·.decl.name) :=
      h.built.waiter_names ▸ List.mem_map_of_mem hname
    obtain ⟨e, he, hename⟩ := List.mem_map.mp hmem
    exact List.mem_append_right _ (List.mem_map.mpr ⟨e, he, Prod.ext rfl hename⟩)

theorem links_products :
    ∀ a ∈ products svc.serviceName p.serviceResource.isSome,
      p.Links settings s.store a.headImport := by
  intro a ha
  obtain ⟨factory, hfactory, rfl⟩ := List.mem_map.mp ha
  cases factory with
  | client =>
      refine .inPackage (PackageStub.provides_offered ?_)
      rw [← h.built.client_name]
      simp [PackageStub.offered]
  | resource =>
      have hsome : p.serviceResource.isSome := by
        by_contra hnone
        simp [hnone] at hfactory
      obtain ⟨made, hmade⟩ := Option.isSome_iff_exists.mp hsome
      refine .inPackage (PackageStub.provides_class hmade ?_)
      rw [← (h.built.resource made hmade).name]
      exact List.mem_cons_self

end Settled

/-! ## Modules of classes -/

/-- A module of some classes can import from the annotations of `x`: they are among
those that are searched, they are all that the classes are annotated with, and
apart from known types they are classes `own` of the package, each of which is
imported or declared in the module itself. -/
structure Backs {α : Type} [Annotated α] (svc : Service) (s : Session) (p : PackageStub)
    (settings : Settings) (own : List TypeExpr) (classes : List ClassStub) (x : α) : Prop where
  typed : svc.Typed s own x
  isClass : ∀ a ∈ own, IsClass a
  links : ∀ a ∈ own, p.Links settings s.store a.headImport
  declared : ∀ name, .internal name none ∈ own → name ∈ classes.map (·.name)
  searched : ∀ a ∈ Annotated.annotations x, ∃ as ∈ p.searched, a ∈ as
  covers : ∀ c ∈ classes, ∀ a ∈ Annotated.annotations c, a ∈ Annotated.annotations x

/-- What the collections of a resource are annotated with, the resource is. -/
theorem annotations_of_mem_collections {cs : List CollectionStub} {c : CollectionStub}
    (hc : c ∈ cs) {a : TypeExpr} (ha : a ∈ Annotated.annotations c.decl) :
    a ∈ Annotated.annotations cs :=
  List.mem_flatMap.mpr ⟨c, hc, List.mem_append_left _ ha⟩

/-- What any class of the service resource is annotated with, the service resource
is. -/
theorem annotations_of_mem_allClasses {made : ServiceResourceStub} {c : ClassStub}
    (hc : c ∈ made.allClasses) {a : TypeExpr} (ha : a ∈ Annotated.annotations c) :
    a ∈ Annotated.annotations made := by
  have hresource : ∀ r ∈ made.resources, a ∈ Annotated.annotations r →
      a ∈ Annotated.annotations made := fun r hr ha =>
    List.mem_append_right _ (List.mem_flatMap.mpr ⟨r, hr, ha⟩)
  rcases List.mem_append.mp hc with hc | hc
  · rcases List.mem_cons.mp hc with rfl | hc
    · exact List.mem_append_left _ (List.mem_append_left _ ha)
    · obtain ⟨r, hr, rfl⟩ := List.mem_map.mp hc
      exact hresource r hr (List.mem_append_left _ ha)
  · obtain ⟨col, hcol, rfl⟩ := List.mem_map.mp hc
    rcases List.mem_append.mp hcol with hcol | hcol
    · exact List.mem_append_left _ (List.mem_append_right _
        (annotations_of_mem_collections hcol ha))
    · obtain ⟨r, hr, hcol⟩ := List.mem_flatMap.mp hcol
      exact hresource r hr (List.mem_append_right _ (annotations_of_mem_collections hcol ha))

namespace Settled

variable (h : svc.Settled s p)
include h

theorem backs_client : svc.Backs s p settings svc.accessorTypes [p.client.decl] p.client where
  typed := h.built.client
  isClass := isClass_accessorTypes
  links := h.links_accessorTypes
  declared name hname := by
    rcases List.mem_append.mp hname with hname | hname <;>
      obtain ⟨_, -, heq⟩ := List.mem_map.mp hname <;> nomatch heq
  searched a ha := PackageStub.mem_searched_iff.mpr
    (.inl (List.mem_append_left _ (List.mem_append_left _ (List.mem_append_left _ ha))))
  covers c hc a ha := by
    obtain rfl := List.mem_singleton.mp hc
    exact ha

theorem backs_paginators :
    svc.Backs s p settings [] (p.paginators.map (·.decl)) p.paginators where
  typed := h.built.paginators
  isClass := nofun
  links := nofun
  declared := nofun
  searched a ha := PackageStub.mem_searched_iff.mpr
    (.inl (List.mem_append_left _ (List.mem_append_right _ ha)))
  covers c hc a ha := by
    obtain ⟨e, he, rfl⟩ := List.mem_map.mp hc
    exact List.mem_flatMap.mpr ⟨e, he, ha⟩

theorem backs_waiters : svc.Backs s p settings [] (p.waiters.map (·.decl)) p.waiters where
  typed := h.built.waiters
  isClass := nofun
  links := nofun
  declared := nofun
  searched a ha := PackageStub.mem_searched_iff.mpr (.inl (List.mem_append_right _ ha))
  covers c hc a ha := by
    obtain ⟨e, he, rfl⟩ := List.mem_map.mp hc
    exact List.mem_flatMap.mpr ⟨e, he, ha⟩

theorem backs_serviceResource {made : ServiceResourceStub} (hmade : made ∈ p.serviceResource) :
    svc.Backs s p settings (made.allCollections.map (·.decl.type)) made.allClasses made where
  typed := (h.built.resource made hmade).typed
  isClass := (h.built.resource made hmade).isClass
  links a ha := by
    obtain ⟨c, -, rfl⟩ := List.mem_map.mp ha
    have hbuiltins : ModulePath.builtins.isRelative = false := by decide
    exact .of_not_relative hbuiltins
  declared name hname := by
    obtain ⟨c, hc, heq⟩ := List.mem_map.mp hname
    refine List.mem_map.mpr ⟨c.decl, List.mem_append_right _ (List.mem_map_of_mem hc), ?_⟩
    exact (TypeExpr.internal.inj heq).1
  searched a ha := by
    refine PackageStub.mem_searched_iff.mpr (.inl ?_)
    exact List.mem_append_left _ (List.mem_append_left _ (List.mem_append_right _
      (List.mem_flatMap.mpr ⟨made, Option.mem_toList.mpr hmade, ha⟩)))
  covers c hc a ha := annotations_of_mem_allClasses hc ha

/-- **Modules of classes import from what backs them.** -/
theorem forall_classModules {P : Module → Prop}
    (hP : ∀ {α : Type} [Annotated α] (x : α) (own : List TypeExpr) (classes : List ClassStub)
      (module subject : String), svc.Backs s p settings own classes x →
        p.classModule settings module subject (requiredImports x) classes ∈
          p.classModules settings →
        P (p.classModule settings module subject (requiredImports x) classes)) :
    ∀ m ∈ p.classModules settings, P m := by
  intro m hm
  have hmem := hm
  simp only [PackageStub.classModules, List.mem_append, List.mem_cons, List.not_mem_nil, or_false,
    List.mem_map, Option.mem_toList] at hm
  rcases hm with (rfl | rfl | rfl) | ⟨made, hmade, rfl⟩
  · exact hP _ _ _ _ _ h.backs_client hmem
  · exact hP _ _ _ _ _ h.backs_paginators hmem
  · exact hP _ _ _ _ _ h.backs_waiters hmem
  · exact hP _ _ _ _ _ (h.backs_serviceResource hmade) hmem

theorem backs_factories :
    svc.Backs s p settings (products svc.serviceName p.serviceResource.isSome) [] p.factories where
  typed := h.built.factories ▸ typed_factories _ _
  isClass := isClass_products _ _
  links := h.links_products
  declared name hname := by
    obtain ⟨factory, -, heq⟩ := List.mem_map.mp hname
    cases factory <;> nomatch heq
  searched a ha := PackageStub.mem_searched_iff.mpr (.inr ha)
  covers := nofun

/-- What must be imported to declare the dictionaries: what their declarations need,
and the imports of the heads of all parts of their fields. -/
theorem mem_dictImports {i : Import} : i ∈ (p.dictImports s.store).toList ↔
    (∃ d ∈ p.dicts s.store, i ∈ d.definitionNeeds ∨
      ∃ f ∈ d.fields, ∃ t ∈ f.type.nodes, t.headImport = i) ∧
    i.isBuiltins = false ∧ i.source.isInPackage TypeExpr.dictModule = false := by
  have hmem : ∀ {j : Import}, (j ∈ (p.dicts s.store).flatMap fun d =>
      d.definitionImports.toList ++ d.fields.flatMap (·.type.imports.toList)) ↔
        ∃ d ∈ p.dicts s.store, j ∈ d.definitionNeeds ∨
          ∃ f ∈ d.fields, ∃ t ∈ f.type.nodes, t.headImport = j := by
    intro j
    simp only [List.mem_flatMap, List.mem_append, TypedDict.mem_definitionImports]
    refine exists_congr fun d => and_congr_right fun hd => or_congr_right ?_
    refine exists_congr fun f => and_congr_right fun hf => ?_
    exact TypeExpr.mem_imports fun t ht => (h.known_field hd hf t ht).unaliased
  rw [PackageStub.dictImports, KeyedSet.mem_toList_filter, ImportSet.mem_addAll, hmem,
    Bool.and_eq_true, Bool.not_eq_true', Bool.not_eq_true']
  intro j hj
  obtain ⟨d, hd, hdefinition | ⟨f, hf, t, ht, rfl⟩⟩ := hmem.mp hj
  · exact (TypedDict.of_mem_definitionNeeds hdefinition).2.1
  · exact (h.known_field hd hf t ht).unaliased

end Settled

end Service

end ServiceStubs
