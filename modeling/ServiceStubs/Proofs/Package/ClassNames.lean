import ServiceStubs.Proofs.Package.Calls
import ServiceStubs.Proofs.Package.Contents
import ServiceStubs.Proofs.Session.Distinct
import ServiceStubs.Schema.Loading

/-!
# Names of the classes of resources

The module of resources declares the service resource, the other resources, and a
class for every collection.  The name of the class of a collection is put together
from the names of its parent and of its relation, so different collections may get
one name, and a resource may be called like a collection or like the service
resource.  The names of a schema that do not meet like this give classes of
different names, and then each attribute that is a collection is annotated with the
class of just that collection.

## Main definitions

* `CollectionStub.IsOf` — the collection of a relation of a parent.
* `Schema.Resources.parents`, `ServiceResourceStub.parents` — what has collections, in
  a schema and in a package.
* `Schema.ClassesFit` — no two classes get one name.
* `ServiceResourceStub.Resolves` — attributes lead to their own collections.
* `Schema.classNames_package` — names, and what attributes lead to.
-/

namespace ServiceStubs

open Text (snakeCase)

/-! ## Collections and their parents -/

/-- The name of the class for the collection of a relation of a parent. -/
def collectionName (parent relation : String) : String :=
  parent ++ relation ++ "Collection"

theorem collectionName_inj {p q x y : String} :
    collectionName p x = collectionName q y ↔ p ++ x = q ++ y :=
  String.append_left_inj _

theorem collectionName_injective (parent : String) :
    Function.Injective (collectionName parent) := by
  intro x y h
  exact (String.append_right_inj parent).mp (collectionName_inj.mp h)

theorem lastChar_collectionName (parent relation : String) :
    lastChar (collectionName parent relation) = some 'n' := by
  rw [collectionName, lastChar_append _ (by decide)]
  rfl

/-- The service resource is not called like a collection. -/
theorem serviceResourceName_ne (s : ServiceName) (parent relation : String) :
    s.serviceResourceName ≠ collectionName parent relation := by
  intro h
  have hlast : lastChar s.serviceResourceName = some 'e' := lastChar_append _ (by decide)
  rw [h, lastChar_collectionName] at hlast
  revert hlast
  decide

/-- The collection of a relation of a parent. -/
structure CollectionStub.IsOf (c : CollectionStub) (parent relation : String) : Prop where
  parentName : c.parentName = parent
  name : c.decl.name = collectionName parent relation
  asAttribute : c.asAttribute = ⟨snakeCase relation, .named (collectionName parent relation)⟩

namespace Schema

/-- What has collections, under the names that start those of their classes: the
service resource, then the other resources. -/
def Resources.parents (r : Resources) : List (String × ResourceModel) :=
  (serviceCollectionParent, r.service) :: r.resources.entries

/-- The names of the classes of the collections of a parent. -/
def collectionNames (parent : String × ResourceModel) : List String :=
  parent.2.hasMany.keys.map (collectionName parent.1)

/-- **No two classes of resources get one name**: no resource is called like the
service resource, none is called like a collection, and the names of two parents do
not give the same name with a relation each. -/
structure ClassesFit (s : Schema) (r : Resources) : Prop where
  service : s.service.serviceResourceName ∉ r.resources.keys
  collections : ∀ parent ∈ r.parents, ∀ relation ∈ parent.2.hasMany.keys,
    collectionName parent.1 relation ∉ r.resources.keys
  relations : r.parents.Pairwise fun p q =>
    ∀ x ∈ p.2.hasMany.keys, ∀ y ∈ q.2.hasMany.keys, p.1 ++ x ≠ q.1 ++ y

end Schema

namespace ServiceResourceStub

/-- What has collections: the service resource, then the other resources. -/
def parents (r : ServiceResourceStub) : List (ClassStub × List CollectionStub) :=
  (r.decl, r.collections) :: r.resources.map fun other => (other.decl, other.collections)

/-- The class that a name stands for in the module of resources: the last one that is
declared with the name. -/
def class? (r : ServiceResourceStub) (name : String) : Option ClassStub :=
  r.allClasses.reverse.find? (·.name = name)

/-- Each relation of each parent has its collection, which is an attribute of the
parent, and the type of this attribute stands for the class of the collection. -/
def Resolves (made : ServiceResourceStub) (r : Schema.Resources) : Prop :=
  List.Forall₂ (fun parent owner =>
      List.Forall₂ (fun relation c => c.IsOf parent.1 relation ∧
          c.asAttribute ∈ owner.1.attributes ∧
          made.class? c.asAttribute.type.text = some c.decl)
        parent.2.hasMany.keys owner.2)
    r.parents made.parents

theorem allCollections_eq (r : ServiceResourceStub) :
    r.allCollections = r.parents.flatMap Prod.snd := by
  simp [allCollections, parents, List.flatMap_map]

theorem mem_allClasses_of_parent {r : ServiceResourceStub} {owner : ClassStub × List CollectionStub}
    (howner : owner ∈ r.parents) {c : CollectionStub} (hc : c ∈ owner.2) :
    c.decl ∈ r.allClasses := by
  apply List.mem_append_right
  apply List.mem_map_of_mem
  rw [allCollections_eq]
  exact List.mem_flatMap.mpr ⟨owner, howner, hc⟩

/-- When classes differ in their names, a name stands for the class that has it. -/
theorem class?_eq_some {r : ServiceResourceStub} (hnodup : (r.allClasses.map (·.name)).Nodup)
    {c : ClassStub} (hc : c ∈ r.allClasses) : r.class? c.name = some c := by
  have hsome : (r.class? c.name).isSome := by
    rw [class?, List.find?_isSome]
    exact ⟨c, List.mem_reverse.mpr hc, decide_eq_true rfl⟩
  obtain ⟨found, hfound⟩ := Option.isSome_iff_exists.mp hsome
  have hname : found.name = c.name := by simpa using List.find?_some hfound
  have hmem : found ∈ r.allClasses := List.mem_reverse.mp (List.mem_of_find?_eq_some hfound)
  rw [hfound, List.inj_on_of_nodup_map hnodup hmem hc hname]

end ServiceResourceStub

/-! ## Names of the classes of a package -/

namespace Service

variable {svc : Service} {resources : Schema.Resources} {made : ServiceResourceStub}

theorem isOf_collection {parent name : String} {owner : Schema.ResourceModel} {c : CollectionStub}
    (h : (svc.collection parent owner name).Gives c) : c.IsOf parent name := by
  obtain ⟨relation, item, filter, batch, -, -, -, -, hc⟩ := parts_collection h
  rw [hc]
  exact ⟨rfl, rfl, rfl⟩

/-- Each parent of the schema has its place in the package, with the collections of its
relations, which are attributes of its class. -/
theorem forall₂_parents (hresources : svc.schema.resources = some resources)
    (h : (svc.serviceResourceOf resources.service).Gives made) :
    List.Forall₂ (fun parent owner =>
        List.Forall₂ (fun relation c => CollectionStub.IsOf c parent.1 relation)
          parent.2.hasMany.keys owner.2 ∧
        ∀ c ∈ owner.2, c.asAttribute ∈ owner.1.attributes)
      resources.parents made.parents := by
  obtain ⟨own, -, hcollections, hothers, hdecl⟩ := parts_serviceResourceOf h
  apply List.Forall₂.cons
  · refine ⟨hcollections.of_mapM.imp fun _ _ => isOf_collection, fun c hc => ?_⟩
    rw [hdecl]
    exact List.mem_cons_of_mem _ (List.mem_map_of_mem hc)
  · have hdeclared : svc.schema.declaredResources = resources.resources := by
      simp only [Schema.declaredResources, hresources]
    rw [List.forall₂_map_right_iff]
    rw [resourceNames, Schema.resourceNames, hdeclared, OrderedMap.keys,
      List.forall₂_map_left_iff] at hothers
    refine forall₂_imp_of_mem hothers fun entry hentry other _ hother => ?_
    obtain ⟨model, attributes, own, waits, hmodel, -, -, -, hcollections, hdecl⟩ :=
      parts_resource hother
    have hsame : svc.schema.resource entry.1 = .ok entry.2 :=
      OrderedMap.lookup_eq_ok_iff_mem.mpr (hdeclared ▸ hentry)
    obtain rfl : model = entry.2 := Except.ok.inj (hmodel.symm.trans hsame)
    refine ⟨hcollections.of_mapM.imp fun _ _ => isOf_collection, fun c hc => ?_⟩
    rw [hdecl]
    apply List.mem_append_right
    exact List.mem_cons_of_mem _ (List.mem_map_of_mem hc)

/-- The names of the classes: that of the service resource, those of the resources, and
those of the collections. -/
theorem names_allClasses (hresources : svc.schema.resources = some resources)
    (h : (svc.serviceResourceOf resources.service).Gives made) :
    made.allClasses.map (·.name) =
      svc.serviceName.serviceResourceName :: resources.resources.keys
        ++ resources.parents.flatMap Schema.collectionNames := by
  have hparents := forall₂_parents hresources h
  obtain ⟨own, -, -, hothers, hdecl⟩ := parts_serviceResourceOf h
  have hname : made.decl.name = svc.serviceName.serviceResourceName := by
    rw [hdecl]
    rfl
  have hkeys : made.resources.map (·.decl.name) = resources.resources.keys := by
    have hnames : svc.resourceNames = resources.resources.keys := by
      rw [resourceNames, Schema.resourceNames, Schema.declaredResources, hresources]
    rw [← hnames, ← List.map_id svc.resourceNames]
    refine map_eq_of_forall₂ (hothers.imp fun name other hother => ?_)
    obtain ⟨model, attributes, own, waits, -, -, -, -, -, hdecl⟩ := parts_resource hother
    rw [hdecl]
    rfl
  have hcollections : made.allCollections.map (·.decl.name) =
      resources.parents.flatMap Schema.collectionNames := by
    rw [ServiceResourceStub.allCollections_eq, List.map_flatMap, List.flatMap_def,
      List.flatMap_def]
    refine congrArg List.flatten (map_eq_of_forall₂ (hparents.imp fun parent owner howner => ?_))
    exact map_eq_of_forall₂ (howner.1.imp fun _ _ hc => hc.name)
  simp only [ServiceResourceStub.allClasses, List.map_append, List.map_cons, List.map_map,
    Function.comp_def, hname, hkeys, hcollections]

end Service

/-! ## Distinct names -/

namespace Schema

/-- The collections of one parent have different names. -/
theorem nodup_collectionNames (parent : String × ResourceModel) :
    (collectionNames parent).Nodup :=
  List.Nodup.map (collectionName_injective parent.1) parent.2.hasMany.nodup

theorem mem_collectionNames {parent : String × ResourceModel} {name : String} :
    name ∈ collectionNames parent ↔
      ∃ relation ∈ parent.2.hasMany.keys, collectionName parent.1 relation = name :=
  List.mem_map

theorem disjoint_collectionNames {p q : String × ResourceModel} :
    List.Disjoint (collectionNames p) (collectionNames q) ↔
      ∀ x ∈ p.2.hasMany.keys, ∀ y ∈ q.2.hasMany.keys, p.1 ++ x ≠ q.1 ++ y := by
  constructor
  · intro h x hx y hy heq
    refine h (List.mem_map_of_mem hx) (mem_collectionNames.mpr ⟨y, hy, ?_⟩)
    exact collectionName_inj.mpr heq.symm
  · intro h name hp hq
    obtain ⟨x, hx, rfl⟩ := mem_collectionNames.mp hp
    obtain ⟨y, hy, hname⟩ := mem_collectionNames.mp hq
    exact h x hx y hy (collectionName_inj.mp hname).symm

/-- The collections of all parents have different names when no two parents meet. -/
theorem nodup_flatMap_collectionNames {parents : List (String × ResourceModel)} :
    (parents.flatMap collectionNames).Nodup ↔
      parents.Pairwise fun p q =>
        ∀ x ∈ p.2.hasMany.keys, ∀ y ∈ q.2.hasMany.keys, p.1 ++ x ≠ q.1 ++ y := by
  rw [List.nodup_flatMap]
  constructor
  · rintro ⟨-, h⟩
    exact h.imp disjoint_collectionNames.mp
  · intro h
    exact ⟨fun parent _ => nodup_collectionNames parent, h.imp disjoint_collectionNames.mpr⟩

theorem nodup_classNames_iff (s : Schema) (r : Resources) :
    (s.service.serviceResourceName :: r.resources.keys
      ++ r.parents.flatMap collectionNames).Nodup ↔ s.ClassesFit r := by
  have hservice : s.service.serviceResourceName ∉ r.parents.flatMap collectionNames := by
    intro hmem
    obtain ⟨parent, -, hname⟩ := List.mem_flatMap.mp hmem
    obtain ⟨relation, -, heq⟩ := mem_collectionNames.mp hname
    exact serviceResourceName_ne s.service parent.1 relation heq.symm
  rw [List.cons_append, List.nodup_cons, List.nodup_append', nodup_flatMap_collectionNames,
    List.mem_append]
  constructor
  · rintro ⟨hfirst, -, hrelations, hdisjoint⟩
    refine ⟨fun h => hfirst (.inl h), fun parent hparent relation hrelation hmem => ?_, hrelations⟩
    exact hdisjoint hmem (List.mem_flatMap.mpr
      ⟨parent, hparent, List.mem_map_of_mem hrelation⟩)
  · intro h
    refine ⟨?_, r.resources.nodup, h.relations, fun name hname hmem => ?_⟩
    · simp [h.service, hservice]
    · obtain ⟨parent, hparent, hname'⟩ := List.mem_flatMap.mp hmem
      obtain ⟨relation, hrelation, rfl⟩ := mem_collectionNames.mp hname'
      exact h.collections parent hparent relation hrelation hname

/-- **The classes of resources have different names exactly when the names of the schema
fit, and then each attribute that is a collection is annotated with the class of the
collection of its own parent and relation.** -/
theorem classNames_package {sch : Schema} {p : PackageStub} (hp : sch.package.1 = .ok p)
    {resources : Resources} (hresources : sch.resources = some resources) :
    ∃ made, p.serviceResource = some made ∧
      ((made.allClasses.map (·.name)).Nodup ↔ sch.ClassesFit resources) ∧
      (sch.ClassesFit resources → made.Resolves resources) := by
  have hgives : (Service.ofSchema sch).package.Gives p := ⟨{}, hp⟩
  obtain ⟨made, hmade, hof⟩ := Service.exists_serviceResource hgives hresources
  have hiff : (made.allClasses.map (·.name)).Nodup ↔ sch.ClassesFit resources := by
    rw [Service.names_allClasses hresources hof]
    exact nodup_classNames_iff sch resources
  refine ⟨made, hmade, hiff, fun hfit => ?_⟩
  have hnodup := hiff.mpr hfit
  have hparents := Service.forall₂_parents hresources hof
  refine Service.forall₂_imp_of_mem hparents ?_
  intro parent _ owner howner ⟨hcollections, hattributes⟩
  refine Service.forall₂_imp_of_mem hcollections ?_
  intro relation _ c hc hof
  refine ⟨hof, hattributes c hc, ?_⟩
  exact ServiceResourceStub.class?_eq_some hnodup
    (ServiceResourceStub.mem_allClasses_of_parent howner hc)

end Schema

/-- The names of boxes fit, so their collection is an attribute of the service resource
that leads to its class. -/
theorem classNames_boxSchema :
    ∃ p made resources, boxSchema.package.1 = .ok p ∧ boxSchema.resources = some resources ∧
      p.serviceResource = some made ∧ (made.allClasses.map (·.name)).Nodup ∧
      made.Resolves resources := by
  obtain ⟨p, hp⟩ := boxSchema_package
  obtain ⟨made, hmade, hiff, hresolves⟩ := Schema.classNames_package hp rfl
  have hfit : boxSchema.ClassesFit (boxSchema.resources.get rfl) :=
    ⟨by decide +kernel, by decide +kernel, by decide +kernel⟩
  exact ⟨p, made, _, hp, rfl, hmade, hiff.mpr hfit, hresolves hfit⟩

/-! ## Two collections of one name -/

open Schema in
/-- A service of crates.  The lid handles of a box and the handles of a box lid are
collections of one name. -/
def lidSchema : Schema where
  serviceName := "crates"
  className := "Crates"
  model := {}
  resources := some
    { resources :=
        { entries :=
            [("Box",
                { hasMany :=
                    { entries := [("LidHandles", { resource := some ⟨"Handle", [], none⟩ })] } }),
              ("BoxLid",
                { hasMany :=
                    { entries := [("Handles", { resource := some ⟨"Handle", [], none⟩ })] } }),
              ("Handle", {})] } }

/-- **Two classes of resources have one name**, so the attribute of a box leads to the
handles of a box lid. -/
theorem lidSchema_repeats_class :
    lidSchema.validate = .ok () ∧ ∃ p made, lidSchema.package.1 = .ok p ∧
      p.serviceResource = some made ∧ ¬ (made.allClasses.map (·.name)).Nodup ∧
      ∃ r ∈ made.resources, r.decl.name = "Box" ∧ ∃ c ∈ r.collections,
        c.decl.docstring = "Box.lid_handles collection" ∧
        (made.class? c.asAttribute.type.text).map (·.docstring) =
          some "BoxLid.handles collection" := by
  have hcheck : lidSchema.package.1.toOption.any fun p => p.serviceResource.any fun made =>
      decide (¬ (made.allClasses.map (·.name)).Nodup) && made.resources.any fun r =>
        r.decl.name = "Box" && r.collections.any fun c =>
          c.decl.docstring = "Box.lid_handles collection" &&
          (made.class? c.asAttribute.type.text).map (·.docstring) =
            some "BoxLid.handles collection" := by
    decide +kernel
  obtain ⟨p, hp, hchecked⟩ := exists_of_any hcheck
  obtain ⟨made, hmade, hchecked⟩ := (Option.any_eq_true _ _).mp hchecked
  simp only [Bool.and_eq_true, List.any_eq_true, decide_eq_true_eq] at hchecked
  obtain ⟨hrepeats, r, hr, hbox, c, hc, hleads⟩ := hchecked
  exact ⟨by decide +kernel, p, made, hp, hmade, hrepeats, r, hr, hbox, c, hc, hleads⟩

end ServiceStubs
