import Mathlib.Data.List.Nodup
import ServiceStubs.Proofs.Package.Calls
import ServiceStubs.Proofs.Package.Entities
import ServiceStubs.Proofs.Session.Distinct

/-!
# The dictionaries of a package

A package declares the dictionaries that its entities reach, by name.  Where no
resource and no documented class is called like a dictionary, none is missing:
neither one that an annotation of an entity refers to, nor one that a field of
another dictionary refers to.

## Main definitions

* `PackageStub.entityAnnotations` — the annotations of all entities.
* `Service.Settled` — what holds of a package and the session that made it, with
  `Service.settled_package`.
* `PackageStub.Declares` — a dictionary is declared, and only once.
* `Service.Settled.declares_of_annotation`, `Service.Settled.declares_of_field`,
  `Service.Settled.reached`, `PackageStub.pairwise_dicts` — the dictionaries that
  are declared, and their order.
-/

namespace ServiceStubs

/-! ## The lists that are searched -/

namespace PackageStub

/-- The annotations of the entities of a package. -/
def entityAnnotations (p : PackageStub) : List TypeExpr :=
  Annotated.annotations p.client ++ Annotated.annotations p.serviceResource
    ++ Annotated.annotations p.paginators ++ Annotated.annotations p.waiters

/-- The lists of annotations that are searched one by one: those of the entities,
and those of the factory functions. -/
def searched (p : PackageStub) : List (List TypeExpr) :=
  [Annotated.annotations p.client] ++ p.serviceResource.toList.map Annotated.annotations
    ++ p.paginators.map Annotated.annotations ++ p.waiters.map Annotated.annotations
    ++ p.factories.map Annotated.annotations

variable {p : PackageStub} {st : Store} {a : TypeExpr} {d : TypedDict} {r : DictRef}

theorem types_eq (p : PackageStub) (st : Store) : p.types st = st.closureOfAll p.searched := by
  simp only [types, closures, searched, Store.closureOfAll, List.map_append, List.map_map]
  rfl

theorem mem_searched_iff : (∃ as ∈ p.searched, a ∈ as) ↔
    a ∈ p.entityAnnotations ∨ a ∈ Annotated.annotations p.factories := by
  have hlist : ∀ {α : Type} [Annotated α] (xs : List α),
      (∃ as ∈ xs.map Annotated.annotations, a ∈ as) ↔ a ∈ Annotated.annotations xs := by
    intro α _ xs
    simp [Annotated.annotations]
  have hoption : Annotated.annotations p.serviceResource =
      Annotated.annotations p.serviceResource.toList := rfl
  simp only [searched, entityAnnotations, List.mem_append, or_and_right, exists_or, hlist, hoption,
    List.mem_singleton, exists_eq_left]

/-- The dictionaries that are declared are those that are reached. -/
theorem mem_dicts_iff : d ∈ p.dicts st ↔ ∃ r, .dict r ∈ (p.types st).toList ∧ st.get r = d := by
  rw [dicts, List.mem_filterMap]
  constructor
  · rintro ⟨a, ha, h⟩
    cases a with
    | dict r => exact ⟨r, ha, Option.some.inj h⟩
    | _ => nomatch h
  · rintro ⟨r, hr, rfl⟩
    exact ⟨.dict r, hr, rfl⟩

/-- What the search finds is reached from an annotation of an entity or of a factory
function. -/
theorem exists_reaches_of_mem_types (ha : a ∈ (p.types st).toList) :
    ∃ b, (b ∈ p.entityAnnotations ∨ b ∈ Annotated.annotations p.factories) ∧
      ∃ t ∈ b.nodes, st.Reaches t a := by
  rw [types_eq] at ha
  obtain ⟨as, has, ha⟩ := Store.exists_of_mem_closureOfAll ha
  obtain ⟨b, hb, t, ht, hreaches⟩ := Store.reachedFrom_of_mem_closure ha
  exact ⟨b, mem_searched_iff.mp ⟨as, has, hb⟩, t, ht, hreaches⟩

/-- The dictionary is declared under its name, and nothing else is. -/
structure Declares (p : PackageStub) (st : Store) (r : DictRef) : Prop where
  mem : st.get r ∈ p.dicts st
  name : (st.get r).name = r.name
  once : ((p.dicts st).map (·.name)).count r.name = 1

end PackageStub

namespace Service

variable {svc : Service} {s : Session} {p : PackageStub} {a t : TypeExpr} {d : TypedDict}
  {r : DictRef}

/-! ## The package's own classes -/

theorem isClass_accessorTypes : ∀ a ∈ svc.accessorTypes, IsClass a := by
  intro a ha
  rcases List.mem_append.mp ha with ha | ha <;> obtain ⟨name, -, rfl⟩ := List.mem_map.mp ha
  · exact isClass_append (c := 'r') rfl (by decide) (by rintro m ⟨⟩; simp) name
  · exact isClass_append (c := 'r') rfl (by decide) (by rintro m ⟨⟩; simp) name

theorem isClass_products (n : ServiceName) (hasResource : Bool) :
    ∀ a ∈ products n hasResource, IsClass a := by
  intro a ha
  obtain ⟨factory, -, rfl⟩ := List.mem_map.mp ha
  cases factory with
  | client => exact isClass_append (c := 't') rfl (by decide) (by rintro m ⟨⟩; simp) n.className
  | resource => exact isClass_append (c := 'e') rfl (by decide) (by rintro m ⟨⟩; simp) n.className

theorem BuiltCollection.isClass {c : CollectionStub} (h : svc.BuiltCollection s c) :
    IsClass c.decl.type := by
  obtain ⟨stem, hname⟩ := h.name
  rw [ClassStub.type, hname]
  exact isClass_append (c := 'n') rfl (by decide) (by nofun) stem

theorem BuiltServiceResource.isClass {made : ServiceResourceStub}
    (h : svc.BuiltServiceResource s made) :
    ∀ a ∈ made.allCollections.map (·.decl.type), IsClass a := by
  intro a ha
  obtain ⟨c, hc, rfl⟩ := List.mem_map.mp ha
  exact (h.collections c hc).isClass

/-! ## Factory functions -/

/-- Whether the expression is a dictionary. -/
def isDict : TypeExpr → Bool
  | .dict _ => true
  | _ => false

/-- Factory functions refer to no dictionary. -/
theorem isDict_of_factories {n : ServiceName} {hasResource : Bool}
    (ha : a ∈ Annotated.annotations (n.factories hasResource)) (ht : t ∈ a.nodes) :
    isDict t = false := by
  obtain ⟨f, hf, ha⟩ := List.mem_flatMap.mp ha
  obtain ⟨factory, -, rfl⟩ := List.mem_map.mp hf
  have harguments : ∀ b ∈ Factory.arguments.filterMap (·.type),
      ∀ u ∈ b.nodes, isDict u = false := by
    decide
  rcases List.mem_append.mp ha with ha | ha
  · rcases List.mem_append.mp ha with ha | ha
    · exact harguments a ha t ht
    · obtain rfl := List.mem_singleton.mp ha
      cases factory with
      | client => exact List.mem_singleton.mp ht ▸ rfl
      | resource => exact List.mem_singleton.mp ht ▸ rfl
  · nomatch ha

/-! ## A package and its session -/

variable (svc) in
/-- The package was made in the session, whose dictionaries are complete and told
apart by their names. -/
structure Settled (s : Session) (p : PackageStub) : Prop where
  built : svc.BuiltPackage s p
  consistent : ∃ returned, svc.Consistent returned s
  distinct : svc.Distinct s

/-- **A package that is made is settled** where names are distinct. -/
theorem settled_package {sch : Schema} (hp : sch.package.1 = .ok p)
    (hdistinct : (ofSchema sch).Distinct sch.package.2) :
    (ofSchema sch).Settled sch.package.2 p where
  built := (yields_package .empty).holds p hp
  consistent := ⟨_, consistent_afterAll (ofSchema sch) [.package]⟩
  distinct := hdistinct

namespace Settled

variable (h : svc.Settled s p)
include h

theorem closed : s.store.Closed s.Has := by
  obtain ⟨returned, hcons⟩ := h.consistent
  exact hcons.closed h.distinct

/-- What is searched refers to dictionaries of the session only. -/
theorem among : ∀ as ∈ p.searched, ∀ a ∈ as, ∀ t ∈ a.nodes, t.Among s.Has := by
  obtain ⟨returned, hcons⟩ := h.consistent
  have hfactories : svc.Typed s (products svc.serviceName p.serviceResource.isSome)
      p.factories := h.built.factories ▸ typed_factories _ _
  intro as has a ha
  have hmem := PackageStub.mem_searched_iff.mp ⟨as, has, ha⟩
  simp only [PackageStub.entityAnnotations, List.mem_append] at hmem
  rcases hmem with (((hclient | hresource) | hpaginator) | hwaiter) | hfactory
  · exact h.built.client.among isClass_accessorTypes hcons h.distinct a hclient
  · obtain ⟨made, hmade, ha⟩ := List.mem_flatMap.mp hresource
    have hbuilt := h.built.resource made (Option.mem_toList.mp hmade)
    exact hbuilt.typed.among hbuilt.isClass hcons h.distinct a ha
  · exact h.built.paginators.among nofun hcons h.distinct a hpaginator
  · exact h.built.waiters.among nofun hcons h.distinct a hwaiter
  · exact hfactories.among (isClass_products _ _) hcons h.distinct a hfactory

/-! ## The dictionaries that are declared -/

/-- A dictionary that is reached is one of the session. -/
theorem has_of_mem_types (hr : .dict r ∈ (p.types s.store).toList) : s.Has r := by
  rw [PackageStub.types_eq] at hr
  exact TypeExpr.among_dict.mp (h.closed.among_of_mem h.among hr)

/-- The dictionaries that are declared are some of the session, under their own
names. -/
theorem exists_of_mem_dicts (hd : d ∈ p.dicts s.store) :
    ∃ r, s.Has r ∧ .dict r ∈ (p.types s.store).toList ∧ s.store.get r = d ∧ d.name = r.name := by
  obtain ⟨returned, hcons⟩ := h.consistent
  obtain ⟨r, hr, rfl⟩ := PackageStub.mem_dicts_iff.mp hd
  have hhas := h.has_of_mem_types hr
  exact ⟨r, hhas, hr, rfl, hcons.get_name hhas⟩

/-- The fields of dictionaries that are declared have known types. -/
theorem known_field (hd : d ∈ p.dicts s.store) {f : Field} (hf : f ∈ d.fields) :
    svc.Known s f.type := by
  obtain ⟨returned, hcons⟩ := h.consistent
  obtain ⟨r, hhas, -, rfl, -⟩ := h.exists_of_mem_dicts hd
  exact hcons.known_field hhas hf

/-- **The dictionaries are declared in strictly increasing order of their
names.** -/
theorem pairwise_dicts : (p.dicts s.store).Pairwise fun d d' => d.name < d'.name := by
  obtain ⟨returned, hcons⟩ := h.consistent
  have hkeyed : (p.types s.store).KeyedBy TypeExpr.text :=
    PackageStub.types_eq p s.store ▸ Store.keyedBy_closureOfAll s.store p.searched
  have hsorted : (p.types s.store).Sorted :=
    PackageStub.types_eq p s.store ▸ Store.sorted_closureOfAll s.store p.searched
  have htexts := hkeyed.pairwise hsorted
  rw [PackageStub.dicts, List.pairwise_filterMap]
  refine htexts.imp_of_mem fun {a b} ha hb hlt d hd d' hd' => ?_
  cases a with
  | dict r =>
      cases b with
      | dict r' =>
          obtain rfl := Option.some.inj hd
          obtain rfl := Option.some.inj hd'
          rw [hcons.get_name (h.has_of_mem_types ha), hcons.get_name (h.has_of_mem_types hb)]
          exact hlt
      | _ => cases hd'
  | _ => cases hd

/-- A dictionary of the list is declared once. -/
theorem declares_of_mem_dicts (hmem : s.store.get r ∈ p.dicts s.store)
    (hname : (s.store.get r).name = r.name) : p.Declares s.store r := by
  have hnodup : ((p.dicts s.store).map (·.name)).Nodup :=
    (List.pairwise_map.mpr h.pairwise_dicts).imp String.ne_of_lt
  refine ⟨hmem, hname, List.count_eq_one_of_mem hnodup ?_⟩
  rw [← hname]
  exact List.mem_map_of_mem hmem

/-- A dictionary that is reached is declared under its name, once. -/
theorem declares_of_mem_types (hr : .dict r ∈ (p.types s.store).toList) :
    p.Declares s.store r := by
  obtain ⟨returned, hcons⟩ := h.consistent
  exact h.declares_of_mem_dicts (PackageStub.mem_dicts_iff.mpr ⟨r, hr, rfl⟩)
    (hcons.get_name (h.has_of_mem_types hr))

/-- **Dictionaries that annotations refer to are declared.** -/
theorem declares_of_annotation (ha : ∃ as ∈ p.searched, a ∈ as) (hr : .dict r ∈ a.nodes) :
    p.Declares s.store r := by
  obtain ⟨as, has, ha⟩ := ha
  refine h.declares_of_mem_types ?_
  rw [PackageStub.types_eq]
  exact h.closed.mem_of_node h.among has ha hr

/-- **Dictionaries that fields of declared dictionaries refer to are declared.** -/
theorem declares_of_field (hd : d ∈ p.dicts s.store) {f : Field} (hf : f ∈ d.fields)
    (hr : .dict r ∈ f.type.nodes) : p.Declares s.store r := by
  obtain ⟨r', -, hr', rfl, -⟩ := h.exists_of_mem_dicts hd
  refine h.declares_of_mem_types ?_
  rw [PackageStub.types_eq] at hr' ⊢
  exact h.closed.mem_of_field h.among hr' (List.mem_flatMap.mpr ⟨f, hf, hr⟩)

/-- **Every dictionary that is declared is reached from an entity.** -/
theorem reachedFrom_of_mem_dicts (hd : d ∈ p.dicts s.store) :
    ∃ r, s.store.get r = d ∧ d.name = r.name ∧
      s.store.ReachedFrom p.entityAnnotations (.dict r) := by
  obtain ⟨r, -, hr, hget, hname⟩ := h.exists_of_mem_dicts hd
  refine ⟨r, hget, hname, ?_⟩
  obtain ⟨a, hentity | hfactory, t, ht, hreaches⟩ := PackageStub.exists_reaches_of_mem_types hr
  · exact ⟨a, hentity, t, ht, hreaches⟩
  · rw [h.built.factories] at hfactory
    have hnot := isDict_of_factories hfactory ht
    obtain rfl : t = .dict r := Store.eq_of_reaches (by rintro r rfl; nomatch hnot) hreaches
    nomatch hnot

end Settled

end Service

/-! ## The service of boxes -/

theorem names_boxSchema {source name : String} (h : boxSchema.Names source name) :
    source = "locks.keys" ∧ name = "Key" := by
  have himports : boxSchema.documentedImports = [⟨⟨"locks.keys"⟩, "Key", none⟩] := by
    decide +kernel
  have hmem := h.mem_documentedImports
  rw [himports] at hmem
  simpa using hmem

/-- Neither boxes nor keys are called like a dictionary. -/
theorem distinct_boxSchema : (Service.ofSchema boxSchema).Distinct boxSchema.package.2 := by
  have hcons := Service.consistent_afterAll (Service.ofSchema boxSchema) [.package]
  have hne : ∀ {r : DictRef}, boxSchema.package.2.Has r → ∀ n ∈ ["Box", "Key"], r.name ≠ n := by
    rintro r hr n hn rfl
    have hlast : ∀ n ∈ ["Box", "Key"], lastChar n ≠ some 'f' := by decide
    exact hlast r.name hn (hcons.lastChar_name hr)
  constructor
  · intro r hr hmem
    have hnames : (Service.ofSchema boxSchema).resourceNames = ["Box"] := rfl
    rw [hnames, List.mem_singleton] at hmem
    exact hne hr "Box" (by decide) hmem
  · intro r hr source hnames
    exact hne hr "Key" (by decide) (names_boxSchema hnames).2

end ServiceStubs
