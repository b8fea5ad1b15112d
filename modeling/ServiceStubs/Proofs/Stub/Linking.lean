import Mathlib.Data.List.Count
import ServiceStubs.Proofs.Stub.Modules

/-!
# Generated packages link

A module of a package imports names from other modules of the package, and from
elsewhere.  What it imports from the package is there: the other module is
generated too, and declares a class or a typed dictionary of that name.

## Main definitions

* `PackageStub.PrintsDicts`, `PackageStub.Prints` — the file of the dictionaries
  declares them all, and each of them once.
* `Service.Settled.links_headImport` — what annotations refer to is provided.
* `Service.Settled.links_marked` — all import statements are linked.
* `Schema.package_links` — the packages of schemas link.
-/

namespace ServiceStubs

open Stub

/-! ## Dictionaries in the text -/

namespace PackageStub

variable {p : PackageStub} {settings : Settings} {st : Store} {r : DictRef}

/-- The text of the module of dictionaries has the definition of the dictionary, under
its name, and declares nothing else of that name. -/
structure Prints (p : PackageStub) (settings : Settings) (st : Store) (r : DictRef) : Prop where
  definition : (st.get r).marked <:+: (p.dictModule settings st).marked
  name : (st.get r).name = r.name
  once : (p.dictModule settings st).marked.declared.count (.typedDict, r.name) = 1

/-- The file of the dictionaries declares those of the package and nothing else, in
strictly increasing order of their names. -/
structure PrintsDicts (p : PackageStub) (settings : Settings) (st : Store) : Prop where
  file : (TypeExpr.dictModule ++ ".pyi", (p.dictModule settings st).marked.text) ∈
    p.files settings st
  declared : (p.dictModule settings st).marked.declared =
    (p.dicts st).map fun d => (.typedDict, d.name)
  increasing : (p.dicts st).Pairwise fun d d' => d.name < d'.name

/-- The text of the module of dictionaries declares all of them, in their order. -/
theorem declared_dictModule (p : PackageStub) (settings : Settings) (st : Store) :
    (p.dictModule settings st).marked.declared =
      (p.dicts st).map fun d => (.typedDict, d.name) := by
  rw [(p.dictModule settings st).reads_marked.declared]
  exact List.map_map

/-- **A dictionary that is declared is printed.** -/
theorem Declares.prints (h : p.Declares st r) : p.Prints settings st r where
  definition := Module.isInfix_of_mem_dicts rfl h.mem
  name := h.name
  once := by
    have hkind : Function.Injective (Prod.mk DeclarationKind.typedDict : String → _) :=
      Prod.mk_right_injective _
    have hmap : ((p.dicts st).map fun d => (DeclarationKind.typedDict, d.name)) =
        ((p.dicts st).map (·.name)).map (Prod.mk .typedDict) := by simp
    rw [declared_dictModule, hmap, List.count_map_of_injective _ _ hkind, h.once]

theorem dictModule_mem_files (p : PackageStub) (settings : Settings) (st : Store) :
    (TypeExpr.dictModule ++ ".pyi", (p.dictModule settings st).marked.text) ∈
      p.files settings st := by
  rw [files_eq]
  exact List.mem_map.mpr ⟨_, mem_modules_iff.mpr (.inr (.inr (.inl rfl))), rfl⟩

end PackageStub

namespace Service

variable {svc : Service} {s : Session} {p : PackageStub} {settings : Settings} {t : TypeExpr}
  {own : List TypeExpr}

namespace Settled

/-! ## Imports -/

variable (h : svc.Settled s p)
  (hhints : ∀ source name, svc.schema.Names source name →
    (⟨source⟩ : ModulePath).isRelative = false)
include h hhints

/-- What a known type refers to in the package is provided, if its dictionary
is. -/
theorem links_knownHead (hknown : svc.KnownHead s t)
    (hdict : ∀ r, t = .dict r → p.Declares s.store r) :
    p.Links settings s.store t.headImport := by
  have htyping : ModulePath.typing.isRelative = false := by decide
  cases t with
  | scalar c => cases c <;> exact .of_not_relative (by decide)
  | literal values => exact .of_not_relative htyping
  | subscript g args => exact .of_not_relative htyping
  | dict r => exact .inPackage (hdict r rfl).provides
  | external source name asName =>
      refine .of_not_relative ?_
      rcases hknown.2 with hlibrary | hnames
      · have hall : ∀ e ∈ libraryNames, (⟨e.1⟩ : ModulePath).isRelative = false := by decide
        exact hall _ hlibrary
      · exact hhints _ _ hnames
  | internal name module =>
      obtain ⟨rfl, hname⟩ := hknown
      exact .inPackage (h.provides_resource hname)

/-- **What annotations refer to in the package is provided.** -/
theorem links_headImport {α : Type} [Annotated α] {x : α} {classes : List ClassStub}
    (hx : svc.Backs s p settings own classes x) {a : TypeExpr} (ha : a ∈ Annotated.annotations x)
    (ht : t ∈ a.nodes) : p.Links settings s.store t.headImport := by
  rcases hx.typed.head hx.isClass ha ht with hmem | hknown
  · exact hx.links t hmem
  · refine h.links_knownHead hhints hknown ?_
    rintro r rfl
    exact h.declares_of_annotation (hx.searched a ha) ht

theorem links_required {α : Type} [Annotated α] {x : α} {classes : List ClassStub}
    (hx : svc.Backs s p settings own classes x) {i : Import}
    (hi : i ∈ (requiredImports x).toList) : p.Links settings s.store i := by
  obtain ⟨⟨a, ha, t, ht, rfl⟩, -⟩ :=
    (mem_requiredImports (hx.typed.unaliased hx.isClass)).mp hi
  exact h.links_headImport hhints hx ha ht

/-- What the fields of declared dictionaries refer to in the package is
provided. -/
theorem links_field {d : TypedDict} (hd : d ∈ p.dicts s.store) {f : Field} (hf : f ∈ d.fields)
    (ht : t ∈ f.type.nodes) : p.Links settings s.store t.headImport := by
  refine h.links_knownHead hhints (h.known_field hd hf t ht) ?_
  rintro r rfl
  exact h.declares_of_field hd hf ht

theorem links_dictImports {i : Import} (hi : i ∈ (p.dictImports s.store).toList) :
    p.Links settings s.store i := by
  obtain ⟨⟨d, hd, hdefinition | ⟨f, hf, t, ht, rfl⟩⟩, -⟩ := h.mem_dictImports.mp hi
  · have htyping : ModulePath.typingExtensions.isRelative = false := by decide
    exact .of_not_relative ((TypedDict.of_mem_definitionNeeds hdefinition).1 ▸ htyping)
  · exact h.links_field hhints hd hf ht

/-! ## Statements -/

omit h hhints in
/-- Statements are linked when the imports that they are for are. -/
theorem links_importsFor {module : String} {is : List Import}
    (his : ∀ i ∈ is, p.Links settings s.store i) {g : ImportGroup} (hg : g ∈ importsFor module is)
    {i : Import} (hi : i ∈ g.imports) : i.source = g.source ∧ p.Links settings s.store i :=
  ⟨uniform_of_mem_groupImports hg i hi, his i (exists_mem_importsFor.mp ⟨g, hg, hi⟩).1⟩

theorem links_statements : ∀ m ∈ p.modules settings s.store, ∀ g ∈ m.statements,
    ∀ i ∈ g.imports, i.source = g.source ∧ p.Links settings s.store i := by
  intro m hm g hg i hi
  rcases PackageStub.mem_modules_iff.mp hm with rfl | hm | rfl | rfl
  · rw [PackageStub.statements_initModule] at hg
    refine links_importsFor ?_ hg hi
    intro j hj
    obtain ⟨⟨module, name⟩, hoffered, rfl⟩ := List.mem_map.mp hj
    exact .inPackage (PackageStub.provides_offered hoffered)
  · revert g
    refine h.forall_classModules (P := fun m => ∀ g ∈ m.statements, i ∈ g.imports →
      i.source = g.source ∧ p.Links settings s.store i) ?_ m hm
    intro α _ x own classes module subject hx _ g hg hi
    rw [PackageStub.statements_classModule] at hg
    exact links_importsFor (fun j hj => h.links_required hhints hx hj) hg hi
  · rw [PackageStub.statements_dictModule] at hg
    exact links_importsFor (fun j hj => h.links_dictImports hhints hj) hg hi
  · rcases List.mem_append.mp hg with hg | hg
    · have hruntime : ∀ j ∈ PackageStub.factoryImports, j.source.isRelative = false := by decide
      exact links_importsFor (fun j hj => .of_not_relative (hruntime j hj)) hg hi
    · exact links_importsFor (fun j hj => h.links_required hhints h.backs_factories hj) hg hi

/-- **All imports in the texts of all modules are linked.** -/
theorem links_marked {m : Module} (hm : m ∈ p.modules settings s.store) {i : ImportStatement}
    (hi : i ∈ m.marked.statements) : ∀ j ∈ i.imports, p.Links settings s.store j := by
  rcases Module.eq_or_of_mem_statements hi with rfl | ⟨g, hg, rfl⟩
  · have hfuture : ∀ j ∈ Module.futureStatement.imports, j.source.isRelative = false := by decide
    exact fun j hj => .of_not_relative (hfuture j hj)
  · have hlinks := h.links_statements hhints m hm g hg
    rw [ImportGroup.imports_statement fun j hj => (hlinks j hj).1]
    exact fun j hj => (hlinks j hj).2

end Settled

end Service

/-! ## Packages -/

/-- **The generated package links.**  Its files are the texts of its modules.  In every
text, what is imported from the package is a class or a typed dictionary that the text
of the other module declares.  The text of the module of dictionaries declares them in
order of their names: all those that the annotations of entities and the fields of
other declared dictionaries refer to, each once, and only those that some entity
reaches. -/
theorem Schema.package_links (sch : Schema) (settings : Settings) (p : PackageStub)
    (hp : sch.package.1 = .ok p)
    (hhints : ∀ source name, sch.Names source name →
      (⟨source⟩ : ModulePath).isRelative = false)
    (hdistinct : (Service.ofSchema sch).Distinct sch.package.2) :
    (p.files settings sch.package.2.store =
      (p.modules settings sch.package.2.store).map fun m => (m.file, m.marked.text)) ∧
    (∀ m ∈ p.modules settings sch.package.2.store, m.Reads m.marked ∧
      ∀ i ∈ m.marked.statements, ∀ j ∈ i.imports, p.Links settings sch.package.2.store j) ∧
    p.PrintsDicts settings sch.package.2.store ∧
    (∀ a ∈ p.entityAnnotations, ∀ r, .dict r ∈ a.nodes →
      p.Prints settings sch.package.2.store r) ∧
    (∀ d ∈ p.dicts sch.package.2.store, ∀ f ∈ d.fields, ∀ r, .dict r ∈ f.type.nodes →
      p.Prints settings sch.package.2.store r) ∧
    ∀ d ∈ p.dicts sch.package.2.store, d.marked.text = d.definition ∧
      ∃ r, sch.package.2.store.get r = d ∧ d.name = r.name ∧
        p.Prints settings sch.package.2.store r ∧
        sch.package.2.store.ReachedFrom p.entityAnnotations (.dict r) := by
  have h := Service.settled_package hp hdistinct
  refine ⟨p.files_eq settings _, ?_, ?_, ?_, ?_, ?_⟩
  · exact fun m hm => ⟨m.reads_marked, fun i hi => h.links_marked hhints hm hi⟩
  · exact ⟨p.dictModule_mem_files settings _, p.declared_dictModule settings _, h.pairwise_dicts⟩
  · intro a ha r hr
    exact (h.declares_of_annotation (PackageStub.mem_searched_iff.mpr (.inl ha)) hr).prints
  · intro d hd f hf r hr
    exact (h.declares_of_field hd hf hr).prints
  · intro d hd
    obtain ⟨r, rfl, hname, hreached⟩ := h.reachedFrom_of_mem_dicts hd
    exact ⟨TypedDict.text_marked _, r, rfl, hname, (h.declares_of_mem_dicts hd hname).prints,
      hreached⟩

/-- The package of the service of boxes links, and its text declares its dictionaries in
order. -/
theorem boxSchema_links : ∃ p, boxSchema.package.1 = .ok p ∧
    (p.files {} boxSchema.package.2.store =
      (p.modules {} boxSchema.package.2.store).map fun m => (m.file, m.marked.text)) ∧
    (∀ m ∈ p.modules {} boxSchema.package.2.store, m.Reads m.marked ∧
      ∀ i ∈ m.marked.statements, ∀ j ∈ i.imports, p.Links {} boxSchema.package.2.store j) ∧
    p.PrintsDicts {} boxSchema.package.2.store := by
  obtain ⟨p, hp⟩ := boxSchema_package
  have hhints : ∀ source name, boxSchema.Names source name →
      (⟨source⟩ : ModulePath).isRelative = false := by
    intro source name hnames
    obtain ⟨rfl, -⟩ := names_boxSchema hnames
    decide
  obtain ⟨hfiles, hlinks, hdicts, -⟩ :=
    Schema.package_links boxSchema {} p hp hhints distinct_boxSchema
  exact ⟨p, hp, hfiles, hlinks, hdicts⟩

end ServiceStubs
