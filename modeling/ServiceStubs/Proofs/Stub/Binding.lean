import ServiceStubs.Proofs.Stub.Names

/-!
# Names of generated modules are bound

A name at the head of a part of an annotation is built in, or must be imported.
If it must be, then it is among the imports that the module was written for, and
is left out of the statements only where it is imported from the module itself;
in that case, since imports are linked, the module declares it.

## Main definitions

* `PackageStub.eq_of_file` — modules of a package have different files.
* `Service.KnownHead.importable`, `Service.IsClass.importable` — what must be
  imported.
* `Schema.package_wellBound` — all modules of a package bind the names that they
  use.
-/

namespace ServiceStubs

open Stub

namespace PackageStub

variable {p : PackageStub} {settings : Settings} {st : Store}

/-! ## Files -/

/-- The files of a package, which may have resources. -/
def fileNames (hasResource : Bool) : List String :=
  ["__init__.pyi", clientModule ++ ".pyi", paginatorModule ++ ".pyi", waiterModule ++ ".pyi"]
    ++ (if hasResource then [TypeExpr.resourceModule ++ ".pyi"] else [])
    ++ [TypeExpr.dictModule ++ ".pyi", factoryModule ++ ".py"]

theorem map_file_modules (p : PackageStub) (settings : Settings) (st : Store) :
    (p.modules settings st).map (·.file) = fileNames p.serviceResource.isSome := by
  unfold modules classModules
  cases p.serviceResource <;> rfl

theorem map_fst_files (p : PackageStub) (settings : Settings) (st : Store) :
    (p.files settings st).map Prod.fst = fileNames p.serviceResource.isSome := by
  rw [← map_file_modules p settings st, files, List.map_map]
  rfl

theorem nodup_fileNames (hasResource : Bool) : (fileNames hasResource).Nodup := by
  cases hasResource <;> decide

/-- **A file is that of one module.** -/
theorem eq_of_file {m m' : Module} (hm : m ∈ p.modules settings st)
    (hm' : m' ∈ p.modules settings st) (hfile : m.file = m'.file) : m = m' :=
  List.inj_on_of_nodup_map (map_file_modules p settings st ▸ nodup_fileNames _) hm hm' hfile

/-- What a module provides, its text binds. -/
theorem Provides.binds {m : Module} {module name : String}
    (h : p.Provides settings st module name) (hm : m ∈ p.modules settings st)
    (hfile : m.file = module ++ ".pyi") : m.marked.Binds name := by
  obtain ⟨m', hm', hfile', kind, -, hname⟩ := h
  obtain rfl := eq_of_file hm hm' (hfile.trans hfile'.symm)
  exact Module.binds_of_declared ⟨kind, hname⟩

end PackageStub

/-! ## Names that must be imported -/

theorem not_builtins_of_isRelative {m : ModulePath} (h : m.isRelative) : m.isBuiltins = false := by
  by_contra hbuiltins
  have heq : m = .builtins := by simpa [ModulePath.isBuiltins] using hbuiltins
  subst heq
  revert h
  decide

namespace Service

variable {svc : Service} {s : Session} {p : PackageStub} {settings : Settings} {t : TypeExpr}
  {own : List TypeExpr}

/-- What a known type has at its head is built in or must be imported. -/
theorem KnownHead.importable (hknown : svc.KnownHead s t) {returned : String → Prop}
    (hcons : svc.Consistent returned s) (hresources : "" ∉ svc.resourceNames)
    (hbuiltins : ∀ source name, svc.schema.Names source name → source ≠ "builtins") :
    t.headName ∈ MarkedText.builtInNames ∨ t.Importable := by
  cases t with
  | scalar c =>
      cases c with
      | any => exact .inr ⟨by decide, rfl, by decide⟩
      | _ => exact .inl (by decide)
  | literal values =>
      have hname : "Literal" ≠ "" := by decide
      exact .inr ⟨rfl, rfl, hname⟩
  | subscript g args =>
      have hname : g.text ≠ "" := by cases g <;> decide
      exact .inr ⟨rfl, rfl, hname⟩
  | dict r =>
      refine .inr ⟨?_, rfl, ne_empty_of_lastChar (hcons.lastChar_name hknown)⟩
      exact not_builtins_of_isRelative (ModulePath.isRelative_inPackage _)
  | external source name asName =>
      obtain ⟨rfl, hlibrary | hnames⟩ := hknown
      · have hall : ∀ e ∈ libraryNames,
            (⟨e.1⟩ : ModulePath).isBuiltins = false ∧ e.2 ≠ "" := by decide
        exact .inr ⟨(hall _ hlibrary).1, rfl, (hall _ hlibrary).2⟩
      · have hsource : source ≠ .builtins := fun heq =>
          hbuiltins _ _ hnames (congrArg ModulePath.path heq)
        exact .inr ⟨decide_eq_false hsource, rfl, hnames.name_ne⟩
  | internal name module =>
      obtain ⟨rfl, hname⟩ := hknown
      refine .inr ⟨?_, rfl, ?_⟩
      · exact not_builtins_of_isRelative (ModulePath.isRelative_inPackage _)
      · rintro rfl
        exact hresources hname

/-- A class of the package must be imported unless its module is the one where it
is used. -/
theorem IsClass.importable (h : IsClass t) :
    (∃ name, t = .internal name none) ∨ t.Importable := by
  obtain ⟨name, module, c, rfl, hlast, -, hmodule⟩ := h
  cases module with
  | none => exact .inl ⟨name, rfl⟩
  | some m =>
      exact .inr ⟨not_builtins_of_isRelative (hmodule m rfl), rfl, ne_empty_of_lastChar hlast⟩

/-! ## Modules -/

/-- A name that must be imported is bound: by the statements for what is needed, or
by a declaration where it comes from the module itself. -/
theorem binds_of_importable {m : Module} (module : String) {needed : List Import}
    (ht : t.Importable) (halias : t.headImport.asName = none)
    (hneeded : t.headImport.source.isInPackage module = false → t.headImport ∈ needed)
    (hstatements : ∀ g ∈ importsFor module needed, g ∈ m.statements)
    (hlinks : p.Links settings s.store t.headImport)
    (hself : ∀ name, p.Provides settings s.store module name → m.marked.Binds name) :
    m.marked.Binds t.headName := by
  rw [← ht.name]
  cases hin : t.headImport.source.isInPackage module with
  | false =>
      have hname : t.headImport.name ≠ "" := ht.name ▸ ht.nonempty
      obtain ⟨g, hg, hbound⟩ :=
        exists_bound_importsFor (hneeded hin) halias hname ht.not_builtin hin
      exact Module.binds_of_statement (hstatements g hg) hbound
  | true =>
      have hsource : t.headImport.source = .inPackage module := by
        simpa [ModulePath.isInPackage] using hin
      obtain ⟨module', hmodule, hprovides⟩ :=
        hlinks (hsource ▸ ModulePath.isRelative_inPackage module)
      obtain rfl := ModulePath.inPackage_injective (hsource.symm.trans hmodule)
      exact hself _ hprovides

namespace Settled

variable (h : svc.Settled s p) (hresources : "" ∉ svc.resourceNames)
  (hhints : ∀ source name, svc.schema.Names source name →
    (⟨source⟩ : ModulePath).isRelative = false)
  (hbuiltins : ∀ source name, svc.schema.Names source name → source ≠ "builtins")
include h hresources hhints hbuiltins

/-- What is annotated is bound in a module that imports what it requires. -/
theorem binds_annotation {α : Type} [Annotated α] {x : α} {classes : List ClassStub}
    (hx : svc.Backs s p settings own classes x) {m : Module} (module : String)
    (hstatements : ∀ g ∈ importsFor module (requiredImports x).toList, g ∈ m.statements)
    (hself : ∀ name, p.Provides settings s.store module name → m.marked.Binds name)
    (hdeclared : ∀ name ∈ classes.map (·.name), m.marked.Binds name) {a : TypeExpr}
    (ha : a ∈ Annotated.annotations x) (ht : t ∈ a.nodes) : m.marked.Binds t.headName := by
  obtain ⟨returned, hcons⟩ := h.consistent
  have halias : t.headImport.asName = none := hx.typed.unaliased hx.isClass a ha t ht
  have himport : t.Importable → m.marked.Binds t.headName := by
    intro himportable
    refine binds_of_importable module himportable halias (fun _ => ?_) hstatements
      (h.links_headImport hhints hx ha ht) hself
    exact (mem_requiredImports (hx.typed.unaliased hx.isClass)).mpr
      ⟨⟨a, ha, t, ht, rfl⟩, himportable.not_builtin⟩
  rcases hx.typed.head hx.isClass ha ht with hmem | hknown
  · rcases (hx.isClass t hmem).importable with ⟨name, rfl⟩ | himportable
    · exact hdeclared name (hx.declared name hmem)
    · exact himport himportable
  · rcases hknown.importable hcons hresources hbuiltins with hbuiltin | himportable
    · exact .inl hbuiltin
    · exact himport himportable

/-- **Modules of classes bind their names.** -/
theorem wellBound_classModules : ∀ m ∈ p.classModules settings, m.marked.WellBound := by
  refine h.forall_classModules ?_
  intro α _ x own classes module subject hx hmem
  have hdeclared : ∀ name ∈ classes.map (·.name),
      (p.classModule settings module subject (requiredImports x) classes).marked.Binds name := by
    intro name hname
    obtain ⟨c, hc, rfl⟩ := List.mem_map.mp hname
    exact Module.binds_of_declaration (d := c.declaration) (List.mem_map_of_mem hc)
  refine Module.wellBound_marked ?_ hdeclared
  intro d hd n hn
  obtain ⟨c, hc, rfl⟩ := List.mem_map.mp hd
  obtain ⟨a, ha, t, ht, rfl⟩ := mem_names_iff.mp hn
  refine h.binds_annotation hresources hhints hbuiltins hx module ?_ ?_ hdeclared
    (hx.covers c hc a (ClassStub.mem_annotations_iff.mpr ha)) ht
  · rw [PackageStub.statements_classModule]
    exact fun _ hg => hg
  · exact fun name hprovides => hprovides.binds
      (PackageStub.mem_modules_iff.mpr (.inr (.inl hmem))) rfl

/-- What the fields of declared dictionaries refer to is bound where they are
declared. -/
theorem binds_field {d : TypedDict} (hd : d ∈ p.dicts s.store) {f : Field} (hf : f ∈ d.fields)
    (ht : t ∈ f.type.nodes) : (p.dictModule settings s.store).marked.Binds t.headName := by
  obtain ⟨returned, hcons⟩ := h.consistent
  have hknown := h.known_field hd hf t ht
  rcases hknown.importable hcons hresources hbuiltins with hbuiltin | himportable
  · exact .inl hbuiltin
  · have hdeclared : ∀ name, p.Provides settings s.store TypeExpr.dictModule name →
        (p.dictModule settings s.store).marked.Binds name := fun name hprovides =>
      hprovides.binds (PackageStub.mem_modules_iff.mpr (.inr (.inr (.inl rfl)))) rfl
    refine binds_of_importable TypeExpr.dictModule himportable hknown.unaliased (fun hself => ?_)
      (fun _ hg => List.mem_append_left _ hg) (h.links_field hhints hd hf ht) hdeclared
    exact h.mem_dictImports.mpr ⟨⟨d, hd, .inr ⟨f, hf, t, ht, rfl⟩⟩, himportable.not_builtin, hself⟩

/-- **The module of dictionaries binds its names.** -/
theorem wellBound_dictModule : (p.dictModule settings s.store).marked.WellBound := by
  have hneeds : ∀ d ∈ p.dicts s.store, ∀ i ∈ d.definitionNeeds,
      (p.dictModule settings s.store).marked.Binds i.name := by
    intro d hd i hi
    obtain ⟨hsource, halias, hname⟩ := TypedDict.of_mem_definitionNeeds hi
    have hbuiltin : i.isBuiltins = false := by
      rw [Import.isBuiltins, hsource]
      decide
    have hself : i.source.isInPackage TypeExpr.dictModule = false := by
      rw [hsource]
      decide
    have hmem := h.mem_dictImports.mpr ⟨⟨d, hd, .inl hi⟩, hbuiltin, hself⟩
    obtain ⟨g, hg, hbound⟩ := exists_bound_importsFor hmem halias hname hbuiltin hself
    exact Module.binds_of_statement (List.mem_append_left _ hg) hbound
  refine Module.wellBound_marked ?_ ?_
  · intro e he n hn
    obtain ⟨d, hd, rfl⟩ := List.mem_map.mp he
    rcases TypedDict.of_mem_uses hn with ⟨i, hi, rfl⟩ | ⟨f, hf, hn⟩
    · exact hneeds d hd i hi
    · obtain ⟨t, ht, rfl⟩ := List.mem_map.mp hn
      exact h.binds_field hresources hhints hbuiltins hd hf ht
  · intro n hn
    obtain ⟨d, hd, rfl⟩ := List.mem_map.mp hn
    exact Module.binds_of_declaration (d := d.declaration) (List.mem_map_of_mem hd)

/-- **The module of factory functions binds its names.** -/
theorem wellBound_functionModule : (p.functionModule settings).marked.WellBound := by
  -- The module is no stub, so nothing is imported from it.
  have hnone : ∀ name, p.Provides settings s.store PackageStub.factoryModule name →
      (p.functionModule settings).marked.Binds name := by
    rintro name ⟨m, hm, hfile, -⟩
    have hmem : m.file ∈ PackageStub.fileNames p.serviceResource.isSome := by
      rw [← PackageStub.map_file_modules p settings s.store]
      exact List.mem_map_of_mem hm
    have hno : ∀ hasResource, PackageStub.factoryModule ++ ".pyi" ∉
        PackageStub.fileNames hasResource := by
      decide
    exact absurd (hfile ▸ hmem) (hno _)
  refine Module.wellBound_marked ?_ ?_
  · intro d hd n hn
    obtain ⟨f, hf, rfl⟩ := List.mem_map.mp hd
    obtain ⟨a, ha, t, ht, rfl⟩ := mem_names_iff.mp hn
    have hannotated : a ∈ Annotated.annotations p.factories := List.mem_flatMap.mpr
      ⟨f, hf, FunctionStub.mem_annotations_iff.mpr (List.mem_append_right _ ha)⟩
    exact h.binds_annotation hresources hhints hbuiltins h.backs_factories
      PackageStub.factoryModule (fun _ hg => List.mem_append_right _ hg) hnone nofun hannotated ht
  · intro n hn
    obtain ⟨f, hf, rfl⟩ := List.mem_map.mp hn
    exact Module.binds_of_declaration (d := f.declaration) (List.mem_map_of_mem hf)

omit hresources hhints hbuiltins in
/-- What a package offers has a name. -/
theorem ne_empty_of_mem_offered {module name : String} (hoffered : (module, name) ∈ p.offered) :
    name ≠ "" ∧ module ≠ "__init__" := by
  simp only [PackageStub.offered, List.mem_append, List.mem_singleton, List.mem_map,
    Prod.mk.injEq] at hoffered
  have happend : ∀ {stem ending : String} {c : Char}, lastChar ending = some c →
      stem ++ ending ≠ "" := by
    intro stem ending c hlast
    exact ne_empty_of_lastChar
      ((lastChar_append stem (ne_empty_of_lastChar hlast)).trans hlast)
  rcases hoffered with ((⟨rfl, rfl⟩ | ⟨made, hmade, rfl, rfl⟩) | ⟨e, he, rfl, rfl⟩) |
    ⟨e, he, rfl, rfl⟩
  · refine ⟨?_, by decide⟩
    rw [h.built.client_name]
    exact happend (c := 't') rfl
  · refine ⟨?_, by decide⟩
    rw [(h.built.resource made (Option.mem_toList.mp hmade)).name]
    exact happend (c := 'e') rfl
  · refine ⟨?_, by decide⟩
    have hmem : e.decl.name ∈ p.paginators.map (·.decl.name) := List.mem_map_of_mem he
    rw [h.built.paginator_names] at hmem
    obtain ⟨key, -, hkey⟩ := List.mem_map.mp hmem
    exact hkey ▸ happend (c := 'r') rfl
  · refine ⟨?_, by decide⟩
    have hmem : e.decl.name ∈ p.waiters.map (·.decl.name) := List.mem_map_of_mem he
    rw [h.built.waiter_names] at hmem
    obtain ⟨key, -, hkey⟩ := List.mem_map.mp hmem
    exact hkey ▸ happend (c := 'r') rfl

omit hresources hhints hbuiltins in
/-- **The module that gathers the names of the others binds them.** -/
theorem wellBound_initModule : (p.initModule settings).marked.WellBound := by
  have hoffered : ∀ e ∈ p.offered, (p.initModule settings).marked.Binds e.2 := by
    rintro ⟨module, name⟩ he
    obtain ⟨hname, hmodule⟩ := h.ne_empty_of_mem_offered he
    have hself : (Import.inPackage module name).source.isInPackage "__init__" = false :=
      decide_eq_false fun heq => hmodule (ModulePath.inPackage_injective heq)
    have hmem : Import.inPackage module name ∈
        p.offered.map fun e => Import.inPackage e.1 e.2 := List.mem_map_of_mem he
    obtain ⟨g, hg, hbound⟩ := exists_bound_importsFor hmem rfl hname
      (not_builtins_of_isRelative (ModulePath.isRelative_inPackage module)) hself
    exact Module.binds_of_statement (List.mem_append_left _ hg) hbound
  have hshort : ∀ e ∈ p.shortNames, ∃ module, (module, e.2) ∈ p.offered := by
    intro e he
    rcases List.mem_append.mp he with he | he
    · obtain rfl := List.mem_singleton.mp he
      exact ⟨clientModule, by simp [PackageStub.offered]⟩
    · obtain ⟨made, hmade, rfl⟩ := List.mem_map.mp he
      exact ⟨TypeExpr.resourceModule, by simp_all [PackageStub.offered]⟩
  have hassigned : ∀ e ∈ p.shortNames, (⟨.assignment, e.1, [e.2]⟩ : Declaration) ∈
      (p.initModule settings).body.declarations := fun e he => List.mem_map_of_mem he
  refine Module.wellBound_marked ?_ ?_
  · intro d hd n hn
    obtain ⟨e, he, rfl⟩ := List.mem_map.mp hd
    obtain rfl := List.mem_singleton.mp hn
    obtain ⟨module, hmem⟩ := hshort e he
    exact hoffered (module, e.2) hmem
  · intro n hn
    rcases List.mem_append.mp (List.mem_mergeSort.mp hn) with hn | hn
    · obtain ⟨e, he, rfl⟩ := List.mem_map.mp hn
      exact Module.binds_of_declaration (hassigned e he)
    · obtain ⟨e, he, rfl⟩ := List.mem_map.mp hn
      exact hoffered e he

end Settled

end Service

/-! ## Packages -/

/-- **Every name that a generated module uses is bound there.**  There is a file for each
kind of entity, for the dictionaries and for the functions; they are the texts of the
modules, marked with what they import, declare, use and export; what the text
of a module uses in annotations and declarations, and what it exports, is built in,
bound by one of the import statements in that text, or declared in it. -/
theorem Schema.package_wellBound (sch : Schema) (settings : Settings) (p : PackageStub)
    (hp : sch.package.1 = .ok p) (hresources : "" ∉ sch.resourceNames)
    (hhints : ∀ source name, sch.Names source name →
      (⟨source⟩ : ModulePath).isRelative = false ∧ source ≠ "builtins")
    (hdistinct : (Service.ofSchema sch).Distinct sch.package.2) :
    (p.files settings sch.package.2.store).map Prod.fst =
      PackageStub.fileNames p.serviceResource.isSome ∧
    (p.files settings sch.package.2.store =
      (p.modules settings sch.package.2.store).map fun m => (m.file, m.marked.text)) ∧
    ∀ m ∈ p.modules settings sch.package.2.store, m.Reads m.marked ∧ m.marked.WellBound := by
  have h := Service.settled_package hp hdistinct
  have hrelative := fun source name hnames => (hhints source name hnames).1
  have hbuiltins := fun source name hnames => (hhints source name hnames).2
  refine ⟨p.map_fst_files settings _, p.files_eq settings _, fun m hm => ⟨m.reads_marked, ?_⟩⟩
  rcases PackageStub.mem_modules_iff.mp hm with rfl | hm | rfl | rfl
  · exact h.wellBound_initModule
  · exact h.wellBound_classModules hresources hrelative hbuiltins m hm
  · exact h.wellBound_dictModule hresources hrelative hbuiltins
  · exact h.wellBound_functionModule hresources hrelative hbuiltins

/-- The texts of the modules for the service of boxes bind the names that they use. -/
theorem boxSchema_wellBound : ∃ p, boxSchema.package.1 = .ok p ∧
    (p.files {} boxSchema.package.2.store).map Prod.fst =
      PackageStub.fileNames p.serviceResource.isSome ∧
    (p.files {} boxSchema.package.2.store =
      (p.modules {} boxSchema.package.2.store).map fun m => (m.file, m.marked.text)) ∧
    ∀ m ∈ p.modules {} boxSchema.package.2.store, m.Reads m.marked ∧ m.marked.WellBound := by
  obtain ⟨p, hp⟩ := boxSchema_package
  have hhints : ∀ source name, boxSchema.Names source name →
      (⟨source⟩ : ModulePath).isRelative = false ∧ source ≠ "builtins" := by
    intro source name hnames
    obtain ⟨rfl, -⟩ := names_boxSchema hnames
    decide
  exact ⟨p, hp, Schema.package_wellBound boxSchema {} p hp (by decide) hhints distinct_boxSchema⟩

end ServiceStubs
