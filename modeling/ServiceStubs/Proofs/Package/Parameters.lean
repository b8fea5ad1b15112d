import ServiceStubs.Proofs.Documentation.Known
import ServiceStubs.Proofs.Package.Signatures
import ServiceStubs.Schema.Loading
import ServiceStubs.TypeExpr.Definition

/-!
# The names of parameters

What a method calls its arguments comes from three places: the schema names inputs
and identifiers, paginators and waiters add the name of their settings, and the
documentation adds what it knows.  Only the documentation is compared with what is
there already.  So a package may be written with a method that takes two arguments
of one name, or one whose name is a keyword, and this happens in just a few ways:
an input or identifier is called like the instance or like a keyword, two open
identifiers of a relation have one name, or an input is called like the settings
that come after it.

## Main definitions

* `LegalNames` — the names that the arguments of one method may have.
* `Service.NamesFit` — a schema without names that clash.
* `Schema.legal_package_iff` — packages whose methods have legal parameters.
* `pagedSchema_takes_twice` — a method that takes two arguments of one name.
-/

namespace ServiceStubs

open Documentation

/-! ## Legal names -/

/-- An argument may be called so: the name is not that of the instance, and no
keyword. -/
def IsParameter (n : String) : Prop :=
  n ≠ "self" ∧ n ∉ keywords

instance : DecidablePred IsParameter := fun n =>
  inferInstanceAs (Decidable (n ≠ "self" ∧ n ∉ keywords))

/-- The arguments of one method may be called so: each in its own way, and all of
them legally. -/
structure LegalNames (names : List String) : Prop where
  nodup : names.Nodup
  legal : ∀ n ∈ names, IsParameter n

theorem legalNames_iff {names : List String} :
    LegalNames names ↔ names.Nodup ∧ ∀ n ∈ names, IsParameter n :=
  ⟨fun h => ⟨h.nodup, h.legal⟩, fun h => ⟨h.1, h.2⟩⟩

instance : DecidablePred LegalNames := fun _ => decidable_of_iff' _ legalNames_iff

namespace LegalNames

variable {names names' : List String}

theorem perm_iff (h : names.Perm names') : LegalNames names ↔ LegalNames names' := by
  rw [legalNames_iff, legalNames_iff, h.nodup_iff]
  simp only [h.mem_iff]

theorem append_iff : LegalNames (names ++ names') ↔
    LegalNames names ∧ LegalNames names' ∧ ∀ n ∈ names, n ∉ names' := by
  simp only [legalNames_iff, List.nodup_append, List.mem_append, or_imp, forall_and, ne_eq]
  constructor
  · rintro ⟨⟨h, h', hdisjoint⟩, hlegal, hlegal'⟩
    exact ⟨⟨h, hlegal⟩, ⟨h', hlegal'⟩, fun n hn hn' => hdisjoint n hn n hn' rfl⟩
  · rintro ⟨⟨h, hlegal⟩, ⟨h', hlegal'⟩, hdisjoint⟩
    exact ⟨⟨h, h', fun n hn m hm hnm => hdisjoint n hn (hnm ▸ hm)⟩, hlegal, hlegal'⟩

end LegalNames

/-! ## Documented names -/

namespace Documentation

theorem Reading.nodup_addArgument {r : Reading} (h : (r.arguments.map (·.name)).Nodup)
    (name rest : String) : ((r.addArgument name rest).arguments.map (·.name)).Nodup := by
  unfold Reading.addArgument
  split
  · exact h
  · next hnew =>
      have hnew : name ∉ r.arguments.map (·.name) := by simpa using hnew
      rw [List.map_append]
      refine List.nodup_append.mpr ⟨h, by simp, ?_⟩
      rintro n hn _ hm rfl
      obtain rfl := List.mem_singleton.mp hm
      exact hnew hn

/-- A line adds no argument that is known already. -/
theorem Reading.nodup_addLine {resources : List String} {r r' : Reading}
    (h : (r.arguments.map (·.name)).Nodup) (line : List Char)
    (hr : r.addLine resources line = .ok r') : (r'.arguments.map (·.name)).Nodup := by
  unfold Reading.addLine at hr
  split at hr
  · unfold Reading.addDirective at hr
    dsimp only at hr
    split at hr
    · nomatch hr
    · obtain rfl := Except.ok.inj hr
      exact Reading.nodup_addArgument (r := { r with inDirectives := true }) h _ _
    · nomatch hr
    · split at hr
      · nomatch hr
      · obtain rfl := Except.ok.inj hr
        exact h
    · split at hr <;> obtain rfl := Except.ok.inj hr <;> exact h
    · obtain rfl := Except.ok.inj hr
      exact h
  · split at hr <;> obtain rfl := Except.ok.inj hr <;> exact h

/-- Types that are given to arguments leave their names alone. -/
theorem map_name_giveType {resources : List String} {as as' : List ArgumentInfo}
    {hint : String × String} (h : giveType resources as hint = .ok as') :
    as'.map (·.name) = as.map (·.name) := by
  unfold giveType at h
  split at h
  · obtain rfl := Except.ok.inj h
    rw [List.map_map]
    refine List.map_congr_left fun a _ => ?_
    simp only [Function.comp_apply]
    split <;> rfl
  · nomatch h

/-- **No documentation names an argument twice.** -/
theorem nodup_of_ofText {resources : List String} {text : String} {info : MethodInfo}
    (h : MethodInfo.ofText resources text = .ok info) : (info.arguments.map (·.name)).Nodup := by
  unfold MethodInfo.ofText at h
  obtain ⟨r, hr, h⟩ := bind_eq_ok_iff.mp h
  obtain ⟨as, has, h⟩ := bind_eq_ok_iff.mp h
  obtain rfl := Except.ok.inj h
  have hempty : (({} : Reading).arguments.map (·.name)).Nodup := List.nodup_nil
  have hread : (r.arguments.map (·.name)).Nodup :=
    foldlM_ok (P := fun r => (r.arguments.map (·.name)).Nodup) hempty
      (fun _ line _ h hr => Reading.nodup_addLine h line hr) hr
  exact foldlM_ok (P := fun as => (as.map (·.name)).Nodup) hread
    (fun _ _ _ h hr => (map_name_giveType hr).symm ▸ h) has

end Documentation

/-! ## Completed methods -/

namespace FunctionStub

variable {f : FunctionStub} {names : List String}

/-- A method that is completed takes nothing under a name that it knew already. -/
theorem Takes.not_mem_missingNames (h : f.Takes names) {info : MethodInfo} {n : String}
    (hn : n ∈ names) (hself : n ≠ "self") : n ∉ f.missingNames info := by
  have hknown : n ∈ f.argumentNames := by
    obtain ⟨a, ha, rfl⟩ := List.mem_map.mp (h.parameterNames_perm.mem_iff.mpr hn)
    obtain ⟨ha, hmark⟩ := List.mem_filter.mp ha
    refine List.mem_map.mpr ⟨a, List.mem_filter.mpr ⟨List.mem_of_mem_tail ha, ?_⟩, rfl⟩
    simpa [hself] using hmark
  intro hmissing
  obtain ⟨a, ha, rfl⟩ := List.mem_map.mp hmissing
  simp [hknown] at ha

/-- Legal documentation keeps the names of a method legal. -/
theorem Takes.legal_complete (h : f.Takes names) (hnames : LegalNames names) {info : MethodInfo}
    (hinfo : LegalNames (info.arguments.map (·.name))) :
    LegalNames (info.complete f).parameterNames := by
  have hself : "self" ∉ names := fun hmem => (hnames.legal _ hmem).1 rfl
  have hmissing : LegalNames (f.missingNames info) := by
    refine ⟨hinfo.nodup.sublist (List.filter_sublist.map _), fun n hn => ?_⟩
    obtain ⟨a, ha, rfl⟩ := List.mem_map.mp hn
    exact hinfo.legal _ (List.mem_map_of_mem (List.mem_filter.mp ha).1)
  rw [LegalNames.perm_iff (h.complete hself info).parameterNames_perm, LegalNames.append_iff]
  exact ⟨hnames, hmissing, fun n hn => h.not_mem_missingNames hn (hnames.legal n hn).1⟩

/-- No documentation makes the names of a method legal. -/
theorem Takes.legal_of_complete (h : f.Takes names) {info : MethodInfo}
    (hcomplete : LegalNames (info.complete f).parameterNames) : LegalNames names := by
  have harguments : ∃ as, f.arguments = .self :: as := by
    obtain ⟨as, -, -, harguments | harguments⟩ := h
    · exact ⟨as, harguments⟩
    · exact ⟨_, harguments⟩
  obtain ⟨as, harguments⟩ := harguments
  rw [LegalNames.perm_iff (parameterNames_complete harguments info), LegalNames.append_iff,
    LegalNames.perm_iff h.parameterNames_perm] at hcomplete
  exact hcomplete.1

end FunctionStub

namespace Service

variable {svc : Service} {f : FunctionStub} {names : List String}

/-! ## Schemas without clashes -/

variable (svc) in
/-- The names that a schema gives to arguments fit together: they are legal, the
identifiers that a relation leaves open differ, and no input that a paginator or
waiter takes is called like the settings that come after it. -/
structure NamesFit : Prop where
  parameters : ∀ n ∈ svc.parameters, IsParameter n
  relations : ∀ owner ∈ svc.owners, ∀ r ∈ owner.has.values, r.resource.openNames.Nodup
  paging : ∀ name rule o, svc.schema.paginator name = .ok rule → svc.operation name = .ok o →
    "PaginationConfig" ∉ svc.inputNames o (pagingInputs rule)
  waiting : ∀ name rule o, svc.schema.waiter name = .ok rule →
    svc.operation rule.operation = .ok o → "WaiterConfig" ∉ svc.inputNames o []

variable (svc) in
/-- Readable documentation calls no argument illegally. -/
def DocumentsLegally : Prop :=
  ∀ text ∈ svc.schema.documentation.values, ∀ info,
    MethodInfo.ofText svc.schema.resourceNames text = .ok info →
      ∀ a ∈ info.arguments, IsParameter a.name

theorem NamesFit.legal_inputs (h : svc.NamesFit) {name : String} {o : Schema.Operation}
    (ho : svc.operation name = .ok o) (exclude : List String) :
    LegalNames (svc.inputNames o exclude) where
  nodup := nodup_inputNames svc o exclude
  legal n hn := h.parameters n (mem_parameters_of_input ho hn)

/-- **When names fit, each method of the schema has legal parameters.** -/
theorem NamesFit.legal (h : svc.NamesFit) (hnames : svc.MethodNames names) : LegalNames names := by
  cases hnames with
  | nothing => decide
  | counted => decide
  | inputs ho exclude => exact h.legal_inputs ho exclude
  | @paging name rule o hrule ho =>
      refine LegalNames.append_iff.mpr ⟨h.legal_inputs ho _, by decide, fun n hn hsettings => ?_⟩
      obtain rfl := List.mem_singleton.mp hsettings
      exact h.paging name rule o hrule ho hn
  | @waiting name rule o hrule ho exclude =>
      refine LegalNames.append_iff.mpr ⟨h.legal_inputs ho _, by decide, fun n hn hsettings => ?_⟩
      obtain rfl := List.mem_singleton.mp hsettings
      exact h.waiting name rule o hrule ho (mem_inputNames_iff.mp hn).1
  | relation howner hr =>
      refine ⟨h.relations _ howner _ hr, fun n hn => h.parameters n (List.mem_append_right _ ?_)⟩
      exact List.mem_flatMap.mpr ⟨_, howner, List.mem_flatMap.mpr ⟨_, hr, hn⟩⟩

/-! ## Methods of a package -/

theorem DocumentsLegally.legal (h : svc.DocumentsLegally) {text : String} {info : MethodInfo}
    (htext : text ∈ svc.schema.documentation.values)
    (hinfo : MethodInfo.ofText svc.schema.resourceNames text = .ok info) :
    LegalNames (info.arguments.map (·.name)) := by
  refine ⟨nodup_of_ofText hinfo, fun n hn => ?_⟩
  obtain ⟨a, ha, rfl⟩ := List.mem_map.mp hn
  exact h text htext info hinfo a ha

theorem DocumentsLegally.legal_ofText (h : svc.DocumentsLegally) (entity name : String)
    {text : String} (htext : text ∈ svc.schema.documentation.values) :
    LegalNames ((svc.docs entity).ofText name text).parameterNames := by
  unfold EntityDocs.ofText
  split
  · next info hinfo =>
      exact (LegalNames.perm_iff (FunctionStub.takes_ofInfo info name).parameterNames_perm).mpr
        (h.legal htext hinfo)
  · show LegalNames ["args", "kwargs"]
    decide

theorem mem_documentation_of_entries {entity name text : String}
    (h : (name, text) ∈ (svc.docs entity).entries) : text ∈ svc.schema.documentation.values := by
  obtain ⟨⟨key, text'⟩, hentry, hname⟩ := List.mem_filterMap.mp h
  obtain ⟨_, -, hpair⟩ := Option.map_eq_some_iff.mp hname
  obtain ⟨-, rfl⟩ := Prod.mk.inj hpair
  exact List.mem_map.mpr ⟨_, hentry, rfl⟩

/-- What is known of the methods that are never documented is legal. -/
theorem legal_undocumented {resources : List String} {name : String} {info : MethodInfo}
    (h : undocumented? resources name = some info) :
    LegalNames (info.arguments.map (·.name)) := by
  obtain ⟨m, hm, rfl⟩ := Option.map_eq_some_iff.mp h
  have hnames : ∀ m ∈ undocumented, LegalNames (m.arguments.map (·.1)) := by decide
  rw [List.map_map]
  exact hnames m (List.mem_of_find?_eq_some hm)

/-- **Where names fit and the documentation is legal, every method of a package has
legal parameters.** -/
theorem PackageMethod.legal (h : svc.PackageMethod f) (hfit : svc.NamesFit)
    (hdocs : svc.DocumentsLegally) : LegalNames f.parameterNames := by
  cases h with
  | described entity hf =>
      obtain ⟨names, hnames, htakes⟩ := hf.exists_takes
      have hlegal := hfit.legal hnames
      rcases document_cases (svc.docs entity) _ with hsame | ⟨text, info, htext, hinfo, hcomplete⟩
      · rw [hsame, LegalNames.perm_iff htakes.parameterNames_perm]
        exact hlegal
      · rw [hcomplete]
        exact htakes.legal_complete hlegal
          (hdocs.legal (OrderedMap.mem_values_of_get? htext) hinfo)
  | @fallback entity name _ hf =>
      unfold EntityDocs.fallback? at hf
      split at hf
      · next text htext =>
          obtain rfl := Option.some.inj hf
          exact hdocs.legal_ofText entity name (OrderedMap.mem_values_of_get? htext)
      · obtain ⟨info, hinfo, rfl⟩ := Option.map_eq_some_iff.mp hf
        exact (LegalNames.perm_iff (FunctionStub.takes_ofInfo info name).parameterNames_perm).mpr
          (legal_undocumented hinfo)
  | accessor method name className module =>
      rw [LegalNames.perm_iff (takes_accessor method name className module).parameterNames_perm]
      decide
  | further hentry => exact hdocs.legal_ofText _ _ (mem_documentation_of_entries hentry)

section Legal

variable {p : PackageStub}
  (hall : ∀ c ∈ p.classes, ∀ f ∈ c.methods, LegalNames f.parameterNames)
include hall

/-- A method of the schema that is legal in a package is legal by itself. -/
theorem Documents.legal (h : svc.Documents p f) (htakes : f.Takes names) : LegalNames names := by
  obtain ⟨c, hc, entity, hf⟩ := h
  have hlegal := hall c hc _ hf
  rcases document_cases (svc.docs entity) f with hsame | ⟨text, info, -, -, hcomplete⟩
  · rwa [hsame, LegalNames.perm_iff htakes.parameterNames_perm] at hlegal
  · rw [hcomplete] at hlegal
    exact htakes.legal_of_complete hlegal

variable (hp : svc.package.Gives p)
include hp

theorem legalNames_inputs {name : String} {o : Schema.Operation}
    (ho : svc.operation name = .ok o) : LegalNames (svc.inputNames o []) := by
  obtain ⟨f, hf, hdocuments⟩ :=
    documents_operation hp (OrderedMap.exists_lookup_iff.mp ⟨o, ho⟩)
  obtain ⟨o', ho', htakes⟩ := takes_clientMethod hf
  obtain rfl : o' = o := Except.ok.inj (ho'.symm.trans ho)
  exact hdocuments.legal hall htakes

theorem legalNames_openNames {owner : Schema.ResourceModel} (howner : owner ∈ svc.owners)
    {r : Schema.Relation} (hr : r ∈ owner.has.values) : LegalNames r.resource.openNames := by
  obtain ⟨name, f, hf, hdocuments⟩ := documents_relation hp howner hr
  exact hdocuments.legal hall (takes_relationMethod hf)

theorem legalNames_paging {name : String} {rule : Schema.PagingRule} {o : Schema.Operation}
    (hrule : svc.schema.paginator name = .ok rule) (ho : svc.operation name = .ok o) :
    LegalNames (svc.inputNames o (pagingInputs rule) ++ ["PaginationConfig"]) := by
  obtain ⟨f, hf, hdocuments⟩ :=
    documents_paginator hp (OrderedMap.exists_lookup_iff.mp ⟨rule, hrule⟩)
  obtain ⟨rule', o', hrule', ho', htakes⟩ := takes_paginateMethod hf
  obtain rfl : rule' = rule := Except.ok.inj (hrule'.symm.trans hrule)
  obtain rfl : o' = o := Except.ok.inj (ho'.symm.trans ho)
  exact hdocuments.legal hall htakes

theorem legalNames_waiting {name : String} {rule : Schema.WaitingRule} {o : Schema.Operation}
    (hrule : svc.schema.waiter name = .ok rule) (ho : svc.operation rule.operation = .ok o) :
    LegalNames (svc.inputNames o [] ++ ["WaiterConfig"]) := by
  obtain ⟨f, hf, hdocuments⟩ := documents_waiter hp (OrderedMap.lookup_eq_ok_iff_mem.mp hrule)
  obtain ⟨rule', o', hrule', ho', htakes⟩ := takes_waitMethod hf
  obtain rfl : rule' = rule := Except.ok.inj (hrule'.symm.trans hrule)
  obtain rfl : o' = o := Except.ok.inj (ho'.symm.trans ho)
  exact hdocuments.legal hall htakes

theorem isParameter_of_mem {n : String} (hn : n ∈ svc.parameters) : IsParameter n := by
  rcases List.mem_append.mp hn with hn | hn
  · obtain ⟨o, ho, hn⟩ := List.mem_flatMap.mp hn
    obtain ⟨⟨name, o⟩, hentry, rfl⟩ := List.mem_map.mp ho
    have hlookup : svc.operation name = .ok o := OrderedMap.lookup_eq_ok_iff_mem.mpr hentry
    exact (legalNames_inputs hall hp hlookup).legal n hn
  · obtain ⟨owner, howner, hn⟩ := List.mem_flatMap.mp hn
    obtain ⟨r, hr, hn⟩ := List.mem_flatMap.mp hn
    exact (legalNames_openNames hall hp howner hr).legal n hn

/-- **When all methods of a package have legal parameters, names fit.** -/
theorem namesFit_of_legal : svc.NamesFit where
  parameters _ hn := isParameter_of_mem hall hp hn
  relations _ howner _ hr := (legalNames_openNames hall hp howner hr).nodup
  paging _ _ _ hrule ho hmem :=
    (LegalNames.append_iff.mp (legalNames_paging hall hp hrule ho)).2.2 _ hmem (by simp)
  waiting _ _ _ hrule ho hmem :=
    (LegalNames.append_iff.mp (legalNames_waiting hall hp hrule ho)).2.2 _ hmem (by simp)

end Legal

end Service

/-- **A package has methods with legal parameters only, exactly when the names of the
schema fit together**, as long as the documentation calls no argument illegally. -/
theorem Schema.legal_package_iff {sch : Schema} {p : PackageStub} (hp : sch.package.1 = .ok p)
    (hdocs : (Service.ofSchema sch).DocumentsLegally) :
    (∀ c ∈ p.classes, ∀ f ∈ c.methods, LegalNames f.parameterNames) ↔
      (Service.ofSchema sch).NamesFit := by
  have hgives : (Service.ofSchema sch).package.Gives p := ⟨{}, hp⟩
  constructor
  · exact fun hall => Service.namesFit_of_legal hall hgives
  · exact fun hfit c hc f hf => (Service.packageMethod_of_mem hgives hc hf).legal hfit hdocs

/-- The documentation of boxes tells of one argument, the key. -/
theorem documentsLegally_boxSchema : (Service.ofSchema boxSchema).DocumentsLegally := by
  intro text htext info hinfo a ha
  have hcheck : ∀ text ∈ boxSchema.documentation.values,
      (MethodInfo.ofText boxSchema.resourceNames text).toOption.all fun info =>
        info.arguments.all fun a => decide (IsParameter a.name) := by decide +kernel
  have hchecked := hcheck text htext
  have hinfo : MethodInfo.ofText boxSchema.resourceNames text = .ok info := hinfo
  simp only [hinfo, Except.toOption, Option.all_some, List.all_eq_true,
    decide_eq_true_eq] at hchecked
  exact hchecked a ha

/-- The service of boxes calls its inputs legally, and so do its methods. -/
theorem boxSchema_legal :
    (Service.ofSchema boxSchema).DocumentsLegally ∧ ∃ p, boxSchema.package.1 = .ok p ∧
      ((∀ c ∈ p.classes, ∀ f ∈ c.methods, LegalNames f.parameterNames) ↔
        (Service.ofSchema boxSchema).NamesFit) := by
  obtain ⟨p, hp⟩ := boxSchema_package
  exact ⟨documentsLegally_boxSchema, p, hp, Schema.legal_package_iff hp documentsLegally_boxSchema⟩

/-! ## A clash -/

open Schema in
/-- A service that lists things.  Its lists are paged, and one of the inputs is
called like the settings of a paginator. -/
def pagedSchema : Schema where
  serviceName := "things"
  className := "Things"
  model :=
    { operations :=
        { entries := [("ListThings", { input := some ⟨"ListRequest", none⟩ })] }
      shapes :=
        { entries :=
            [("ListRequest",
                { kind := .record,
                  members := { entries := [("PaginationConfig", ⟨"Text", none⟩)] } }),
              ("Text", { kind := .string })] } }
  paginators := { entries := [("ListThings", { inputToken := .single "Token" })] }

/-- **A paginator takes two arguments of one name**: an input, and its own settings. -/
theorem pagedSchema_takes_twice :
    pagedSchema.validate = .ok () ∧ ∃ p, pagedSchema.package.1 = .ok p ∧
      ∃ c ∈ p.classes, ∃ f ∈ c.methods,
        f.parameterNames = ["PaginationConfig", "PaginationConfig"] ∧
          ¬ LegalNames f.parameterNames := by
  have hcheck : pagedSchema.package.1.toOption.any fun p => p.classes.any fun c =>
      c.methods.any fun f => f.parameterNames = ["PaginationConfig", "PaginationConfig"] := by
    decide +kernel
  obtain ⟨p, hp, hchecked⟩ := exists_of_any hcheck
  simp only [List.any_eq_true, decide_eq_true_eq] at hchecked
  obtain ⟨c, hc, f, hf, hnames⟩ := hchecked
  exact ⟨by decide +kernel, p, hp, c, hc, f, hf, hnames, hnames ▸ by decide⟩

end ServiceStubs
