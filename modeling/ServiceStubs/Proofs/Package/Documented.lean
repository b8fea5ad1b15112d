import ServiceStubs.Proofs.Package.Members

/-!
# Every documented method is there

Documentation enters a class in three ways: it completes a method that the schema
describes, it describes one that every class of a kind has, and it makes the methods that
are not there in either way.  The last way looks at the names of all methods before it,
so no text is used for two methods, and none is lost: a class has a method for each of
its texts.

## Main definitions

* `EntityDocs.Completes`, `EntityDocs.Makes` — what a text makes of a method of the
  schema, and what it makes by itself.
* `EntityDocs.Accounts` — the methods of a class are those of the schema, those that
  every class of its kind has, and those that are documented.
* `Service.Origin` — which methods the schema describes for a class.
* `Schema.accounts_package` — the classes of a package.
-/

namespace ServiceStubs

open Text (snakeCase)
open Service (documented commonMethods)

namespace EntityDocs

variable {d : EntityDocs} {f g : FunctionStub} {m text : String}
  {described accessors methods : List FunctionStub} {common : List String}

/-! ## What texts make -/

variable (d) in
/-- The text for a method of the entity. -/
def text? (m : String) : Option String :=
  d.schema.documentation.get? (d.entity ++ "." ++ m)

variable (d) in
/-- The method `f` is the method `g` of the schema, completed by its text if there is one
that can be used, and otherwise as it was. -/
structure Completes (g f : FunctionStub) : Prop where
  name : f.name = g.name
  undocumented : d.text? g.name = none → f = g
  unusable : ∀ text e, d.text? g.name = some text → d.read text = .error e → f = g
  usable : ∀ text info, d.text? g.name = some text → d.read text = .ok info → f = info.complete g

variable (d) in
/-- The text makes the method: what it describes if it can be used, and otherwise one that
takes and returns anything. -/
structure Makes (m text : String) (f : FunctionStub) : Prop where
  usable : ∀ info, d.read text = .ok info → f = info.method m
  unusable : ∀ e, d.read text = .error e → f = .method m [.variadic .any, .keywords .any] .any

variable (d) in
/-- The methods account for the documentation of the entity, given those that the schema
describes, the names of those that every entity of the kind has, and the signatures that
yield other entities: first come those of the schema, every text has a method, a name that
is not there otherwise has one, which the text makes, and there are no others. -/
structure Accounts (described : List FunctionStub) (common : List String)
    (accessors methods : List FunctionStub) : Prop where
  completed : ∃ front rest, methods = front ++ rest ∧ List.Forall₂ d.Completes described front
  complete : ∀ m text, d.text? m = some text → ∃ f ∈ methods, f.name = m
  single : ∀ m text, d.text? m = some text → m ∉ described.map (·.name) → m ∉ common →
    m ∉ accessors.map (·.name) → ∃ f, methods.filter (·.name = m) = [f] ∧ d.Makes m text f
  sound : ∀ f ∈ methods, (∃ g ∈ described, d.Completes g f) ∨
    (f.name ∈ common ∧ ∀ text, d.text? f.name = some text → d.Makes f.name text f) ∨
    f ∈ accessors ∨ ∃ text, d.text? f.name = some text ∧ d.Makes f.name text f

theorem completes_document (g : FunctionStub) : d.Completes g (d.document g) := by
  have htext : d.schema.documentationOf d.entity g.name = d.text? g.name := rfl
  refine ⟨?_, fun hnone => ?_, fun text e hsome he => ?_, fun text info hsome hinfo => ?_⟩
  · rcases Service.document_cases d g with hsame | ⟨text, info, -, -, hcomplete⟩
    · rw [hsame]
    · rw [hcomplete]
      rfl
  · simp only [document, htext, hnone]
  · simp only [document, htext, hsome, he]
  · simp only [document, htext, hsome, hinfo]

theorem makes_ofText (m text : String) : d.Makes m text (d.ofText m text) := by
  refine ⟨fun info hinfo => ?_, fun e he => ?_⟩
  · simp only [ofText, hinfo]
  · simp only [ofText, he, Documentation.undescribed]

/-- A method that every entity of a kind has is made by its text, if it has one. -/
theorem makes_of_fallback (h : d.fallback? m = some f) :
    f.name = m ∧ ∀ text, d.text? m = some text → d.Makes m text f := by
  have htext : d.schema.documentationOf d.entity m = d.text? m := rfl
  unfold fallback? at h
  rw [htext] at h
  cases hcase : d.text? m with
  | some text =>
      rw [hcase] at h
      obtain rfl := Option.some.inj h
      refine ⟨(d.named_ofText m text).name, ?_⟩
      rintro _ ⟨⟩
      exact makes_ofText m text
  | none =>
      rw [hcase] at h
      obtain ⟨info, -, rfl⟩ := Option.map_eq_some_iff.mp h
      exact ⟨rfl, nofun⟩

/-! ## All texts of an entity -/

/-- The documented methods are those that have a text. -/
theorem mem_entries_iff : (m, text) ∈ d.entries ↔ d.text? m = some text := by
  rw [text?, OrderedMap.get?_eq_some_iff, entries, List.mem_filterMap]
  constructor
  · rintro ⟨⟨key, text'⟩, hentry, hkey⟩
    obtain ⟨name, hname, heq⟩ := Option.map_eq_some_iff.mp hkey
    rw [List.isPrefixOf?_eq_some_iff_append_eq] at hname
    obtain ⟨rfl, rfl⟩ := Prod.mk.inj heq
    have hkey : d.entity ++ "." ++ String.ofList name = key := by
      rw [← String.toList_inj, String.toList_append, String.toList_ofList, hname]
    rwa [hkey]
  · intro hentry
    refine ⟨_, hentry, Option.map_eq_some_iff.mpr ⟨m.toList, ?_, by simp⟩⟩
    rw [List.isPrefixOf?_eq_some_iff_append_eq]
    simp

/-- In a list without repeated names there is one entry of each name. -/
theorem filter_eq_singleton {l : List (String × String)} (h : (l.map Prod.fst).Nodup)
    {e : String × String} (he : e ∈ l) : l.filter (·.1 = e.1) = [e] := by
  obtain ⟨front, back, rfl⟩ := List.append_of_mem he
  simp only [List.map_append, List.map_cons, List.nodup_append', List.nodup_cons] at h
  obtain ⟨-, ⟨hback, -⟩, hdisjoint⟩ := h
  have hfront : front.filter (·.1 = e.1) = [] := by
    rw [List.filter_eq_nil_iff]
    intro x hx heq
    rw [decide_eq_true_eq] at heq
    exact hdisjoint (List.mem_map_of_mem hx) (heq ▸ List.mem_cons_self)
  have hback : back.filter (·.1 = e.1) = [] := by
    rw [List.filter_eq_nil_iff]
    intro x hx heq
    rw [decide_eq_true_eq] at heq
    exact hback (heq ▸ List.mem_map_of_mem hx)
  rw [List.filter_append, hfront, List.filter_cons_of_pos (by simp), hback, List.nil_append]

/-- What else is documented has one method of each name that is not there. -/
theorem filter_further (htext : d.text? m = some text) (hm : m ∉ methods.map (·.name)) :
    (d.further methods).filter (·.name = m) = [d.ofText m text] := by
  have hname : ∀ e : String × String, (d.ofText e.1 e.2).name = e.1 := fun e =>
    (d.named_ofText e.1 e.2).name
  have hentry : (m, text) ∈ d.entries.filter fun e => methods.all (·.name ≠ e.1) := by
    rw [List.mem_filter]
    refine ⟨mem_entries_iff.mpr htext, List.all_eq_true.mpr fun f hf => ?_⟩
    exact decide_eq_true fun heq : f.name = m => hm (heq ▸ List.mem_map_of_mem hf)
  have hnodup := d.nodup_entries.sublist
    (List.filter_sublist.map Prod.fst : ((d.entries.filter fun e =>
      methods.all (·.name ≠ e.1)).map Prod.fst).Sublist _)
  rw [further, List.filter_map]
  simp only [Function.comp_def, hname]
  rw [filter_eq_singleton hnodup hentry]
  rfl

/-! ## The three ways -/

variable (d) in
/-- The methods that are there before it is looked what else is documented. -/
def present (described : List FunctionStub) (common : List String)
    (accessors : List FunctionStub) : List FunctionStub :=
  described.map d.document ++ common.filterMap d.fallback? ++ accessors

theorem cases_of_mem_present (hf : f ∈ d.present described common accessors) :
    (∃ g ∈ described, d.Completes g f) ∨
      (f.name ∈ common ∧ ∀ text, d.text? f.name = some text → d.Makes f.name text f) ∨
      f ∈ accessors := by
  simp only [present, List.mem_append] at hf
  rcases hf with (hf | hf) | hf
  · obtain ⟨g, hg, rfl⟩ := List.mem_map.mp hf
    exact .inl ⟨g, hg, completes_document g⟩
  · obtain ⟨n, hn, hfallback⟩ := List.mem_filterMap.mp hf
    obtain ⟨rfl, hmakes⟩ := makes_of_fallback hfallback
    exact .inr (.inl ⟨hn, hmakes⟩)
  · exact .inr (.inr hf)

theorem notMem_names_present (hdescribed : m ∉ described.map (·.name)) (hcommon : m ∉ common)
    (haccessors : m ∉ accessors.map (·.name)) :
    m ∉ (d.present described common accessors).map (·.name) := by
  intro hmem
  obtain ⟨f, hf, rfl⟩ := List.mem_map.mp hmem
  rcases cases_of_mem_present hf with ⟨g, hg, hcompletes⟩ | ⟨hname, -⟩ | hf
  · exact hdescribed (hcompletes.name ▸ List.mem_map_of_mem hg)
  · exact hcommon hname
  · exact haccessors (List.mem_map_of_mem hf)

/-- A name with a text is there, or what else is documented has it. -/
theorem exists_named (htext : d.text? m = some text) :
    ∃ f ∈ methods ++ d.further methods, f.name = m := by
  by_cases hm : m ∈ methods.map (·.name)
  · obtain ⟨f, hf, hname⟩ := List.mem_map.mp hm
    exact ⟨f, List.mem_append_left _ hf, hname⟩
  · have hmem : d.ofText m text ∈ (d.further methods).filter (·.name = m) := by
      rw [filter_further htext hm]
      exact List.mem_singleton_self _
    exact ⟨_, List.mem_append_right _ (List.mem_of_mem_filter hmem), (d.named_ofText m text).name⟩

/-- A name that is not there has one method. -/
theorem filter_append_further (htext : d.text? m = some text) (hm : m ∉ methods.map (·.name)) :
    (methods ++ d.further methods).filter (·.name = m) = [d.ofText m text] := by
  have hnone : methods.filter (·.name = m) = [] := by
    rw [List.filter_eq_nil_iff]
    intro f hf heq
    exact hm (of_decide_eq_true heq ▸ List.mem_map_of_mem hf)
  rw [List.filter_append, hnone, filter_further htext hm, List.nil_append]

theorem makes_of_mem_further (hf : f ∈ d.further methods) :
    ∃ text, d.text? f.name = some text ∧ d.Makes f.name text f := by
  obtain ⟨⟨m, text⟩, hentry, rfl⟩ := List.mem_map.mp hf
  have hname : (d.ofText m text).name = m := (d.named_ofText m text).name
  refine ⟨text, ?_, ?_⟩
  · rw [hname]
    exact mem_entries_iff.mp (List.mem_of_mem_filter hentry)
  · rw [hname]
    exact makes_ofText m text

/-- **The three ways account for all texts.** -/
theorem accounts_further (d : EntityDocs) (described : List FunctionStub) (common : List String)
    (accessors : List FunctionStub) :
    d.Accounts described common accessors
      (d.present described common accessors ++ d.further (d.present described common accessors)) where
  completed := by
    refine ⟨described.map d.document, common.filterMap d.fallback? ++ accessors
      ++ d.further (d.present described common accessors), ?_, ?_⟩
    · simp only [present, List.append_assoc]
    · rw [List.forall₂_map_right_iff, List.forall₂_same]
      exact fun g _ => completes_document g
  complete m text htext := exists_named htext
  single m text htext hdescribed hcommon haccessors :=
    ⟨_, filter_append_further htext (notMem_names_present hdescribed hcommon haccessors),
      makes_ofText m text⟩
  sound f hf := by
    rcases List.mem_append.mp hf with hf | hf
    · rcases cases_of_mem_present hf with hf | hf | hf
      · exact .inl hf
      · exact .inr (.inl hf)
      · exact .inr (.inr (.inl hf))
    · exact .inr (.inr (.inr (makes_of_mem_further hf)))

end EntityDocs

/-! ## The classes of a package -/

/-- The client, the service resource and the other resources. -/
def PackageStub.entityClasses (p : PackageStub) : List ClassStub :=
  p.client.decl :: p.serviceResource.toList.flatMap fun made =>
    made.decl :: made.resources.map (·.decl)

namespace Service

variable {svc : Service} {p : PackageStub} {c : ClassStub}

/-- Their names. -/
def entityNames (svc : Service) : List String :=
  svc.serviceName.clientName :: svc.schema.resources.toList.flatMap fun _ =>
    svc.serviceName.serviceResourceName :: svc.resourceNames

/-- The signatures that yield paginators and waiters. -/
def accessors (svc : Service) : List FunctionStub :=
  (svc.schema.paginators.keys.map fun name =>
    accessor "get_paginator" name (name ++ "Paginator") paginatorModule)
    ++ svc.schema.waiters.keys.map fun name =>
      accessor "get_waiter" name (name ++ "Waiter") waiterModule

variable (svc p) in
/-- The methods that the schema describes for a class of the package, the names of those
that every such class has, and the signatures that yield other entities. -/
inductive Origin : ClassStub → (described : List FunctionStub) → (common : List String) →
    (accessors : List FunctionStub) → Prop
  | client {operations}
      (h : List.Forall₂ (fun name f => (svc.clientMethod name).Gives f)
        svc.model.operations.keys operations) :
      Origin p.client.decl operations commonClientMethods svc.accessors
  | service {made resources own} (hmade : made ∈ p.serviceResource)
      (hresources : svc.schema.resources = some resources)
      (hown : (svc.ownMethods resources.service).Gives own) :
      Origin made.decl own [subresourcesMethod] []
  | resource {made r model own waits} (hmade : made ∈ p.serviceResource)
      (hr : r ∈ made.resources) (hmodel : svc.schema.resource r.decl.name = .ok model)
      (hown : (svc.ownMethods model).Gives own)
      (hwaits : List.Forall₂ (fun entry f => (svc.resourceWaitMethod entry.1 entry.2).Gives f)
        model.waiters.entries waits) :
      Origin r.decl (own ++ waits) (commonMethods model) []

/-- The methods of a resource account for its documentation. -/
theorem accounts_documented (docs : EntityDocs) (described : List FunctionStub)
    (common : List String) : docs.Accounts described common [] (documented docs described common) := by
  have h := docs.accounts_further described common []
  rwa [EntityDocs.present, List.append_nil] at h

theorem name_client {client : ClientStub} (h : svc.client.Gives client) :
    client.decl.name = svc.serviceName.clientName := by
  obtain ⟨_, _, _, -, -, -, hdecl⟩ := parts_client h
  rw [hdecl]
  rfl

theorem name_resource {name : String} {r : ResourceStub} (h : (svc.resource name).Gives r) :
    r.decl.name = name := by
  obtain ⟨_, _, _, _, -, -, -, -, -, hdecl⟩ := parts_resource h
  rw [hdecl]
  rfl

theorem name_serviceResourceOf {service : Schema.ResourceModel} {made : ServiceResourceStub}
    (h : (svc.serviceResourceOf service).Gives made) :
    made.decl.name = svc.serviceName.serviceResourceName := by
  obtain ⟨_, -, -, -, hdecl⟩ := parts_serviceResourceOf h
  rw [hdecl]
  rfl

theorem accounts_client (h : svc.client.Gives p.client) :
    ∃ described common accessors, svc.Origin p p.client.decl described common accessors ∧
      (svc.docs p.client.decl.name).Accounts described common accessors p.client.decl.methods := by
  obtain ⟨operations, paginators, waiters, hoperations, hpaginators, hwaiters, hdecl⟩ :=
    parts_client h
  obtain rfl := eq_paginatorAccessors hpaginators
  obtain rfl := eq_waiterAccessors hwaiters
  refine ⟨operations, commonClientMethods, svc.accessors, .client hoperations.of_mapM, ?_⟩
  have haccounts := (svc.docs svc.serviceName.clientName).accounts_further operations
    commonClientMethods svc.accessors
  rw [name_client h, hdecl]
  simpa only [EntityDocs.present, accessors, List.append_assoc] using haccounts

theorem accounts_resource {name : String} {made : ServiceResourceStub} {r : ResourceStub}
    (hmade : made ∈ p.serviceResource) (hr : r ∈ made.resources)
    (h : (svc.resource name).Gives r) :
    ∃ described common accessors, svc.Origin p r.decl described common accessors ∧
      (svc.docs r.decl.name).Accounts described common accessors r.decl.methods := by
  obtain ⟨model, attributes, own, waits, hmodel, -, hown, hwaits, -, hdecl⟩ := parts_resource h
  have hname := name_resource h
  refine ⟨own ++ waits, commonMethods model, [],
    .resource hmade hr (hname ▸ hmodel) hown hwaits, ?_⟩
  rw [hname, hdecl]
  exact accounts_documented _ _ _

/-- There is a service resource just when the schema has resources. -/
theorem serviceResource_cases {made : Option ServiceResourceStub}
    (h : svc.serviceResource.Gives made) :
    (svc.schema.resources = none ∧ made = none) ∨
      ∃ resources r, svc.schema.resources = some resources ∧ made = some r ∧
        (svc.serviceResourceOf resources.service).Gives r := by
  unfold serviceResource at h
  cases hresources : svc.schema.resources with
  | none =>
      rw [hresources] at h
      exact .inl ⟨rfl, h.of_pure.symm⟩
  | some resources =>
      rw [hresources] at h
      obtain ⟨r, hr, h⟩ := h.of_bind
      exact .inr ⟨resources, r, rfl, h.of_pure.symm, hr⟩

theorem accounts_serviceResource {resources : Schema.Resources} {made : ServiceResourceStub}
    (hmade : made ∈ p.serviceResource) (hresources : svc.schema.resources = some resources)
    (h : (svc.serviceResourceOf resources.service).Gives made) :
    ∃ described common accessors, svc.Origin p made.decl described common accessors ∧
      (svc.docs made.decl.name).Accounts described common accessors made.decl.methods := by
  obtain ⟨own, hown, -, -, hdecl⟩ := parts_serviceResourceOf h
  refine ⟨own, [subresourcesMethod], [], .service hmade hresources hown, ?_⟩
  rw [hdecl]
  exact accounts_documented _ _ _

theorem names_entityClasses (h : svc.package.Gives p) :
    p.entityClasses.map (·.name) = svc.entityNames := by
  obtain ⟨hclient, hresource, -, -⟩ := entities_package h
  rw [PackageStub.entityClasses, List.map_cons, name_client hclient, entityNames]
  rcases serviceResource_cases hresource with
    ⟨hresources, hmade⟩ | ⟨resources, made, hresources, hmade, hgives⟩
  · rw [hresources, hmade]
    rfl
  · obtain ⟨-, -, -, hothers, -⟩ := parts_serviceResourceOf hgives
    have hnames : made.resources.map (·.decl.name) = svc.resourceNames := by
      rw [← List.map_id svc.resourceNames]
      exact map_eq_of_forall₂ (hothers.imp fun _ _ => name_resource)
    rw [hresources, hmade]
    simp [name_serviceResourceOf hgives, ← hnames, Function.comp_def]

end Service

/-- **Every class of a package accounts for its documentation**: the client, the service
resource and the other resources. -/
theorem Schema.accounts_package {sch : Schema} {p : PackageStub} (hp : sch.package.1 = .ok p) :
    p.entityClasses.map (·.name) = (Service.ofSchema sch).entityNames ∧
    ∀ c ∈ p.entityClasses, ∃ described common accessors,
      (Service.ofSchema sch).Origin p c described common accessors ∧
      (EntityDocs.mk sch c.name).Accounts described common accessors c.methods := by
  have hgives : (Service.ofSchema sch).package.Gives p := ⟨{}, hp⟩
  refine ⟨Service.names_entityClasses hgives, fun c hc => ?_⟩
  obtain ⟨hclient, hresource, -, -⟩ := Service.entities_package hgives
  simp only [PackageStub.entityClasses, List.mem_cons, List.mem_flatMap, Option.mem_toList,
    List.mem_map] at hc
  rcases hc with rfl | ⟨made, hmade, hc⟩
  · exact Service.accounts_client hclient
  · obtain ⟨resources, hresources, hservice⟩ :=
      Service.exists_resources_of_gives hresource made hmade
    rcases hc with rfl | ⟨r, hr, rfl⟩
    · exact Service.accounts_serviceResource hmade hresources hservice
    · obtain ⟨-, -, -, hothers, -⟩ := Service.parts_serviceResourceOf hservice
      obtain ⟨name, -, hname⟩ := exists_of_mem_forall₂ hothers hr
      exact Service.accounts_resource hmade hr hname

/-- A service of boxes with texts for methods of the schema and for others, some of which
cannot be used. -/
def notedSchema : Schema where
  __ := boxSchema
  documentation :=
    { entries :=
        [("StoreClient.open", ":param key: The key.\n:type key: string"),
          ("StoreClient.close", "Closes the store."),
          ("Box.delete", ":type key: integer"),
          ("Box.shut", ":type key: integer"),
          ("Box.load", "Loads the box.")] }

/-- The methods of the classes for boxes account for their texts. -/
theorem notedSchema_accounts :
    ∃ p, notedSchema.package.1 = .ok p ∧
      (p.entityClasses.map fun c => c.methods.map (·.name)) =
        [["list_boxes", "delete_box", "can_paginate", "close", "generate_presigned_url",
            "get_paginator", "get_waiter", "open"],
          ["get_available_subresources"],
          ["delete", "wait_until_gone", "get_available_subresources", "shut", "load"]] ∧
      ∀ c ∈ p.entityClasses, ∃ described common accessors,
        (Service.ofSchema notedSchema).Origin p c described common accessors ∧
        (EntityDocs.mk notedSchema c.name).Accounts described common accessors c.methods := by
  have hcheck : notedSchema.package.1.toOption.any fun p =>
      (p.entityClasses.map fun c => c.methods.map (·.name)) =
        [["list_boxes", "delete_box", "can_paginate", "close", "generate_presigned_url",
            "get_paginator", "get_waiter", "open"],
          ["get_available_subresources"],
          ["delete", "wait_until_gone", "get_available_subresources", "shut", "load"]] := by
    decide +kernel
  obtain ⟨p, hp, hnames⟩ := exists_of_any hcheck
  exact ⟨p, hp, of_decide_eq_true hnames, (Schema.accounts_package hp).2⟩

end ServiceStubs
