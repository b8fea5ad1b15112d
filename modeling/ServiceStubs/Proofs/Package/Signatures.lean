import ServiceStubs.Proofs.Package.Calls
import ServiceStubs.Proofs.Package.Contents
import ServiceStubs.Proofs.Session.Signatures

/-!
# The signatures of a package

Every method of a package takes the instance first, and then its arguments in the
order that the language asks for: those that must be given come before the others,
and the mark after which arguments must be given by name stands right after the
instance and before something.  Documentation is read after the schema, and keeps
the order whatever it says.  There is one proviso.  The instance is known by its
name, so the schema must not give this name to an argument.

## Main definitions

* `Service.parameters` — the names that a schema gives to arguments.
* `Service.MethodNames` — the names of the arguments of one method.
* `Schema.wellOrdered_package` — the signatures of a package.
-/

namespace ServiceStubs

namespace Service

variable {svc : Service} {f : FunctionStub} {names : List String} {n : String}

/-! ## Names from the schema -/

/-- The names that the schema gives to arguments: the inputs of operations, and the
identifiers that relations leave open. -/
def parameters (svc : Service) : List String :=
  svc.model.operations.values.flatMap (svc.inputNames · [])
    ++ svc.owners.flatMap fun owner => owner.has.values.flatMap (·.resource.openNames)

variable (svc) in
/-- The names of what a method of the schema takes: inputs of an operation, perhaps
with the settings of a paginator or waiter; identifiers; a number; or nothing. -/
inductive MethodNames : List String → Prop
  | nothing : MethodNames []
  | counted : MethodNames ["count"]
  | inputs {name o} (ho : svc.operation name = .ok o) (exclude : List String) :
      MethodNames (svc.inputNames o exclude)
  | paging {name rule o} (hrule : svc.schema.paginator name = .ok rule)
      (ho : svc.operation name = .ok o) :
      MethodNames (svc.inputNames o (pagingInputs rule) ++ ["PaginationConfig"])
  | waiting {name rule o} (hrule : svc.schema.waiter name = .ok rule)
      (ho : svc.operation rule.operation = .ok o) (exclude : List String) :
      MethodNames (svc.inputNames o exclude ++ ["WaiterConfig"])
  | relation {owner r} (howner : owner ∈ svc.owners) (hr : r ∈ owner.has.values) :
      MethodNames r.resource.openNames

theorem RequestNames.methodNames (h : svc.RequestNames names) : svc.MethodNames names := by
  cases h with
  | nothing => exact .nothing
  | inputs ho => exact .inputs ho _

/-- **A method that the schema describes takes arguments of such names.** -/
theorem SchemaMethod.exists_takes (h : svc.SchemaMethod f) :
    ∃ names, svc.MethodNames names ∧ f.Takes names := by
  cases h with
  | operation h =>
      obtain ⟨o, ho, htakes⟩ := takes_clientMethod h
      exact ⟨_, .inputs ho [], htakes⟩
  | paginate h =>
      obtain ⟨rule, o, hrule, ho, htakes⟩ := takes_paginateMethod h
      exact ⟨_, .paging hrule ho, htakes⟩
  | wait h =>
      obtain ⟨rule, o, hrule, ho, htakes⟩ := takes_waitMethod h
      exact ⟨_, .waiting hrule ho [], htakes⟩
  | action _ h =>
      obtain ⟨names, hnames, htakes⟩ := takes_actionMethod h
      exact ⟨names, hnames.methodNames, htakes⟩
  | relation howner hr h =>
      exact ⟨_, .relation howner (List.mem_map.mpr ⟨_, hr, rfl⟩), takes_relationMethod h⟩
  | resourceWait h =>
      obtain ⟨rule, o, hrule, ho, htakes⟩ := takes_resourceWaitMethod h
      exact ⟨_, .waiting hrule ho _, htakes⟩
  | filter h =>
      obtain ⟨names, hnames, htakes⟩ := takes_filterMethod h
      exact ⟨names, hnames.methodNames, htakes⟩
  | batch h =>
      obtain ⟨names, hnames, htakes⟩ := takes_batchMethod h
      exact ⟨names, hnames.methodNames, htakes⟩
  | plain => exact ⟨[], .nothing, .nothing⟩
  | counted =>
      exact ⟨["count"], .counted, .byPlace (.of_required (by simp [Argument.needed]) (by
        simp [Argument.needed, Argument.isRequired])) (.refl _)⟩

/-- An input of an operation is a parameter. -/
theorem mem_parameters_of_input {name : String} {o : Schema.Operation} {exclude : List String}
    (ho : svc.operation name = .ok o) (hn : n ∈ svc.inputNames o exclude) : n ∈ svc.parameters := by
  have hvalue : o ∈ svc.model.operations.values :=
    OrderedMap.mem_values_of_get? (OrderedMap.lookup_eq_ok_iff.mp ho)
  exact List.mem_append_left _ (List.mem_flatMap.mpr ⟨o, hvalue, (mem_inputNames_iff.mp hn).1⟩)

/-- All such names are those of parameters, but for a few fixed ones. -/
theorem MethodNames.mem (h : svc.MethodNames names) (hn : n ∈ names) :
    n ∈ svc.parameters ∨ n ∈ ["count", "PaginationConfig", "WaiterConfig"] := by
  cases h with
  | nothing => nomatch hn
  | counted => exact .inr (by simp [List.mem_singleton.mp hn])
  | inputs ho exclude => exact .inl (mem_parameters_of_input ho hn)
  | paging hrule ho =>
      rcases List.mem_append.mp hn with hn | hn
      · exact .inl (mem_parameters_of_input ho hn)
      · exact .inr (by simp [List.mem_singleton.mp hn])
  | waiting hrule ho exclude =>
      rcases List.mem_append.mp hn with hn | hn
      · exact .inl (mem_parameters_of_input ho hn)
      · exact .inr (by simp [List.mem_singleton.mp hn])
  | relation howner hr =>
      refine .inl (List.mem_append_right _ (List.mem_flatMap.mpr ⟨_, howner, ?_⟩))
      exact List.mem_flatMap.mpr ⟨_, hr, hn⟩

theorem MethodNames.self_not_mem (h : svc.MethodNames names) (hself : "self" ∉ svc.parameters) :
    "self" ∉ names := by
  intro hmem
  rcases h.mem hmem with hn | hn
  · exact hself hn
  · exact absurd hn (by decide)

/-! ## Documented methods -/

/-- A method that is documented is the method itself, or the method completed by a
text. -/
theorem document_cases (docs : EntityDocs) (f : FunctionStub) :
    docs.document f = f ∨ ∃ text info, docs.schema.documentationOf docs.entity f.name = some text ∧
      docs.read text = .ok info ∧ docs.document f = info.complete f := by
  unfold EntityDocs.document
  split
  · exact .inl rfl
  · next text htext =>
      split
      · next info hinfo => exact .inr ⟨text, info, htext, hinfo, rfl⟩
      · exact .inl rfl

/-- **Every documentation keeps the order of a signature.** -/
theorem wellOrdered_document (docs : EntityDocs) (h : f.Takes names) (hself : "self" ∉ names) :
    (docs.document f).WellOrdered := by
  rcases document_cases docs f with hsame | ⟨text, info, -, -, hcomplete⟩
  · rw [hsame]
    exact h.wellOrdered
  · rw [hcomplete]
    exact (h.complete hself info).wellOrdered

/-- A text describes a method in order, or one that takes anything. -/
theorem wellOrdered_ofText (docs : EntityDocs) (name text : String) :
    (docs.ofText name text).WellOrdered := by
  unfold EntityDocs.ofText
  split
  · next info _ => exact (FunctionStub.takes_ofInfo info name).wellOrdered
  · exact FunctionStub.wellOrdered_undescribed name

theorem wellOrdered_fallback {docs : EntityDocs} {name : String}
    (h : docs.fallback? name = some f) : f.WellOrdered := by
  unfold EntityDocs.fallback? at h
  split at h
  · next text _ =>
      obtain rfl := Option.some.inj h
      exact wellOrdered_ofText docs name text
  · obtain ⟨info, -, rfl⟩ := Option.map_eq_some_iff.mp h
    exact (FunctionStub.takes_ofInfo info name).wellOrdered

theorem takes_accessor (method name className module : String) :
    (accessor method name className module).Takes ["operation_name"] := by
  refine ⟨[.needed "operation_name" (.literal [Text.snakeCase name])], ?_, .refl _, .inl rfl⟩
  exact .of_required (by simp [Argument.needed]) (by simp [Argument.needed, Argument.isRequired])

theorem PackageMethod.wellOrdered (h : svc.PackageMethod f) (hself : "self" ∉ svc.parameters) :
    f.WellOrdered := by
  cases h with
  | described entity hf =>
      obtain ⟨names, hnames, htakes⟩ := hf.exists_takes
      exact wellOrdered_document _ htakes (hnames.self_not_mem hself)
  | fallback hf => exact wellOrdered_fallback hf
  | accessor method name className module =>
      exact (takes_accessor method name className module).wellOrdered
  | further hentry => exact wellOrdered_ofText _ _ _

end Service

/-- **Every method of every class of a package has a signature in order**, whatever its
documentation says, if the schema calls no input and no open identifier like the
instance. -/
theorem Schema.wellOrdered_package {sch : Schema} {p : PackageStub} (hp : sch.package.1 = .ok p)
    (hself : "self" ∉ (Service.ofSchema sch).parameters) :
    ∀ c ∈ p.classes, ∀ f ∈ c.methods, f.WellOrdered := by
  intro c hc f hf
  have hgives : (Service.ofSchema sch).package.Gives p := ⟨{}, hp⟩
  exact (Service.packageMethod_of_mem hgives hc hf).wellOrdered hself

/-- The service of boxes has a package whose methods are in order. -/
theorem boxSchema_wellOrdered :
    "self" ∉ (Service.ofSchema boxSchema).parameters ∧
      ∃ p, boxSchema.package.1 = .ok p ∧ ∀ c ∈ p.classes, ∀ f ∈ c.methods, f.WellOrdered := by
  have hself : "self" ∉ (Service.ofSchema boxSchema).parameters := by decide +kernel
  obtain ⟨p, hp⟩ := boxSchema_package
  exact ⟨hself, p, hp, boxSchema.wellOrdered_package hp hself⟩

end ServiceStubs
