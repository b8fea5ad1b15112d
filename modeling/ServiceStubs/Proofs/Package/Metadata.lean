import ServiceStubs.Proofs.Package.HandedOut

/-!
# What responses say about themselves

What an operation returns gets a field for what every response says about itself.
A dictionary is shared by all who refer to its shape, so the field stands in it
wherever a package uses it: in an argument, in an attribute or in another
dictionary.  It stands in no dictionary besides those that operations return and
those whose shape has such a member.

## Main definitions

* `Plan.Only` — a plan takes the results of certain operations only.
* `Service.IsOutput` — an operation returns a dictionary.
* `Service.taken_package_iff` — a package takes the results of all operations.
* `Schema.metadata_package` — the dictionaries of a package that have the field.
-/

namespace ServiceStubs

/-! ## Plans and their operations -/

namespace Plan

variable {α : Type} {P : Schema.Operation → Prop} {p q : Plan}

/-- The plan takes the results of operations with `P` only. -/
def Only (P : Schema.Operation → Prop) (p : Plan) : Prop :=
  ∀ o ∈ p.returned, P o

theorem only_done : Only P done := nofun

theorem only_failed : Only P failed := nofun

theorem only_take {o : Schema.Operation} (h : P o) : Only P (take o) :=
  fun _ ho => List.mem_singleton.mp ho ▸ h

theorem Only.andThen (hp : p.Only P) (hq : q.Only P) : (p.andThen q).Only P := by
  intro o ho
  unfold Plan.andThen at ho
  split at ho
  · exact (List.mem_append.mp ho).elim (hp o) (hq o)
  · exact hp o ho

theorem only_lookup {r : Except Error α} {f : α → Plan} (h : ∀ a, r = .ok a → (f a).Only P) :
    (lookup r f).Only P := by
  cases r with
  | ok a => exact h a rfl
  | error e => exact only_failed

theorem only_forAll {as : List α} {f : α → Plan} (h : ∀ a, (f a).Only P) :
    (forAll as f).Only P := by
  induction as with
  | nil => exact only_done
  | cons a as ih => exact (h a).andThen ih

/-- A plan that goes on takes what it has taken before. -/
theorem subset_returned_andThen (p q : Plan) : p.returned ⊆ (p.andThen q).returned := by
  unfold Plan.andThen
  split
  · exact List.subset_append_left _ _
  · exact List.Subset.refl _

/-- A plan that succeeds takes what each of its parts takes. -/
theorem subset_returned_forAll {as : List α} {f : α → Plan} (h : (forAll as f).succeeds)
    {a : α} (ha : a ∈ as) : (f a).returned ⊆ (forAll as f).returned := by
  induction as with
  | nil => nomatch ha
  | cons b as ih =>
      have hcons : forAll (b :: as) f = (f b).andThen (forAll as f) := rfl
      rw [hcons, succeeds_andThen, Bool.and_eq_true] at h
      rcases List.mem_cons.mp ha with rfl | ha
      · exact subset_returned_andThen _ _
      · rw [hcons, Plan.andThen, if_pos h.1]
        exact List.subset_append_of_subset_right _ (ih h.2 ha)

end Plan

namespace Service

variable (svc : Service)

/-! ## The operations of a package -/

/-- The operation is declared. -/
def IsOperation (o : Schema.Operation) : Prop :=
  ∃ name, svc.operation name = .ok o

theorem only_take_operation (name : String) :
    (Plan.lookup (svc.operation name) .take).Only svc.IsOperation :=
  Plan.only_lookup fun _ ho => Plan.only_take ⟨name, ho⟩

theorem only_paginateMethodPlan (name : String) :
    (svc.paginateMethodPlan name).Only svc.IsOperation :=
  Plan.only_lookup fun _ _ => svc.only_take_operation name

theorem only_waitMethodPlan (name : String) : (svc.waitMethodPlan name).Only svc.IsOperation :=
  Plan.only_lookup fun _ _ => Plan.only_lookup fun _ _ => Plan.only_done

theorem only_requestPlan (request : Option Schema.Request) (yielded : Option TypeExpr) :
    (svc.requestPlan request yielded).Only svc.IsOperation := by
  unfold requestPlan
  cases request with
  | none => exact Plan.only_done
  | some request =>
      refine Plan.only_lookup fun o ho => ?_
      split
      · exact Plan.only_done
      · exact Plan.only_take ⟨request.operation, ho⟩

theorem only_batchMethodPlan (a : Schema.Action) :
    (svc.batchMethodPlan a).Only svc.IsOperation := by
  unfold batchMethodPlan
  cases a.request with
  | none => exact Plan.only_failed
  | some request => exact svc.only_take_operation request.operation

theorem only_filterMethodPlan (relation : Schema.Action) :
    (svc.filterMethodPlan relation).Only svc.IsOperation := by
  unfold filterMethodPlan
  cases relation.request with
  | none => exact Plan.only_done
  | some request => exact Plan.only_lookup fun _ _ => Plan.only_done

theorem only_collectionsPlan (owner : Schema.ResourceModel) :
    (svc.collectionsPlan owner).Only svc.IsOperation :=
  Plan.only_forAll fun _ => Plan.only_lookup fun relation _ => Plan.only_lookup fun _ _ =>
    (svc.only_filterMethodPlan relation).andThen
      (Plan.only_forAll fun entry => svc.only_batchMethodPlan entry.2)

theorem only_ownMethodsPlan (owner : Schema.ResourceModel) :
    (svc.ownMethodsPlan owner).Only svc.IsOperation := by
  refine .andThen (Plan.only_forAll fun _ => Plan.only_lookup fun a _ => ?_)
    (Plan.only_lookup fun _ _ => Plan.only_done)
  exact Plan.only_lookup fun yielded _ => svc.only_requestPlan a.request yielded

theorem only_resourcePlan (name : String) : (svc.resourcePlan name).Only svc.IsOperation := by
  refine Plan.only_lookup fun model _ => (svc.only_ownMethodsPlan model).andThen (.andThen ?_ ?_)
  · exact Plan.only_forAll fun _ => Plan.only_lookup fun _ _ => Plan.only_lookup fun _ _ =>
      Plan.only_done
  · exact svc.only_collectionsPlan model

theorem only_serviceResourcePlan : svc.serviceResourcePlan.Only svc.IsOperation := by
  unfold serviceResourcePlan
  cases svc.schema.resources with
  | none => exact Plan.only_done
  | some r =>
      exact (svc.only_ownMethodsPlan r.service).andThen
        ((svc.only_collectionsPlan r.service).andThen (Plan.only_forAll svc.only_resourcePlan))

theorem only_clientPlan : svc.clientPlan.Only svc.IsOperation :=
  .andThen (Plan.only_forAll svc.only_take_operation)
    (Plan.only_lookup fun _ _ => Plan.only_lookup fun _ _ => Plan.only_done)

/-- A package takes the results of declared operations only. -/
theorem only_packagePlan : svc.packagePlan.Only svc.IsOperation :=
  svc.only_clientPlan.andThen <| svc.only_serviceResourcePlan.andThen <|
    (Plan.only_forAll svc.only_paginateMethodPlan).andThen
      (Plan.only_forAll fun entry => svc.only_waitMethodPlan entry.1)

variable {svc}

/-- A package that is made takes the results of all operations. -/
theorem mem_returned_packagePlan (hp : svc.packagePlan.succeeds) {o : Schema.Operation}
    (ho : svc.IsOperation o) : o ∈ svc.packagePlan.returned := by
  obtain ⟨name, ho⟩ := ho
  have hname : name ∈ svc.model.operations.keys := OrderedMap.exists_lookup_iff.mp ⟨o, ho⟩
  have hclient : (Plan.forAll svc.model.operations.keys svc.clientMethodPlan).succeeds := by
    simp only [packagePlan, clientPlan, Plan.succeeds_andThen, Bool.and_eq_true] at hp
    exact hp.1.1
  have htake : o ∈ (svc.clientMethodPlan name).returned := by
    simp [clientMethodPlan, ho, Plan.lookup, Plan.take]
  exact Plan.subset_returned_andThen _ _ (Plan.subset_returned_andThen _ _
    (Plan.subset_returned_forAll hclient hname htake))

variable (svc) in
/-- Some operation returns the dictionary of the name `n`. -/
def IsOutput (n : String) : Prop :=
  ∃ o output shape, svc.IsOperation o ∧ o.output = some output ∧
    svc.Describes output.shape shape n

/-- **A package takes just those dictionaries that its operations return.** -/
theorem taken_package_iff {s : Session} {p : PackageStub} (hp : svc.package.outcome s = .ok p)
    {n : String} : svc.Taken [.package] n ↔ svc.IsOutput n := by
  have hsucceeds : svc.packagePlan.succeeds := ((follows_package svc).succeeds s).mp ⟨p, hp⟩
  simp only [Taken, List.mem_singleton, exists_eq_left, callPlan, IsOutput]
  constructor
  · rintro ⟨o, ho, output, shape, houtput, hshape⟩
    exact ⟨o, output, shape, svc.only_packagePlan o ho, houtput, hshape⟩
  · rintro ⟨o, output, shape, ho, houtput, hshape⟩
    exact ⟨o, mem_returned_packagePlan hsucceeds ho, output, shape, houtput, hshape⟩

/-! ## Dictionaries with the field -/

variable {s : Session} {n : String} {d : TypedDict} {r : DictRef}

/-- A complete dictionary has the field of responses exactly when its shape has such
a member or it is returned. -/
theorem Complete.hasField_metadata_iff {returned : Prop} (h : svc.Complete s returned n d) :
    ∃ shapeName shape own extra, svc.Describes shapeName shape n ∧ d.fields = own ++ extra ∧
      own.map (·.name) = shape.members.keys ∧
      (d.hasField metadataField ↔ metadataField ∈ shape.members.keys ∨ returned) := by
  obtain ⟨shapeName, shape, position, own, extra, hshape, -, -, hfields, hown, hextra⟩ := h
  have hnames := map_name_of_fieldsFor hown
  refine ⟨shapeName, shape, own, extra, hshape, hfields, hnames, ?_⟩
  rw [hasField_iff, hfields, List.map_append, List.mem_append, hnames]
  rcases hextra with ⟨⟨hreturned, -⟩, ref, -, rfl⟩ | ⟨hnot, rfl⟩
  · simp [responseField, hreturned]
  · simp only [List.map_nil, List.not_mem_nil, or_false]
    by_cases hmember : metadataField ∈ shape.members.keys
    · simp [hmember]
    · simpa [hmember] using hnot

/-- The dictionaries that the entities of a package reach are some of the session. -/
theorem BuiltPackage.has_of_reachedFrom {p : PackageStub} (h : svc.BuiltPackage s p)
    {returned : String → Prop} (hcons : svc.Consistent returned s)
    (hr : s.store.ReachedFrom p.entityAnnotations (.dict r)) : s.Has r :=
  hcons.has_of_reachedFrom h.covers_entities hr

end Service

/-- **The dictionaries of a package that have the field of responses** are those that
some operation returns and those whose shape has such a member, wherever the package
uses them. -/
theorem Schema.metadata_package (sch : Schema) (p : PackageStub) (hp : sch.package.1 = .ok p)
    (r : DictRef) (hr : sch.package.2.store.ReachedFrom p.entityAnnotations (.dict r)) :
    let svc := Service.ofSchema sch
    let d := sch.package.2.store.get r
    (∃ fixed : FixedDict, d = fixed.dict ∧ d.hasField Service.metadataField = false) ∨
      ∃ shapeName shape own extra, svc.Describes shapeName shape r.name ∧
        d.fields = own ++ extra ∧ own.map (·.name) = shape.members.keys ∧
        (d.hasField Service.metadataField ↔
          Service.metadataField ∈ shape.members.keys ∨ svc.IsOutput r.name) := by
  let svc := Service.ofSchema sch
  have hyields : Build.Yields svc {} svc.package svc.BuiltPackage := Service.yields_package .empty
  have hbuilt := hyields.holds p hp
  have hcons := Service.consistent_afterAll (Service.ofSchema sch) [.package]
  rcases hbuilt.has_of_reachedFrom hcons hr with hr | hr
  · obtain ⟨shapeName, shape, own, extra, hshape, hfields, hnames, hiff⟩ :=
      (hcons.shapes _ r hr).hasField_metadata_iff
    rw [Service.taken_package_iff hp] at hiff
    exact .inr ⟨shapeName, shape, own, extra, hshape, hfields, hnames, hiff⟩
  · obtain ⟨fixed, -, hget⟩ := hcons.fixed _ r hr
    have hget : sch.package.2.store.get r = fixed.dict := hget
    refine .inl ⟨fixed, hget, ?_⟩
    rw [hget]
    cases fixed <;> decide

/-! ## A service that takes what it returns -/

open Schema in
/-- A service of nodes, each of which may have another one after it.  An operation
takes what another one returns. -/
def nodeSchema : Schema where
  serviceName := "graph"
  className := "Graph"
  model :=
    { operations :=
        { entries :=
            [("GetNode", { output := some ⟨"Node", none⟩ }),
              ("PutNode", { input := some ⟨"PutRequest", none⟩ })] }
      shapes :=
        { entries :=
            [("PutRequest",
                { kind := .record, members := { entries := [("Node", ⟨"Node", none⟩)] } }),
              ("Node",
                { kind := .record,
                  members := { entries := [("Name", ⟨"Text", none⟩), ("Next", ⟨"Node", none⟩)] } }),
              ("Text", { kind := .string })] } }

/-- The dictionary that a type is. -/
def TypeExpr.dictRef? : TypeExpr → Option DictRef
  | .dict r => some r
  | _ => .none

theorem TypeExpr.dictRef?_eq_some_iff {a : TypeExpr} {r : DictRef} :
    a.dictRef? = some r ↔ a = .dict r := by
  cases a <;> simp [dictRef?]

/-- What is put is the dictionary of nodes, in which the field stands. -/
theorem nodeSchema_argument :
    ∃ p, nodeSchema.package.1 = .ok p ∧ ∃ f ∈ p.client.decl.methods, f.name = "put_node" ∧
      ∃ a ∈ f.arguments, ∃ r, a.type = some (.dict r) ∧ r.name = "NodeTypeDef" ∧
        (nodeSchema.package.2.store.get r).hasField Service.metadataField := by
  let isNode (r : DictRef) : Bool := r.name = "NodeTypeDef" &&
    (nodeSchema.package.2.store.get r).hasField Service.metadataField
  let check (p : PackageStub) : Bool :=
    p.client.decl.methods.any fun f => f.name = "put_node" &&
      f.arguments.any fun a => (a.type.bind TypeExpr.dictRef?).any isNode
  have hcheck : nodeSchema.package.1.toOption.any check := by decide +kernel
  obtain ⟨p, hp, hchecked⟩ := exists_of_any hcheck
  simp only [check, List.any_eq_true, Bool.and_eq_true, decide_eq_true_eq] at hchecked
  obtain ⟨f, hf, hname, a, ha, hnode⟩ := hchecked
  obtain ⟨r, hr, hnode⟩ := (Option.any_eq_true ..).mp hnode
  obtain ⟨type, htype, hr⟩ := Option.bind_eq_some_iff.mp hr
  simp only [isNode, Bool.and_eq_true, decide_eq_true_eq] at hnode
  exact ⟨p, hp, f, hf, hname, a, ha, r, TypeExpr.dictRef?_eq_some_iff.mp hr ▸ htype, hnode⟩

theorem not_mem_keys_nodeSchema {shapeName n : String} {shape : Schema.Shape}
    (h : (Service.ofSchema nodeSchema).Describes shapeName shape n) :
    Service.metadataField ∉ shape.members.keys := by
  have hall : ∀ shape ∈ (Service.ofSchema nodeSchema).model.shapes.values,
      Service.metadataField ∉ shape.members.keys := by
    decide +kernel
  exact hall shape (OrderedMap.mem_values_of_get? h.declared)

/-- The nodes that are put have the field because an operation returns nodes. -/
theorem metadata_nodeSchema :
    ∃ p r, nodeSchema.package.1 = .ok p ∧
      nodeSchema.package.2.store.ReachedFrom p.entityAnnotations (.dict r) ∧
      r.name = "NodeTypeDef" ∧ (Service.ofSchema nodeSchema).IsOutput r.name := by
  obtain ⟨p, hp, f, hf, -, a, ha, r, htype, hname, hfield⟩ := nodeSchema_argument
  have hreached : nodeSchema.package.2.store.ReachedFrom p.entityAnnotations (.dict r) := by
    refine ⟨.dict r, ?_, .dict r, List.mem_singleton_self _, .refl⟩
    have hclass : .dict r ∈ Annotated.annotations p.client.decl := by
      refine List.mem_append_right _ (List.mem_flatMap.mpr ⟨f, hf, ?_⟩)
      exact List.mem_append_left _ (List.mem_append_left _ (List.mem_filterMap.mpr ⟨a, ha, htype⟩))
    simp only [PackageStub.entityAnnotations, List.mem_append]
    exact .inl (.inl (.inl hclass))
  refine ⟨p, r, hp, hreached, hname, ?_⟩
  rcases nodeSchema.metadata_package p hp r hreached with ⟨fixed, -, hno⟩ | hshape
  · simp [hfield] at hno
  · obtain ⟨shapeName, shape, own, extra, hshape, -, -, hiff⟩ := hshape
    exact (hiff.mp hfield).resolve_left (not_mem_keys_nodeSchema hshape)

/-- **An argument has the field of responses**, though its shape has no such member. -/
theorem nodeSchema_puts_metadata :
    ∃ p, nodeSchema.package.1 = .ok p ∧ ∃ f ∈ p.client.decl.methods, f.name = "put_node" ∧
      ∃ a ∈ f.arguments, ∃ r, a.type = some (.dict r) ∧
        (nodeSchema.package.2.store.get r).hasField Service.metadataField ∧
        ∃ shape, (Service.ofSchema nodeSchema).Describes "Node" shape r.name ∧
          Service.metadataField ∉ shape.members.keys := by
  obtain ⟨p, hp, f, hf, hput, a, ha, r, htype, hname, hfield⟩ := nodeSchema_argument
  have hnode : ∃ shape, (Service.ofSchema nodeSchema).Describes "Node" shape "NodeTypeDef" :=
    ⟨_, by rfl, rfl, rfl, by decide⟩
  obtain ⟨shape, hshape⟩ := hnode
  exact ⟨p, hp, f, hf, hput, a, ha, r, htype, hfield, shape, hname ▸ hshape,
    not_mem_keys_nodeSchema hshape⟩

end ServiceStubs
