import ServiceStubs.Proofs.Package.Calls
import ServiceStubs.Proofs.Schema.Correction
import ServiceStubs.Proofs.Schema.Validation

/-!
# Which schemas have no package

A checked schema has a package unless its resources refer to something that is
not declared.  Only the resources can: what the paginators and waiters need has
been checked, and shapes and documentation never fail.

## Main definitions

* `Schema.ActionLinked`, `Schema.CollectionLinked` — an action or collection
  refers to declared things only.
* `Schema.ResourcesLinked` — all resources do.
* `Schema.hasPackage_iff` — the schemas that have a package.
-/

namespace ServiceStubs

/-! ## References of resources -/

namespace Schema

variable (s : Schema)

/-- The operation that is called, if one is, is declared. -/
def RequestLinked (request : Option Request) : Prop :=
  ∀ r ∈ request, r.operation ∈ s.model.operations.keys

/-- An action yields a declared resource, if any, and calls a declared operation,
if any. -/
structure ActionLinked (a : Action) : Prop where
  target : ∀ t ∈ a.resource, t.type ∈ s.resourceNames
  request : s.RequestLinked a.request

/-- A collection yields a declared resource and calls a declared operation, if
any, and every batch action of the resource calls a declared operation. -/
def CollectionLinked (a : Action) : Prop :=
  ∃ target model, a.resource = some target ∧ s.declaredResources.get? target.type = some model ∧
    s.RequestLinked a.request ∧
    ∀ batch ∈ model.batchActions.values,
      ∃ r, batch.request = some r ∧ r.operation ∈ s.model.operations.keys

/-- What any resource refers to, its waiters apart, is declared. -/
structure OwnerLinked (owner : ResourceModel) : Prop where
  actions : ∀ a ∈ owner.actions.values, s.ActionLinked a
  relations : ∀ r ∈ owner.has.values, r.resource.type ∈ s.resourceNames
  collections : ∀ a ∈ owner.hasMany.values, s.CollectionLinked a

/-- What the service resource and the other resources refer to is declared, as
are the waiters of the other resources. -/
structure ResourcesLinked (r : Resources) : Prop where
  owners : ∀ owner ∈ r.service :: r.resources.values, s.OwnerLinked owner
  waiters : ∀ owner ∈ r.resources.values, ∀ w ∈ owner.waiters.values,
    w.waiterName ∈ s.waiters.keys

variable {s} {t : Schema}

/-- Shapes and documentation make no difference to what is declared. -/
theorem ResourcesLinked.congr (hoperations : t.model.operations.keys = s.model.operations.keys)
    (hwaiters : t.waiters.keys = s.waiters.keys) (hresources : t.resources = s.resources)
    {r : Resources}
    (h : s.ResourcesLinked r) : t.ResourcesLinked r := by
  have hdeclared : t.declaredResources = s.declaredResources := by
    rw [declaredResources, declaredResources, hresources]
  have hnames : t.resourceNames = s.resourceNames := by
    rw [resourceNames, resourceNames, hdeclared]
  have hrequest : ∀ {request}, s.RequestLinked request → t.RequestLinked request := by
    intro request h
    rwa [RequestLinked, hoperations]
  refine ⟨fun owner howner => ?_, fun owner howner => ?_⟩
  · obtain ⟨hactions, hrelations, hcollections⟩ := h.owners owner howner
    refine ⟨fun a ha => ?_, fun r hr => ?_, fun a ha => ?_⟩
    · exact ⟨hnames ▸ (hactions a ha).target, hrequest (hactions a ha).request⟩
    · exact hnames ▸ hrelations r hr
    · rw [CollectionLinked, hdeclared, hoperations]
      exact (hcollections a ha).imp fun target => Exists.imp fun model h =>
        ⟨h.1, h.2.1, hrequest h.2.2.1, h.2.2.2⟩
  · rw [hwaiters]
    exact h.waiters owner howner

end Schema

namespace Service

variable {svc : Service}

/-! ## Methods -/

theorem exists_operation_iff {name : String} :
    (∃ o, svc.operation name = .ok o) ↔ name ∈ svc.schema.model.operations.keys := by
  rw [operation, OrderedMap.exists_lookup_iff, svc.model_eq, Schema.Model.operations_corrected]

theorem succeeds_lookup_operation {name : String} {f : Schema.Operation → Plan}
    (hf : ∀ o, (f o).succeeds) :
    (Plan.lookup (svc.operation name) f).succeeds ↔
      name ∈ svc.schema.model.operations.keys := by
  rw [Plan.succeeds_lookup, ← exists_operation_iff]
  simp [hf]

theorem exists_targetType_iff {target : Schema.ResourceTarget} :
    (∃ type, svc.targetType target = .ok type) ↔ target.type ∈ svc.schema.resourceNames := by
  rw [← Schema.exists_resource_iff]
  unfold targetType
  cases svc.schema.resource target.type with
  | error e => exact ⟨nofun, nofun⟩
  | ok model => exact ⟨fun _ => ⟨model, rfl⟩, fun _ => ⟨_, rfl⟩⟩

theorem exists_yielded_iff {target : Option Schema.ResourceTarget} :
    (∃ yielded, target.mapM svc.targetType = .ok yielded) ↔
      ∀ t ∈ target, t.type ∈ svc.schema.resourceNames := by
  cases target with
  | none => exact ⟨fun _ => nofun, fun _ => ⟨none, rfl⟩⟩
  | some target =>
      have hmem : (∀ t ∈ some target, t.type ∈ svc.schema.resourceNames) ↔
          target.type ∈ svc.schema.resourceNames := by simp
      rw [hmem, ← exists_targetType_iff, Option.mapM_some]
      cases svc.targetType target with
      | error e => exact ⟨nofun, nofun⟩
      | ok type => exact ⟨fun _ => ⟨type, rfl⟩, fun _ => ⟨some type, rfl⟩⟩

/-- A call needs its operation, whatever the action yields. -/
theorem succeeds_requestPlan {request : Option Schema.Request} {yielded : Option TypeExpr} :
    (svc.requestPlan request yielded).succeeds ↔ svc.schema.RequestLinked request := by
  unfold requestPlan Schema.RequestLinked
  cases request with
  | none => simp
  | some request =>
      rw [succeeds_lookup_operation]
      · simp
      · intro o
        cases o.output <;> cases yielded <;> rfl

theorem succeeds_actionPlan {a : Schema.Action} :
    (svc.actionPlan a).succeeds ↔ svc.schema.ActionLinked a := by
  unfold actionPlan
  rw [Plan.succeeds_lookup]
  constructor
  · rintro ⟨yielded, hyielded, hsucceeds⟩
    exact ⟨exists_yielded_iff.mp ⟨yielded, hyielded⟩, succeeds_requestPlan.mp hsucceeds⟩
  · intro h
    obtain ⟨yielded, hyielded⟩ := exists_yielded_iff.mpr h.target
    exact ⟨yielded, hyielded, succeeds_requestPlan.mpr h.request⟩

theorem exists_relationMethod_iff {name : String} {target : Schema.ResourceTarget} :
    (∃ f, svc.relationMethod name target = .ok f) ↔
      target.type ∈ svc.schema.resourceNames := by
  rw [← exists_targetType_iff]
  unfold relationMethod
  cases svc.targetType target with
  | error e => exact ⟨nofun, nofun⟩
  | ok type => exact ⟨fun _ => ⟨type, rfl⟩, fun _ => ⟨_, rfl⟩⟩

/-! ## Resources -/

theorem succeeds_ownMethodsPlan {owner : Schema.ResourceModel} :
    (svc.ownMethodsPlan owner).succeeds ↔
      (∀ a ∈ owner.actions.values, svc.schema.ActionLinked a) ∧
        ∀ r ∈ owner.has.values, r.resource.type ∈ svc.schema.resourceNames := by
  simp only [ownMethodsPlan, Plan.succeeds_andThen, Bool.and_eq_true, Plan.succeeds_forAll,
    actionMethodPlan, Plan.succeeds_lookup, Plan.succeeds_done, and_true, succeeds_actionPlan,
    Schema.ResourceModel.action, OrderedMap.forall_lookup_iff, exists_mapM_eq_ok_iff,
    exists_relationMethod_iff]
  exact and_congr_right' (OrderedMap.forall_entries_iff
    (P := fun r : Schema.Relation => r.resource.type ∈ svc.schema.resourceNames))

theorem succeeds_filterMethodPlan {a : Schema.Action} :
    (svc.filterMethodPlan a).succeeds ↔ svc.schema.RequestLinked a.request := by
  unfold filterMethodPlan Schema.RequestLinked
  cases a.request with
  | none => simp
  | some request => simpa using succeeds_lookup_operation fun _ => rfl

theorem succeeds_batchMethodPlan {a : Schema.Action} :
    (svc.batchMethodPlan a).succeeds ↔
      ∃ r, a.request = some r ∧ r.operation ∈ svc.schema.model.operations.keys := by
  unfold batchMethodPlan
  cases a.request with
  | none => simp
  | some request => simpa using succeeds_lookup_operation fun _ => rfl

theorem itemModel_eq_ok_iff {name item : String} {a : Schema.Action}
    {model : Schema.ResourceModel} :
    svc.itemModel name a = .ok (item, model) ↔
      ∃ target, a.resource = some target ∧ target.type = item ∧
        svc.schema.declaredResources.get? target.type = some model := by
  unfold itemModel
  cases a.resource with
  | none => exact ⟨nofun, fun ⟨_, h, _⟩ => nomatch h⟩
  | some target =>
      simp only [bind_eq_ok_iff, Schema.resource, OrderedMap.lookup_eq_ok_iff]
      constructor
      · rintro ⟨model', hmodel, h⟩
        obtain ⟨rfl, rfl⟩ := Prod.mk.inj (Except.ok.inj h)
        exact ⟨target, rfl, rfl, hmodel⟩
      · rintro ⟨_, ⟨⟩, rfl, hmodel⟩
        exact ⟨model, hmodel, rfl⟩

theorem succeeds_collectionsPlan {owner : Schema.ResourceModel} :
    (svc.collectionsPlan owner).succeeds ↔
      ∀ a ∈ owner.hasMany.values, svc.schema.CollectionLinked a := by
  have hcollection : ∀ (name : String) (a : Schema.Action),
      (Plan.lookup (svc.itemModel name a) fun target => (svc.filterMethodPlan a).andThen
        (.forAll target.2.batchActions.entries fun entry =>
          svc.batchMethodPlan entry.2)).succeeds ↔ svc.schema.CollectionLinked a := by
    intro name a
    simp only [Plan.succeeds_lookup, Plan.succeeds_andThen, Bool.and_eq_true,
      Plan.succeeds_forAll, succeeds_filterMethodPlan, succeeds_batchMethodPlan, Prod.exists,
      itemModel_eq_ok_iff]
    constructor
    · rintro ⟨item, model, ⟨target, htarget, rfl, hmodel⟩, hrequest, hbatch⟩
      exact ⟨target, model, htarget, hmodel, hrequest, OrderedMap.forall_entries_iff.mp hbatch⟩
    · rintro ⟨target, model, htarget, hmodel, hrequest, hbatch⟩
      exact ⟨target.type, model, ⟨target, htarget, rfl, hmodel⟩, hrequest,
        OrderedMap.forall_entries_iff.mpr hbatch⟩
  simp only [collectionsPlan, Plan.succeeds_forAll, collectionPlan, Plan.succeeds_lookup,
    Schema.ResourceModel.collection, hcollection, OrderedMap.forall_lookup_iff]

/-- The parts that every resource has. -/
theorem succeeds_ownerPlans {owner : Schema.ResourceModel} :
    ((svc.ownMethodsPlan owner).succeeds ∧ (svc.collectionsPlan owner).succeeds) ↔
      svc.schema.OwnerLinked owner := by
  rw [succeeds_ownMethodsPlan, succeeds_collectionsPlan]
  exact ⟨fun ⟨⟨ha, hr⟩, hc⟩ => ⟨ha, hr, hc⟩, fun ⟨ha, hr, hc⟩ => ⟨⟨ha, hr⟩, hc⟩⟩

/-- The operation of a waiter that is declared has been checked. -/
theorem succeeds_waitPlan (hchecked : svc.schema.validate = .ok ()) {name : String} :
    (Plan.lookup (svc.schema.waiter name) fun rule =>
      .lookup (svc.operation rule.operation) fun _ => .done).succeeds ↔
      name ∈ svc.schema.waiters.keys := by
  obtain ⟨-, -, hwaiters⟩ := Schema.validate_eq_ok_iff.mp hchecked
  rw [Plan.succeeds_lookup, Schema.waiter, ← OrderedMap.exists_lookup_iff]
  refine exists_congr fun rule => and_iff_left_of_imp fun hrule => ?_
  rw [succeeds_lookup_operation fun _ => rfl]
  exact hwaiters rule (OrderedMap.mem_values_of_get? (OrderedMap.lookup_eq_ok_iff.mp hrule))

theorem succeeds_waitMethodsPlan (hchecked : svc.schema.validate = .ok ())
    {owner : Schema.ResourceModel} :
    (svc.waitMethodsPlan owner).succeeds ↔
      ∀ w ∈ owner.waiters.values, w.waiterName ∈ svc.schema.waiters.keys := by
  simp only [waitMethodsPlan, Plan.succeeds_forAll, resourceWaitMethodPlan,
    succeeds_waitPlan hchecked]
  exact OrderedMap.forall_entries_iff
    (P := fun w : Schema.ResourceWaiter => w.waiterName ∈ svc.schema.waiters.keys)

theorem succeeds_resourcePlans (hchecked : svc.schema.validate = .ok ()) :
    (Plan.forAll svc.resourceNames svc.resourcePlan).succeeds ↔
      ∀ owner ∈ svc.schema.declaredResources.values, svc.schema.OwnerLinked owner ∧
        ∀ w ∈ owner.waiters.values, w.waiterName ∈ svc.schema.waiters.keys := by
  have hparts : ∀ owner, ((svc.ownMethodsPlan owner).andThen
      ((svc.waitMethodsPlan owner).andThen (svc.collectionsPlan owner))).succeeds ↔
        svc.schema.OwnerLinked owner ∧
          ∀ w ∈ owner.waiters.values, w.waiterName ∈ svc.schema.waiters.keys := by
    intro owner
    rw [← succeeds_ownerPlans, ← succeeds_waitMethodsPlan hchecked]
    simp only [Plan.succeeds_andThen, Bool.and_eq_true]
    exact ⟨fun ⟨ho, hw, hc⟩ => ⟨⟨ho, hc⟩, hw⟩, fun ⟨⟨ho, hc⟩, hw⟩ => ⟨ho, hw, hc⟩⟩
  simp only [Plan.succeeds_forAll, resourcePlan, Plan.succeeds_lookup, Schema.resource, hparts]
  exact OrderedMap.forall_lookup_iff

theorem succeeds_serviceResourcePlan (hchecked : svc.schema.validate = .ok ()) :
    svc.serviceResourcePlan.succeeds ↔
      ∀ r ∈ svc.schema.resources, svc.schema.ResourcesLinked r := by
  unfold serviceResourcePlan
  cases hresources : svc.schema.resources with
  | none => exact iff_of_true rfl nofun
  | some r =>
      have hdeclared : svc.schema.declaredResources = r.resources := by
        rw [Schema.declaredResources, hresources]
      have hmem : (∀ r' ∈ some r, svc.schema.ResourcesLinked r') ↔
          svc.schema.ResourcesLinked r := by simp
      simp only [Plan.succeeds_andThen, Bool.and_eq_true, succeeds_resourcePlans hchecked, hmem,
        hdeclared]
      rw [← and_assoc, succeeds_ownerPlans]
      constructor
      · rintro ⟨hservice, hresources⟩
        exact ⟨List.forall_mem_cons.mpr ⟨hservice, fun owner howner => (hresources owner howner).1⟩,
          fun owner howner => (hresources owner howner).2⟩
      · intro h
        obtain ⟨hservice, howners⟩ := List.forall_mem_cons.mp h.owners
        exact ⟨hservice, fun owner howner => ⟨howners owner howner, h.waiters owner howner⟩⟩

/-! ## Packages -/

theorem succeeds_clientPlan (hchecked : svc.schema.validate = .ok ()) :
    svc.clientPlan.succeeds := by
  obtain ⟨-, hpaginators, hwaiters⟩ := Schema.validate_eq_ok_iff.mp hchecked
  have hoperation : ∀ {name : String} {f : FunctionStub},
      name ∈ svc.schema.model.operations.keys →
        ∃ g, (do discard (svc.operation name); return f : Except Error FunctionStub) = .ok g := by
    intro name f hname
    obtain ⟨o, ho⟩ := exists_operation_iff.mpr hname
    exact ⟨f, by rw [ho]; rfl⟩
  simp only [clientPlan, Plan.succeeds_andThen, Bool.and_eq_true, Plan.succeeds_forAll,
    Plan.succeeds_lookup, Plan.succeeds_done, and_true, exists_and_right, exists_mapM_eq_ok_iff]
  refine ⟨?_, ?_, ?_⟩
  · intro name hname
    rw [clientMethodPlan, succeeds_lookup_operation fun _ => rfl]
    rwa [svc.model_eq, Schema.Model.operations_corrected] at hname
  · exact fun name hname => hoperation (hpaginators name hname)
  · exact fun entry hentry => hoperation (hwaiters entry.2 (List.mem_map_of_mem hentry))

theorem succeeds_packagePlan (hchecked : svc.schema.validate = .ok ()) :
    svc.packagePlan.succeeds ↔ ∀ r ∈ svc.schema.resources, svc.schema.ResourcesLinked r := by
  obtain ⟨-, hpaginators, -⟩ := Schema.validate_eq_ok_iff.mp hchecked
  have hpaginatorPlans : (Plan.forAll svc.schema.paginators.keys
      svc.paginateMethodPlan).succeeds := by
    rw [Plan.succeeds_forAll]
    intro name hname
    obtain ⟨rule, hrule⟩ := OrderedMap.exists_lookup_iff.mpr hname
    exact Plan.succeeds_lookup.mpr ⟨rule, hrule,
      (succeeds_lookup_operation fun _ => rfl).mpr (hpaginators name hname)⟩
  have hwaiterPlans : (Plan.forAll svc.schema.waiters.entries fun entry =>
      svc.waitMethodPlan entry.1).succeeds := by
    rw [Plan.succeeds_forAll]
    exact fun entry hentry =>
      (succeeds_waitPlan hchecked).mpr (OrderedMap.mem_keys_of_mem hentry)
  simp [packagePlan, succeeds_clientPlan hchecked, hpaginatorPlans, hwaiterPlans,
    succeeds_serviceResourcePlan hchecked]

end Service

/-- The schema has a package. -/
def Schema.HasPackage (s : Schema) : Prop :=
  ∃ p, s.package.1 = .ok p

/-- **A checked schema has a package exactly when its resources, if it has any,
refer to declared things only.**  So a schema without resources has one, and
between schemas with the same resources, and with operations and waiters of the
same names, nothing else makes a difference: no shape and no documentation. -/
theorem Schema.hasPackage_iff (s : Schema) (hchecked : s.validate = .ok ()) :
    (s.HasPackage ↔ ∀ r ∈ s.resources, s.ResourcesLinked r) ∧
      (s.resources = none → s.HasPackage) ∧
      ∀ t : Schema, t.validate = .ok () → t.resources = s.resources →
        t.model.operations.keys = s.model.operations.keys → t.waiters.keys = s.waiters.keys →
          (t.HasPackage ↔ s.HasPackage) := by
  have hiff : ∀ s : Schema, s.validate = .ok () →
      (s.HasPackage ↔ ∀ r ∈ s.resources, s.ResourcesLinked r) := by
    intro s hchecked
    exact ((Service.follows_package (.ofSchema s)).succeeds {}).trans
      (Service.succeeds_packagePlan hchecked)
  refine ⟨hiff s hchecked, ?_, ?_⟩
  · intro hnone
    rw [hiff s hchecked, hnone]
    nofun
  · intro t hchecked' hresources hoperations hwaiters
    rw [hiff t hchecked', hiff s hchecked, hresources]
    exact forall₂_congr fun r _ => ⟨.congr hoperations.symm hwaiters.symm hresources.symm,
      .congr hoperations hwaiters hresources⟩

/-- The service of boxes has a package, and what its resources refer to is
declared; documentation that cannot be read changes nothing. -/
theorem boxSchema_hasPackage : boxSchema.HasPackage ∧
    (∀ r ∈ boxSchema.resources, boxSchema.ResourcesLinked r) ∧
    { boxSchema with documentation := { entries := [("Box.delete", ":type key: int")] } }.HasPackage := by
  have hchecked : boxSchema.validate = .ok () := by decide +kernel
  have hpackage : boxSchema.HasPackage := boxSchema_package
  obtain ⟨hiff, -, hother⟩ := Schema.hasPackage_iff boxSchema hchecked
  have hunreadable := hother
    { boxSchema with documentation := { entries := [("Box.delete", ":type key: int")] } }
    (by decide +kernel) rfl rfl rfl
  exact ⟨hpackage, hiff.mp hpackage, hunreadable.mpr hpackage⟩

end ServiceStubs
