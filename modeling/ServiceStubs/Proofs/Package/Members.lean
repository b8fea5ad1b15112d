import Mathlib.Data.List.Infix
import ServiceStubs.Proofs.Package.Signatures
import ServiceStubs.Proofs.Session.Names
import ServiceStubs.Schema.Loading

/-!
# The members of classes

A class collects its members from several places: its methods from operations or
actions, relations and waiters, from what every such class has and from the
documentation, its attributes from identifiers, members of a shape and collections.
Most of these names are put in snake case before.  What is documented is compared with
the methods that are there already, and a member of a shape with the attributes; all
other members are taken over as they come.  So a class declares each member once just
when the names of the schema do not meet.

The client may have several signatures of `get_paginator` and of `get_waiter`, one for
each name that these methods are called with.

## Main definitions

* `ClassStub.DeclaresOnce` — a class declares each of its members once.
* `Service.ClientFits`, `Service.ResourceFits`, `Service.CollectionsFit` and
  `Service.MembersFit` — the names of a schema do not meet.
* `Schema.declaresOnce_package_iff` — the classes of a package.
-/

namespace ServiceStubs

open Text (snakeCase)
open Service (documented commonMethods)

/-! ## Members that are declared once -/

/-- The signatures of one method that yields an entity, for different names of
entities. -/
def FunctionStub.Overloads (f g : FunctionStub) : Prop :=
  f.name ∈ ["get_paginator", "get_waiter"] ∧
    f.decorators = [.overload] ∧ g.decorators = [.overload] ∧
    ∃ a b, a ≠ b ∧ f.arguments = [.self, .needed "operation_name" (.literal [a])] ∧
      g.arguments = [.self, .needed "operation_name" (.literal [b])]

/-- Two methods have different names, or are overloads of one. -/
def FunctionStub.Apart (f g : FunctionStub) : Prop :=
  f.name = g.name → f.Overloads g

/-- The class declares each of its members once. -/
structure ClassStub.DeclaresOnce (c : ClassStub) : Prop where
  attributes : (c.attributes.map (·.name)).Nodup
  methods : c.methods.Pairwise FunctionStub.Apart

section Apart

variable {f g : FunctionStub} {fs gs : List FunctionStub} {names : List String} {n : String}

theorem FunctionStub.Named.apart_iff (hf : f.Named n) : f.Apart g ↔ n ≠ g.name := by
  constructor
  · intro h heq
    obtain ⟨-, hdecorators, -⟩ := h (hf.name.trans heq)
    rw [hf.plain] at hdecorators
    nomatch hdecorators
  · intro hne heq
    exact absurd (hf.name.symm.trans heq) hne

/-- Methods without decorators are apart when their names are. -/
theorem pairwise_apart_iff (h : List.Forall₂ FunctionStub.Named fs names) :
    fs.Pairwise FunctionStub.Apart ↔ names.Nodup := by
  induction h with
  | nil => simp
  | @cons f n fs names hf hfs ih =>
      have hnames : fs.map (·.name) = names := by
        rw [← List.map_id names]
        exact map_eq_of_forall₂ (List.Forall₂.flip (hfs.imp fun _ _ h => h.name))
      rw [List.pairwise_cons, List.nodup_cons, ih, ← hnames]
      refine and_congr_left' ?_
      simp [hf.apart_iff, eq_comm]

end Apart

/-! ## Documentation keeps names -/

namespace EntityDocs

variable (docs : EntityDocs) {f : FunctionStub} {fs : List FunctionStub} {names : List String}
  {n : String}

theorem named_document (h : f.Named n) : (docs.document f).Named n := by
  rcases Service.document_cases docs f with hsame | ⟨text, info, -, -, hcomplete⟩
  · rwa [hsame]
  · rw [hcomplete]
    exact ⟨h.name, h.plain⟩

theorem named_ofText (name text : String) : (docs.ofText name text).Named name := by
  unfold ofText
  split <;> exact ⟨rfl, rfl⟩

theorem named_map_document (h : List.Forall₂ FunctionStub.Named fs names) :
    List.Forall₂ FunctionStub.Named (fs.map docs.document) names :=
  List.forall₂_map_left_iff.mpr (h.imp fun _ _ => docs.named_document)

/-- The methods that are known without documentation are there, under their names. -/
theorem named_fallbacks
    (hnames : ∀ n ∈ names, n ∈ Documentation.undocumented.map (·.name)) :
    List.Forall₂ FunctionStub.Named (names.filterMap docs.fallback?) names := by
  induction names with
  | nil => exact .nil
  | cons n names ih =>
      obtain ⟨f, hf, hnamed⟩ : ∃ f, docs.fallback? n = some f ∧ f.Named n := by
        unfold fallback?
        cases htext : docs.schema.documentationOf docs.entity n with
        | some text => exact ⟨_, rfl, docs.named_ofText n text⟩
        | none =>
            obtain ⟨m, hm, hname⟩ := List.mem_map.mp (hnames n List.mem_cons_self)
            have hknown : (Documentation.undocumented.find? (·.name = n)).isSome :=
              List.find?_isSome.mpr ⟨m, hm, decide_eq_true hname⟩
            obtain ⟨found, hfound⟩ := Option.isSome_iff_exists.mp hknown
            simp only [Documentation.undocumented?, hfound, Option.map_some]
            exact ⟨_, rfl, rfl, rfl⟩
      rw [List.filterMap_cons_some hf]
      exact .cons hnamed (ih fun n hn => hnames n (List.mem_cons_of_mem _ hn))

/-- Documented methods have different names. -/
theorem nodup_entries : (docs.entries.map Prod.fst).Nodup := by
  rw [List.nodup_iff_pairwise_ne, List.pairwise_map, entries, List.pairwise_filterMap]
  have hkeys : docs.schema.documentation.entries.Pairwise fun e e' => e.1 ≠ e'.1 :=
    List.pairwise_map.mp docs.schema.documentation.nodup
  refine hkeys.imp fun {e e'} hne b hb b' hb' heq => hne ?_
  obtain ⟨rest, hrest, rfl⟩ := Option.map_eq_some_iff.mp hb
  obtain ⟨rest', hrest', rfl⟩ := Option.map_eq_some_iff.mp hb'
  rw [List.isPrefixOf?_eq_some_iff_append_eq] at hrest hrest'
  apply String.toList_injective
  rw [← hrest, ← hrest', String.ofList_injective heq]

/-- What else is documented does not repeat a member. -/
theorem pairwise_append_further :
    (fs ++ docs.further fs).Pairwise FunctionStub.Apart ↔ fs.Pairwise FunctionStub.Apart := by
  rw [List.pairwise_append]
  refine ⟨And.left, fun hfs => ⟨hfs, ?_, ?_⟩⟩
  · have hfurther : List.Forall₂ FunctionStub.Named (docs.further fs)
        ((docs.entries.filter fun e => fs.all (·.name ≠ e.1)).map Prod.fst) := by
      rw [further, List.forall₂_map_left_iff, List.forall₂_map_right_iff, List.forall₂_same]
      exact fun e _ => docs.named_ofText e.1 e.2
    rw [pairwise_apart_iff hfurther]
    exact docs.nodup_entries.sublist (List.filter_sublist.map Prod.fst)
  · intro f hf g hg heq
    obtain ⟨e, he, rfl⟩ := List.mem_map.mp hg
    have hall := List.all_eq_true.mp (List.mem_filter.mp he).2 f hf
    rw [(docs.named_ofText e.1 e.2).name] at heq
    simp [heq] at hall

/-- A documented list of methods and those that are there in any case. -/
theorem pairwise_documented {others : List String} (h : List.Forall₂ FunctionStub.Named fs names)
    (hothers : ∀ n ∈ others, n ∈ Documentation.undocumented.map (·.name)) :
    (documented docs fs others).Pairwise FunctionStub.Apart ↔ (names ++ others).Nodup := by
  rw [documented, pairwise_append_further]
  exact pairwise_apart_iff
    (List.rel_append (docs.named_map_document h) (docs.named_fallbacks hothers))

end EntityDocs

/-! ## The client -/

section Accessors

variable {method : String} {keys names : List String} {plain : List FunctionStub}
  {className : String → String} {module : String}

theorem apart_accessor_iff (hmethod : method ∈ ["get_paginator", "get_waiter"])
    {a b c d : String} :
    (accessor method a c module).Apart (accessor method b d module) ↔ snakeCase a ≠ snakeCase b := by
  have hname : ∀ key type, (accessor method key type module).name = method := fun _ _ => rfl
  constructor
  · intro h heq
    obtain ⟨-, -, -, v, w, hne, hv, hw⟩ := h ((hname a c).trans (hname b d).symm)
    refine hne ?_
    simp only [accessor, FunctionStub.method, List.cons.injEq, Argument.needed, Argument.mk.injEq,
      Option.some.injEq, TypeExpr.literal.injEq, and_true, true_and] at hv hw
    rw [← hv, ← hw, heq]
  · intro hne _
    exact ⟨hmethod, rfl, rfl, snakeCase a, snakeCase b, hne, rfl, rfl⟩

/-- The signatures of one method are overloads when they are for different names. -/
theorem pairwise_accessors (hmethod : method ∈ ["get_paginator", "get_waiter"]) :
    (keys.map fun name => accessor method name (className name) module).Pairwise
      FunctionStub.Apart ↔ (keys.map snakeCase).Nodup := by
  rw [List.nodup_iff_pairwise_ne, List.pairwise_map, List.pairwise_map]
  simp only [apart_accessor_iff hmethod]

/-- No other method may be called like one that yields entities, if there are such. -/
theorem apart_accessors (hplain : List.Forall₂ FunctionStub.Named plain names) :
    (∀ f ∈ plain, ∀ g ∈ keys.map fun name => accessor method name (className name) module,
      f.Apart g) ↔ (keys ≠ [] → method ∉ names) := by
  constructor
  · intro h hkeys hmem
    obtain ⟨key, hkey⟩ := List.exists_mem_of_ne_nil keys hkeys
    obtain ⟨f, hf, hnamed⟩ := exists_of_mem_forall₂ hplain hmem
    exact hnamed.apart_iff.mp (h f hf _ (List.mem_map_of_mem hkey)) rfl
  · intro h f hf g hg
    obtain ⟨key, hkey, rfl⟩ := List.mem_map.mp hg
    obtain ⟨n, hn, hnamed⟩ := exists_of_mem_forall₂ hplain.flip hf
    refine hnamed.apart_iff.mpr fun heq => ?_
    have hname : n = method := heq
    exact h (List.ne_nil_of_mem hkey) (hname ▸ hn)

/-- Methods without decorators, and the signatures of the two methods that yield
entities. -/
theorem pairwise_signatures (hplain : List.Forall₂ FunctionStub.Named plain names)
    {paginators waiters : List String} {paginatorName waiterName : String → String}
    {paginatorModule waiterModule : String} :
    (plain
        ++ (paginators.map fun key =>
          accessor "get_paginator" key (paginatorName key) paginatorModule)
        ++ waiters.map fun key => accessor "get_waiter" key (waiterName key) waiterModule).Pairwise
      FunctionStub.Apart ↔
    (names.Nodup ∧ (paginators.map snakeCase).Nodup ∧
        (paginators ≠ [] → "get_paginator" ∉ names)) ∧
      (waiters.map snakeCase).Nodup ∧ (waiters ≠ [] → "get_waiter" ∉ names) := by
  rw [List.pairwise_append, List.pairwise_append, pairwise_apart_iff hplain,
    pairwise_accessors (by decide), pairwise_accessors (by decide), apart_accessors hplain,
    List.forall_mem_append, apart_accessors hplain]
  refine and_congr_right' (and_congr_right' (and_iff_left ?_))
  -- The two methods have different names.
  intro f hf g hg heq
  obtain ⟨key, -, rfl⟩ := List.mem_map.mp hf
  obtain ⟨key', -, rfl⟩ := List.mem_map.mp hg
  exact absurd heq (by decide : "get_paginator" ≠ "get_waiter")

end Accessors

namespace Service

variable (svc : Service)

/-- The names of the methods of the operations. -/
def operationNames : List String :=
  svc.model.operations.keys.map snakeCase

/-- **The members of the client do not meet**: operations, the methods that every client
has and those that yield paginators and waiters are all called differently, and so are
the paginators among themselves, and the waiters. -/
structure ClientFits : Prop where
  operations : (svc.operationNames ++ commonClientMethods).Nodup
  getPaginator : svc.schema.paginators.keys ≠ [] → "get_paginator" ∉ svc.operationNames
  getWaiter : svc.schema.waiters.keys ≠ [] → "get_waiter" ∉ svc.operationNames
  paginators : (svc.schema.paginators.keys.map snakeCase).Nodup
  waiters : (svc.schema.waiters.keys.map snakeCase).Nodup

variable {svc}

theorem eq_paginatorAccessors {fs : List FunctionStub}
    (h : svc.schema.paginators.keys.mapM svc.paginatorAccessor = .ok fs) :
    fs = svc.schema.paginators.keys.map fun name =>
      accessor "get_paginator" name (name ++ "Paginator") paginatorModule := by
  rw [← List.map_id fs]
  refine map_eq_of_forall₂ ((forall₂_of_mapM_eq_ok h).imp fun name f hf => ?_)
  obtain ⟨_, -, hf⟩ := bind_eq_ok_iff.mp hf
  exact (Except.ok.inj hf).symm

theorem eq_waiterAccessors {fs : List FunctionStub}
    (h : (svc.schema.waiters.entries.mapM fun (name, rule) => svc.waiterAccessor name rule) =
      .ok fs) :
    fs = svc.schema.waiters.keys.map fun name =>
      accessor "get_waiter" name (name ++ "Waiter") waiterModule := by
  rw [← List.map_id fs, OrderedMap.keys, List.map_map]
  refine map_eq_of_forall₂ ((forall₂_of_mapM_eq_ok h).imp fun entry f hf => ?_)
  obtain ⟨_, -, hf⟩ := bind_eq_ok_iff.mp hf
  exact (Except.ok.inj hf).symm

/-- **The client declares each member once exactly when these do not meet.** -/
theorem declaresOnce_client {c : ClientStub} (h : svc.client.Gives c) :
    c.decl.DeclaresOnce ↔ svc.ClientFits := by
  obtain ⟨operations, paginators, waiters, hoperations, hpaginators, hwaiters, hdecl⟩ :=
    parts_client h
  have hnamed : List.Forall₂ FunctionStub.Named operations svc.operationNames := by
    rw [operationNames, List.forall₂_map_right_iff]
    exact (hoperations.of_mapM.imp fun _ _ => named_clientMethod).flip
  set docs := svc.docs svc.serviceName.clientName
  have hcommonNamed : List.Forall₂ FunctionStub.Named
      (commonClientMethods.filterMap docs.fallback?) commonClientMethods :=
    docs.named_fallbacks (by decide)
  have hplain := List.rel_append (docs.named_map_document hnamed) hcommonNamed
  obtain rfl := eq_paginatorAccessors hpaginators
  obtain rfl := eq_waiterAccessors hwaiters
  have hmethods : c.decl.methods.Pairwise FunctionStub.Apart ↔ svc.ClientFits := by
    rw [hdecl, docs.pairwise_append_further, pairwise_signatures hplain]
    have hcommon : ∀ n ∈ ["get_paginator", "get_waiter"], n ∉ commonClientMethods := by decide
    constructor
    · rintro ⟨⟨hnames, hpaginators, hpaginator⟩, hwaiters, hwaiter⟩
      exact ⟨hnames, fun hne hmem => hpaginator hne (List.mem_append_left _ hmem),
        fun hne hmem => hwaiter hne (List.mem_append_left _ hmem), hpaginators, hwaiters⟩
    · intro hfits
      refine ⟨⟨hfits.operations, hfits.paginators, fun hne => ?_⟩, hfits.waiters, fun hne => ?_⟩
      · exact List.mem_append.not.mpr
          (not_or.mpr ⟨hfits.getPaginator hne, hcommon _ (by decide)⟩)
      · exact List.mem_append.not.mpr (not_or.mpr ⟨hfits.getWaiter hne, hcommon _ (by decide)⟩)
  have hattributes : c.decl.attributes = clientAttributes := by rw [hdecl]
  constructor
  · intro hc
    exact hmethods.mp hc.methods
  · intro hfits
    refine ⟨?_, hmethods.mpr hfits⟩
    rw [hattributes]
    decide

/-- Paginators have one method. -/
theorem declaresOnce_paginator {name : String} {p : PaginatorStub}
    (h : (svc.paginator name).Gives p) : p.decl.DeclaresOnce := by
  obtain ⟨f, -, hdecl⟩ := parts_paginator h
  rw [hdecl]
  exact ⟨List.nodup_nil, List.pairwise_singleton _ _⟩

/-- Waiters have one method. -/
theorem declaresOnce_waiter {name : String} {rule : Schema.WaitingRule} {w : WaiterStub}
    (h : (svc.waiter name rule).Gives w) : w.decl.DeclaresOnce := by
  obtain ⟨f, -, hdecl⟩ := parts_waiter h
  rw [hdecl]
  exact ⟨List.nodup_nil, List.pairwise_singleton _ _⟩

/-! ## Collections -/

/-- The methods that every collection has. -/
def collectionMethods : List String :=
  ["all", "filter", "limit", "page_size", "pages", "__iter__"]

variable (svc) in
/-- **The methods of the collections of an owner do not meet**: no batch action of what
a collection holds is called like another one or like a method of every collection. -/
def CollectionsFit (owner : Schema.ResourceModel) : Prop :=
  ∀ relation ∈ owner.hasMany.values, ∀ target ∈ relation.resource, ∀ model,
    svc.schema.resource target.type = .ok model →
      (collectionMethods ++ model.batchActions.keys.map snakeCase).Nodup

theorem declaresOnce_collection {parent name : String} {owner : Schema.ResourceModel}
    {c : CollectionStub} (h : (svc.collection parent owner name).Gives c) :
    ∃ relation, owner.collection svc.schema.serviceName name = .ok relation ∧
      (c.decl.DeclaresOnce ↔ ∀ target ∈ relation.resource, ∀ model,
        svc.schema.resource target.type = .ok model →
          (collectionMethods ++ model.batchActions.keys.map snakeCase).Nodup) := by
  obtain ⟨relation, item, filter, batch, hrelation, hitem, hfilter, hbatch, hc⟩ :=
    parts_collection h
  obtain ⟨target, htarget, hmodel⟩ : ∃ target, relation.resource = some target ∧
      svc.schema.resource target.type = .ok item.2 := by
    unfold itemModel at hitem
    split at hitem
    · nomatch hitem
    · next target htarget =>
        obtain ⟨model, hmodel, hitem⟩ := bind_eq_ok_iff.mp hitem
        obtain rfl := Except.ok.inj hitem
        exact ⟨target, htarget, hmodel⟩
  refine ⟨relation, hrelation, ?_⟩
  have hbase : List.Forall₂ FunctionStub.Named
      ((CollectionStub.ofRelation parent name (snakeCase name) (.resource item.1)).baseMethods
        filter)
      collectionMethods :=
    .cons (.method _ _ _) (.cons (named_filterMethod hfilter) (.cons (.method _ _ _)
      (.cons (.method _ _ _) (.cons (.method _ _ _) (.cons (.method _ _ _) .nil)))))
  have hactions : List.Forall₂ FunctionStub.Named batch
      (item.2.batchActions.keys.map snakeCase) := by
    rw [OrderedMap.keys, List.map_map, List.forall₂_map_right_iff]
    exact (hbatch.imp fun _ _ => named_batchMethod).flip
  have hmethods : c.decl.methods.Pairwise FunctionStub.Apart ↔
      (collectionMethods ++ item.2.batchActions.keys.map snakeCase).Nodup := by
    rw [hc]
    exact pairwise_apart_iff (EntityDocs.named_map_document _ (List.rel_append hbase hactions))
  constructor
  · intro hc target' htarget' model hmodel'
    obtain rfl : target' = target := Option.some.inj (htarget'.symm.trans htarget)
    obtain rfl : model = item.2 := Except.ok.inj (hmodel'.symm.trans hmodel)
    exact hmethods.mp hc.methods
  · intro hfits
    refine ⟨?_, hmethods.mpr (hfits target htarget item.2 hmodel)⟩
    rw [hc]
    exact List.nodup_nil

/-- What holds of all values is what holds of all that they give. -/
theorem forall_mem_iff_of_forall₂ {α β : Type} {R : α → β → Prop} {P : α → Prop} {Q : β → Prop}
    {as : List α} {bs : List β} (h : List.Forall₂ R as bs)
    (hiff : ∀ a b, R a b → (P a ↔ Q b)) : (∀ a ∈ as, P a) ↔ ∀ b ∈ bs, Q b := by
  induction h with
  | nil => simp
  | cons hab _ ih => rw [List.forall_mem_cons, List.forall_mem_cons, hiff _ _ hab, ih]

theorem declaresOnce_collections {parent : String} {owner : Schema.ResourceModel}
    {cs : List CollectionStub} (h : (svc.collections parent owner).Gives cs) :
    (∀ c ∈ cs, c.decl.DeclaresOnce) ↔ svc.CollectionsFit owner := by
  unfold CollectionsFit
  have hlookup := @OrderedMap.forall_lookup_iff _ owner.hasMany svc.schema.serviceName .collection
  rw [← hlookup]
  refine (forall_mem_iff_of_forall₂ h.of_mapM fun name c hc => ?_).symm
  obtain ⟨relation, hrelation, hiff⟩ := declaresOnce_collection hc
  rw [hiff]
  constructor
  · rintro ⟨relation', hrelation', hfits⟩
    obtain rfl : relation' = relation := Except.ok.inj (hrelation'.symm.trans hrelation)
    exact hfits
  · exact fun hfits => ⟨relation, hrelation, hfits⟩

/-! ## Resources -/

/-- The names of the methods of the actions and relations of a resource. -/
def ownNames (owner : Schema.ResourceModel) : List String :=
  owner.actions.keys.map snakeCase ++ owner.has.keys

/-- The names of the methods of the waiters of a resource. -/
def waitNames (owner : Schema.ResourceModel) : List String :=
  owner.waiters.keys.map fun name => "wait_until_" ++ snakeCase name

/-- The names of the attributes of a resource besides its data. -/
def furtherAttributeNames (owner : Schema.ResourceModel) : List String :=
  "meta" :: owner.hasMany.keys.map snakeCase

theorem named_own {owner : Schema.ResourceModel} {own : List FunctionStub}
    (h : (svc.ownMethods owner).Gives own) :
    List.Forall₂ FunctionStub.Named own (ownNames owner) := by
  obtain ⟨actions, relations, rfl, hactions, hrelations⟩ := methods_own h
  refine List.rel_append ?_ ?_
  · rw [List.forall₂_map_right_iff]
    exact (hactions.imp fun _ _ => named_actionMethod).flip
  · rw [OrderedMap.keys, List.forall₂_map_right_iff]
    exact (hrelations.imp fun _ _ => named_relationMethod).flip

/-- The names of the attributes that are collections. -/
theorem names_collections {parent : String} {owner : Schema.ResourceModel}
    {cs : List CollectionStub} (h : (svc.collections parent owner).Gives cs) :
    (metaAttribute :: cs.map (·.asAttribute)).map (·.name) = furtherAttributeNames owner := by
  rw [List.map_cons, List.map_map, furtherAttributeNames]
  refine congrArg _ (map_eq_of_forall₂ (h.of_mapM.imp fun name c hc => ?_))
  obtain ⟨relation, item, filter, batch, -, -, -, -, rfl⟩ := parts_collection hc
  rfl

variable (svc) in
/-- **The members of a resource do not meet**: the methods of its actions, relations and
waiters and those that it has in any case are called differently, its identifiers are
called differently, and so are its collections, and none of these is called like the
data of the resource or like the attribute that every resource has. -/
structure ResourceFits (model : Schema.ResourceModel) : Prop where
  methods : (ownNames model ++ waitNames model ++ commonMethods model).Nodup
  identifiers : model.identifierNames.Nodup
  collections : (furtherAttributeNames model).Nodup
  data : ∀ n ∈ svc.dataNames model, n ∉ furtherAttributeNames model

theorem commonMethods_known (model : Schema.ResourceModel) :
    ∀ n ∈ commonMethods model, n ∈ Documentation.undocumented.map (·.name) := by
  unfold commonMethods
  cases model.load.isSome <;> decide

theorem declaresOnce_resource {name : String} {r : ResourceStub}
    (h : (svc.resource name).Gives r) :
    ∃ model, svc.schema.resource name = .ok model ∧
      ((r.decl.DeclaresOnce ∧ ∀ c ∈ r.collections, c.decl.DeclaresOnce) ↔
        svc.ResourceFits model ∧ svc.CollectionsFit model) := by
  obtain ⟨model, attributes, own, waits, hmodel, hattributes, hown, hwaits, hcollections, hdecl⟩ :=
    parts_resource h
  refine ⟨model, hmodel, and_congr ?_ (declaresOnce_collections hcollections)⟩
  have hnamed : List.Forall₂ FunctionStub.Named (own ++ waits)
      (ownNames model ++ waitNames model) := by
    refine List.rel_append (named_own hown) ?_
    rw [waitNames, OrderedMap.keys, List.map_map, List.forall₂_map_right_iff]
    exact (hwaits.imp fun _ _ => named_resourceWaitMethod).flip
  have hmethods : r.decl.methods.Pairwise FunctionStub.Apart ↔
      (ownNames model ++ waitNames model ++ commonMethods model).Nodup := by
    rw [hdecl]
    exact (svc.docs name).pairwise_documented hnamed (commonMethods_known model)
  obtain ⟨hdata, hnames⟩ := names_resourceAttributes hattributes
  have hall : (r.decl.attributes.map (·.name)).Nodup ↔ model.identifierNames.Nodup ∧
      (furtherAttributeNames model).Nodup ∧
      ∀ n ∈ svc.dataNames model, n ∉ furtherAttributeNames model := by
    rw [hdecl, List.map_append, names_collections hcollections, List.nodup_append', hdata]
    simp only [List.Disjoint, hnames, imp_false]
  constructor
  · intro hr
    obtain ⟨hidentifiers, hcollections, hdata⟩ := hall.mp hr.attributes
    exact ⟨hmethods.mp hr.methods, hidentifiers, hcollections, hdata⟩
  · intro hfits
    exact ⟨hall.mpr ⟨hfits.identifiers, hfits.collections, hfits.data⟩,
      hmethods.mpr hfits.methods⟩

/-- **The members of the service resource do not meet.** -/
structure ServiceResourceFits (service : Schema.ResourceModel) : Prop where
  methods : (ownNames service ++ [subresourcesMethod]).Nodup
  collections : (furtherAttributeNames service).Nodup

variable (svc) in
/-- **The members of no class of the package meet.** -/
structure MembersFit : Prop where
  client : svc.ClientFits
  service : ∀ r ∈ svc.schema.resources,
    ServiceResourceFits r.service ∧ svc.CollectionsFit r.service
  resources : ∀ model ∈ svc.schema.declaredResources.values,
    svc.ResourceFits model ∧ svc.CollectionsFit model

theorem forall_allClasses_iff {P : ClassStub → Prop} {made : ServiceResourceStub} :
    (∀ c ∈ made.allClasses, P c) ↔
      (P made.decl ∧ ∀ c ∈ made.collections, P c.decl) ∧
        ∀ r ∈ made.resources, P r.decl ∧ ∀ c ∈ r.collections, P c.decl := by
  simp only [ServiceResourceStub.allClasses, ServiceResourceStub.allCollections,
    List.forall_mem_append, List.forall_mem_cons, List.forall_mem_map, List.map_append,
    List.map_flatMap, List.forall_mem_flatMap]
  constructor
  · rintro ⟨⟨hdecl, hresources⟩, hcollections, hothers⟩
    exact ⟨⟨hdecl, hcollections⟩, fun r hr => ⟨hresources r hr, hothers r hr⟩⟩
  · rintro ⟨⟨hdecl, hcollections⟩, hresources⟩
    exact ⟨⟨hdecl, fun r hr => (hresources r hr).1⟩, hcollections, fun r hr => (hresources r hr).2⟩

theorem declaresOnce_serviceResource {service : Schema.ResourceModel} {made : ServiceResourceStub}
    (h : (svc.serviceResourceOf service).Gives made) :
    (∀ c ∈ made.allClasses, c.DeclaresOnce) ↔
      (ServiceResourceFits service ∧ svc.CollectionsFit service) ∧
        ∀ model ∈ svc.schema.declaredResources.values,
          svc.ResourceFits model ∧ svc.CollectionsFit model := by
  obtain ⟨own, hown, hcollections, hothers, hdecl⟩ := parts_serviceResourceOf h
  rw [forall_allClasses_iff]
  refine and_congr (and_congr ?_ (declaresOnce_collections hcollections)) ?_
  · have hmethods : made.decl.methods.Pairwise FunctionStub.Apart ↔
        (ownNames service ++ [subresourcesMethod]).Nodup := by
      rw [hdecl]
      exact EntityDocs.pairwise_documented _ (named_own hown) (by decide)
    have hattributes : made.decl.attributes.map (·.name) = furtherAttributeNames service := by
      rw [hdecl]
      exact names_collections hcollections
    constructor
    · intro hmade
      exact ⟨hmethods.mp hmade.methods, hattributes ▸ hmade.attributes⟩
    · intro hfits
      exact ⟨hattributes ▸ hfits.collections, hmethods.mpr hfits.methods⟩
  · have hlookup := @OrderedMap.forall_lookup_iff _ svc.schema.declaredResources
      svc.schema.serviceName .resource
    rw [← hlookup]
    refine (forall_mem_iff_of_forall₂ hothers fun name r hr => ?_).symm
    obtain ⟨model, hmodel, hiff⟩ := declaresOnce_resource hr
    rw [hiff]
    constructor
    · rintro ⟨model', hmodel', hfits⟩
      obtain rfl : model' = model := Except.ok.inj (hmodel'.symm.trans hmodel)
      exact hfits
    · exact fun hfits => ⟨model, hmodel, hfits⟩

/-- The classes of a package for the resources of the schema, if it has any. -/
theorem declaresOnce_serviceResource? {made : Option ServiceResourceStub}
    (h : svc.serviceResource.Gives made) :
    (∀ r ∈ made, ∀ c ∈ r.allClasses, c.DeclaresOnce) ↔
      (∀ r ∈ svc.schema.resources, ServiceResourceFits r.service ∧ svc.CollectionsFit r.service) ∧
        ∀ model ∈ svc.schema.declaredResources.values,
          svc.ResourceFits model ∧ svc.CollectionsFit model := by
  unfold serviceResource at h
  cases hresources : svc.schema.resources with
  | none =>
      rw [hresources] at h
      obtain rfl := h.of_pure
      have hvalues : svc.schema.declaredResources.values = [] := by
        rw [Schema.declaredResources, hresources]
        rfl
      simp [hvalues]
  | some resources =>
      rw [hresources] at h
      obtain ⟨r, hr, h⟩ := h.of_bind
      obtain rfl := h.of_pure
      simpa using declaresOnce_serviceResource hr

end Service

/-! ## Packages -/

theorem PackageStub.forall_classes_iff {P : ClassStub → Prop} {p : PackageStub} :
    (∀ c ∈ p.classes, P c) ↔ P p.client.decl ∧
      (∀ made ∈ p.serviceResource, ∀ c ∈ made.allClasses, P c) ∧
      (∀ e ∈ p.paginators, P e.decl) ∧ ∀ e ∈ p.waiters, P e.decl := by
  simp only [classes, List.forall_mem_append, List.forall_mem_cons, List.forall_mem_map,
    List.forall_mem_flatMap, Option.mem_toList, Option.mem_def, and_assoc]

/-- **Every class of a package declares each of its members once, exactly when the names
of the schema do not meet.** -/
theorem Schema.declaresOnce_package_iff {sch : Schema} {p : PackageStub}
    (hp : sch.package.1 = .ok p) :
    (∀ c ∈ p.classes, c.DeclaresOnce) ↔ (Service.ofSchema sch).MembersFit := by
  have hgives : (Service.ofSchema sch).package.Gives p := ⟨{}, hp⟩
  obtain ⟨hclient, hresource, hpaginators, hwaiters⟩ := Service.entities_package hgives
  have hpaginator : ∀ e ∈ p.paginators, e.decl.DeclaresOnce := by
    intro e he
    obtain ⟨name, -, he⟩ := exists_of_mem_forall₂ hpaginators he
    exact Service.declaresOnce_paginator he
  have hwaiter : ∀ e ∈ p.waiters, e.decl.DeclaresOnce := by
    intro e he
    obtain ⟨entry, -, he⟩ := exists_of_mem_forall₂ hwaiters he
    exact Service.declaresOnce_waiter he
  rw [PackageStub.forall_classes_iff, Service.declaresOnce_client hclient,
    Service.declaresOnce_serviceResource? hresource]
  constructor
  · rintro ⟨hfits, ⟨hservice, hresources⟩, -⟩
    exact ⟨hfits, hservice, hresources⟩
  · intro hfits
    exact ⟨hfits.client, ⟨hfits.service, hfits.resources⟩, hpaginator, hwaiter⟩

/-- The names of boxes do not meet. -/
theorem membersFit_boxSchema : (Service.ofSchema boxSchema).MembersFit := by
  have hbatch : ∀ model ∈ boxSchema.declaredResources.values,
      (Service.collectionMethods ++ model.batchActions.keys.map snakeCase).Nodup := by
    decide +kernel
  have hcollections : ∀ owner, (Service.ofSchema boxSchema).CollectionsFit owner := by
    intro owner relation _ target _ model hmodel
    exact hbatch model (OrderedMap.mem_values_of_get? (OrderedMap.lookup_eq_ok_iff.mp hmodel))
  have hresources : ∀ model ∈ boxSchema.declaredResources.values,
      (Service.ownNames model ++ Service.waitNames model ++ commonMethods model).Nodup ∧
        model.identifierNames.Nodup ∧ (Service.furtherAttributeNames model).Nodup ∧
        ∀ n ∈ (Service.ofSchema boxSchema).dataNames model,
          n ∉ Service.furtherAttributeNames model := by
    decide +kernel
  have hservice : ∀ r ∈ boxSchema.resources,
      (Service.ownNames r.service ++ [subresourcesMethod]).Nodup ∧
        (Service.furtherAttributeNames r.service).Nodup := by
    decide +kernel
  constructor
  · constructor <;> decide +kernel
  · intro r hr
    obtain ⟨hmethods, hattributes⟩ := hservice r hr
    exact ⟨⟨hmethods, hattributes⟩, hcollections r.service⟩
  · intro model hmodel
    obtain ⟨hmethods, hidentifiers, hattributes, hdata⟩ := hresources model hmodel
    exact ⟨⟨hmethods, hidentifiers, hattributes, hdata⟩, hcollections model⟩

/-- The classes for boxes declare each member once. -/
theorem boxSchema_declaresOnce :
    ∃ p, boxSchema.package.1 = .ok p ∧ ∀ c ∈ p.classes, c.DeclaresOnce := by
  obtain ⟨p, hp⟩ := boxSchema_package
  exact ⟨p, hp, (Schema.declaresOnce_package_iff hp).mpr membersFit_boxSchema⟩

/-! ## Names that meet -/

open Schema in
/-- A service of boxes that have a member and an action called like what every resource
has. -/
def metaSchema : Schema where
  serviceName := "crates"
  className := "Crates"
  model :=
    { shapes :=
        { entries :=
            [("BoxData",
                { kind := .record, members := { entries := [("Meta", ⟨"Text", none⟩)] } }),
              ("Text", { kind := .string })] } }
  resources := some
    { resources :=
        { entries :=
            [("Box",
                { shape := some "BoxData", load := some {},
                  actions := { entries := [("Load", {})] } })] } }

/-- **A class declares an attribute twice, and a method.** -/
theorem metaSchema_repeats_members :
    metaSchema.validate = .ok () ∧ ∃ p, metaSchema.package.1 = .ok p ∧
      ∃ c ∈ p.classes, c.attributes.map (·.name) = ["meta", "meta"] ∧
        c.methods.map (·.name) = ["load", "get_available_subresources", "load", "reload"] ∧
        ¬ c.DeclaresOnce := by
  have hcheck : metaSchema.package.1.toOption.any fun p => p.classes.any fun c =>
      c.attributes.map (·.name) = ["meta", "meta"] &&
        c.methods.map (·.name) = ["load", "get_available_subresources", "load", "reload"] := by
    decide +kernel
  obtain ⟨p, hp, hchecked⟩ := exists_of_any hcheck
  simp only [List.any_eq_true, Bool.and_eq_true, decide_eq_true_eq] at hchecked
  obtain ⟨c, hc, hattributes, hmethods⟩ := hchecked
  refine ⟨by decide +kernel, p, hp, c, hc, hattributes, hmethods, fun honce => ?_⟩
  have hnodup := hattributes ▸ honce.attributes
  revert hnodup
  decide

end ServiceStubs
