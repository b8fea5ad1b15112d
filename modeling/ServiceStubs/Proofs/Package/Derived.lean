import ServiceStubs.Proofs.Package.Calls
import ServiceStubs.Proofs.Session.Derived

/-!
# Derived methods agree with the client

Whatever else a session was asked for, and in whatever order: the methods that
paginators, waiters, actions and collections have for an operation take the
arguments of the client's method for it, those apart which they fill, and return
what it returns.

## Main definitions

* `Service.Derived` — what the other methods for an operation are, by the client's.
* `Service.derived_of_clientMethod` — they are so in every session.
-/

namespace ServiceStubs

open Text (snakeCase)

namespace Service

variable {svc : Service} {s t u : Session} {name : String} {o : Schema.Operation}
  {as : List Argument} {type : TypeExpr}

variable (svc) in
/-- The methods for an operation that are made on the way to the session `u`, when the
client's method takes `as` by name and returns `type`.  All of them have a part of
`as`, in its order; paginators and waiters have their settings after it. -/
structure Derived (u : Session) (name : String) (o : Schema.Operation) (as : List Argument)
    (type : TypeExpr) : Prop where
  paginate : ∀ rule t, svc.schema.paginator name = .ok rule →
    svc.Runs t (svc.paginateMethod name) u →
      ∃ settings, u.fixed.find? FixedDict.paginatorConfig.name = some settings ∧
        (svc.paginateMethod name).outcome t = .ok (.method "paginate"
          (.keywordMark :: (without (pagingInputs rule) as ++
            [.optional "PaginationConfig" (.dict settings)])) (.iteratorOf type))
  wait : ∀ waiter rule t, svc.schema.waiter waiter = .ok rule → rule.operation = name →
    svc.Runs t (svc.waitMethod waiter) u →
      ∃ settings, u.fixed.find? FixedDict.waiterConfig.name = some settings ∧
        (svc.waitMethod waiter).outcome t = .ok (.method "wait"
          (.keywordMark :: (as ++ [.optional "WaiterConfig" (.dict settings)])) .none)
  action : ∀ method a request yielded t, a.request = some request → request.operation = name →
    a.resource.mapM svc.targetType = .ok yielded → svc.Runs t (svc.actionOf method a) u →
      (svc.actionOf method a).outcome t = .ok (.method (snakeCase method)
        (keywordOnly (without request.identifierTargets as))
        (if o.output.isSome then type else yielded.getD type))
  actionMethod : ∀ owner method a request yielded t,
    owner.action svc.schema.serviceName method = .ok a → a.request = some request →
    request.operation = name → a.resource.mapM svc.targetType = .ok yielded →
    svc.Runs t (svc.actionMethod owner method) u →
      (svc.actionMethod owner method).outcome t = .ok (.method (snakeCase method)
        (keywordOnly (without request.identifierTargets as))
        (if o.output.isSome then type else yielded.getD type))
  batch : ∀ method a request t, a.request = some request → request.operation = name →
    svc.Runs t (svc.batchMethod method a) u →
      (svc.batchMethod method a).outcome t = .ok (.method (snakeCase method)
        (keywordOnly (without request.identifierTargets as)) (.listOf type))
  filter : ∀ relation self request t, relation.request = some request →
    request.operation = name → svc.Runs t (svc.filterMethod relation self) u →
      (svc.filterMethod relation self).outcome t = .ok (.method "filter"
        (keywordOnly (without request.identifierTargets as)) self)
  resourceWait : ∀ waiter w rule t, svc.schema.waiter w.waiterName = .ok rule →
    rule.operation = name → svc.Runs t (svc.resourceWaitMethod waiter w) u →
      ∃ settings, u.fixed.find? FixedDict.waiterConfig.name = some settings ∧
        (svc.resourceWaitMethod waiter w).outcome t = .ok (.method
          ("wait_until_" ++ snakeCase waiter)
          (.keywordMark :: (without (w.params.map (·.target)) as ++
            [.optional "WaiterConfig" (.dict settings)])) .none)

/-! ## Settings -/

/-- Settings that a step asks for are there at the end. -/
theorem yields_settings (hs : s.Valid) (d : FixedDict) :
    SessionM.Yields svc s (Session.fixedDict d)
      fun t _ => ∃ ref, t.fixed.find? d.name = some ref := by
  obtain ⟨ref, -, hfind⟩ := Session.find?_fixedDict d s
  exact ⟨(yields_fixedDict hs d).leads, ref, hfind⟩

theorem yields_paginateSettings (hs : s.Valid) (name : String) :
    Build.Yields svc s (svc.paginateMethod name)
      fun t _ => ∃ ref, t.fixed.find? FixedDict.paginatorConfig.name = some ref := by
  unfold paginateMethod
  refine .ofExcept_bind fun rule _ => .ofExcept_bind fun o _ => ?_
  refine .lift_bind (yields_keywordArguments hs name o _) hs fun t as ht _ _ => ?_
  refine .lift_bind (yields_settings ht .paginatorConfig) ht fun u settings hu _ hfind => ?_
  exact .lift_bind (yields_returnType hu o) hu fun v type _ huv _ =>
    .pure (hfind.imp fun ref href => huv.fixed _ ref href)

theorem yields_waitSettings (hs : s.Valid) (name operation : String) (o : Schema.Operation)
    (exclude : List String) : SessionM.Yields svc s (svc.waitOn name operation o exclude)
      fun t _ => ∃ ref, t.fixed.find? FixedDict.waiterConfig.name = some ref := by
  unfold waitOn
  refine (yields_keywordArguments hs operation o exclude).bind hs fun t as ht _ _ => ?_
  exact (yields_settings ht .waiterConfig).bind ht fun u settings _ _ hfind => .pure hfind

/-! ## Methods of one session -/

variable (svc) in
/-- What the operation takes and returns in every session is known to the session `u`
as `as` and `type`. -/
structure Offers (u : Session) (name : String) (o : Schema.Operation) (as : List Argument)
    (type : TypeExpr) : Prop where
  declared : svc.operation name = .ok o
  provides : svc.Provides name o as type
  valid : u.Valid
  arguments : svc.Typed u [] as
  returns : svc.Known u type

theorem subset_keywordOnly (as : List Argument) : as ⊆ keywordOnly as := by
  cases as with
  | nil => exact List.nil_subset _
  | cons a as => exact List.subset_cons_self _ _

/-- The client's method tells what the operation offers. -/
theorem exists_offers (ho : svc.operation name = .ok o)
    (hruns : svc.Runs s (svc.clientMethod name) u) :
    ∃ f as, (svc.clientMethod name).outcome s = .ok f ∧ f.arguments = .self :: keywordOnly as ∧
      svc.Offers u name o as f.returnType := by
  obtain ⟨f, as, hf, harguments, hprovides⟩ := exists_provides ho hruns.valid
  have hyields : Build.Yields svc s (svc.clientMethod name) (svc.Typed · []) :=
    yields_clientMethod hruns.valid name
  obtain ⟨returned, hcons⟩ := hruns.consistent hyields
  obtain ⟨htyped, htype, -⟩ := typed_function_iff.mp (hruns.typed hyields hf)
  have has : svc.Typed u [] as := by
    rw [harguments] at htyped
    exact (typed_cons.mp htyped).2.of_subset (subset_keywordOnly as)
  exact ⟨f, as, hf, harguments, ho, hprovides, hcons.valid, has,
    known_of_typed (typed_typeExpr.mpr htype)⟩

namespace Offers

variable {t : Session}

/-- A method that takes by name what is not filled is known. -/
theorem typed_method (h : svc.Offers u name o as type) {result : TypeExpr}
    (hresult : svc.Known u result) (method : String) (exclude : List String) :
    svc.Typed u [] (FunctionStub.method method (keywordOnly (without exclude as)) result) :=
  Service.typed_method.mpr ⟨(h.arguments.without exclude).keywordOnly, .inr hresult⟩

/-- So is one that takes settings after it. -/
theorem typed_settingsMethod (h : svc.Offers u name o as type) {result : TypeExpr}
    (hresult : svc.Known u result) {d : FixedDict} {settings : DictRef}
    (hsettings : u.fixed.find? d.name = some settings) (method config : String)
    (exclude : List String) : svc.Typed u [] (FunctionStub.method method
      (.keywordMark :: (without exclude as ++ [.optional config (.dict settings)])) result) := by
  have hconfig : svc.Typed u [] (Argument.optional config (.dict settings)) :=
    (typed_optional _ _).mpr (.inr ((known_dict _).mpr (h.valid.has_fixed hsettings)))
  have hrest : svc.Typed u [] (without exclude as) := h.arguments.without exclude
  simp [hrest, hconfig, hresult]

theorem paginate (h : svc.Offers u name o as type) {rule : Schema.PagingRule}
    (hrule : svc.schema.paginator name = .ok rule) (ht : svc.Runs t (svc.paginateMethod name) u) :
    ∃ settings, u.fixed.find? FixedDict.paginatorConfig.name = some settings ∧
      (svc.paginateMethod name).outcome t = .ok (.method "paginate"
        (.keywordMark :: (without (pagingInputs rule) as ++
          [.optional "PaginationConfig" (.dict settings)])) (.iteratorOf type)) := by
  have hyields : Build.Yields svc t (svc.paginateMethod name) (svc.Typed · []) :=
    yields_paginateMethod ht.valid name
  have hplan : (svc.paginateMethodPlan name).succeeds :=
    Plan.succeeds_lookup.mpr ⟨rule, hrule, Plan.succeeds_lookup.mpr ⟨o, h.declared, rfl⟩⟩
  obtain ⟨f, hf⟩ := ((follows_paginateMethod svc name).succeeds t).mpr hplan
  obtain ⟨settings, hfind⟩ := (yields_paginateSettings ht.valid name).holds f hf
  have hsettings := (ht.grows hyields).fixed _ settings hfind
  refine ⟨settings, hsettings, outcome_eq_of_always ?_ hyields ht ?_⟩
  · exact h.provides.always_paginateMethod hrule h.declared (h.valid.fixed _ settings hsettings).1
  · exact h.typed_settingsMethod ((known_iteratorOf type).mpr h.returns) hsettings _ _ _

/-- A method that waits takes what is not filled, and then its settings. -/
theorem waitOn (h : svc.Offers u name o as type) {m : Build FunctionStub} {method : String}
    {exclude : List String} (hm : m = liftM (svc.waitOn method name o exclude))
    (ht : svc.Runs t m u) :
    ∃ settings, u.fixed.find? FixedDict.waiterConfig.name = some settings ∧
      m.outcome t = .ok (.method method (.keywordMark :: (without exclude as ++
        [.optional "WaiterConfig" (.dict settings)])) .none) := by
  subst hm
  have hyields : Build.Yields svc t (liftM (svc.waitOn method name o exclude)) (svc.Typed · []) :=
    .lift (yields_waitOn ht.valid method name o exclude)
  obtain ⟨settings, hfind⟩ := (yields_waitSettings ht.valid method name o exclude).holds
  have hsettings := (ht.grows hyields).fixed _ settings hfind
  refine ⟨settings, hsettings, outcome_eq_of_always ?_ hyields ht ?_⟩
  · exact .lift (h.provides.always_waitOn method exclude (h.valid.fixed _ settings hsettings).1)
  · exact h.typed_settingsMethod known_none hsettings method _ _

theorem action (h : svc.Offers u name o as type) {a : Schema.Action} {request : Schema.Request}
    {yielded : Option TypeExpr} {method : String} (hrequest : a.request = some request)
    (hname : request.operation = name) (hyielded : a.resource.mapM svc.targetType = .ok yielded)
    (ht : svc.Runs t (svc.actionOf method a) u) :
    (svc.actionOf method a).outcome t = .ok (.method (snakeCase method)
      (keywordOnly (without request.identifierTargets as))
      (if o.output.isSome then type else yielded.getD type)) := by
  have hresult : svc.Known u (if o.output.isSome then type else yielded.getD type) := by
    split
    · exact h.returns
    · cases hresource : yielded with
      | none => exact h.returns
      | some resource => exact known_yielded hyielded resource hresource
  exact outcome_eq_of_always (h.provides.always_actionOf h.declared hrequest hname hyielded method)
    (yields_actionOf ht.valid method a) ht (h.typed_method hresult _ _)

theorem batch (h : svc.Offers u name o as type) {a : Schema.Action} {request : Schema.Request}
    {method : String} (hrequest : a.request = some request) (hname : request.operation = name)
    (ht : svc.Runs t (svc.batchMethod method a) u) :
    (svc.batchMethod method a).outcome t = .ok (.method (snakeCase method)
      (keywordOnly (without request.identifierTargets as)) (.listOf type)) :=
  outcome_eq_of_always (h.provides.always_batchMethod h.declared hrequest hname method)
    (yields_batchMethod ht.valid method a) ht
    (h.typed_method ((known_listOf _).mpr h.returns) _ _)

/-- Whatever type stands for the collection itself, its method takes what is not
filled. -/
theorem filter (h : svc.Offers u name o as type) {relation : Schema.Action}
    {request : Schema.Request} {self : TypeExpr} (hrequest : relation.request = some request)
    (hname : request.operation = name) (ht : svc.Runs t (svc.filterMethod relation self) u) :
    (svc.filterMethod relation self).outcome t =
      .ok (.method "filter" (keywordOnly (without request.identifierTargets as)) self) := by
  have hyields : Build.Yields svc t (svc.filterMethod relation self) (svc.Typed · [self]) :=
    yields_filterMethod ht.valid relation self
  have harguments : SessionM.Yields svc t
      (svc.keywordArguments name o request.identifierTargets) (svc.Typed · []) :=
    yields_keywordArguments ht.valid name o request.identifierTargets
  obtain ⟨returned, hcons⟩ := ht.consistent hyields
  have hgrows := ht.grows hyields
  -- The type of the collection may be anything, so the arguments alone are compared.
  rw [filterMethod_eq hrequest hname h.declared] at hgrows ⊢
  have halike := (h.provides.arguments request.identifierTargets t ht.valid).2
  have hsame := hcons.arguments_eq_of_alike (harguments.holds.mono hgrows)
    (h.arguments.without _).keywordOnly halike
  exact congrArg (fun as => Except.ok (FunctionStub.method "filter" as self)) hsame

end Offers

/-- **In one session every method for an operation agrees with the client's method
for it**: it takes the client's arguments, those apart that it fills, and returns what
the client returns, whenever each of them is made. -/
theorem derived_of_clientMethod (ho : svc.operation name = .ok o)
    (hruns : svc.Runs s (svc.clientMethod name) u) :
    ∃ f as, (svc.clientMethod name).outcome s = .ok f ∧ f.arguments = .self :: keywordOnly as ∧
      svc.Derived u name o as f.returnType := by
  obtain ⟨f, as, hf, harguments, h⟩ := exists_offers ho hruns
  refine ⟨f, as, hf, harguments, ?_, ?_, ?_, ?_, ?_, ?_, ?_⟩
  · intro rule t hrule ht
    exact h.paginate hrule ht
  · intro waiter rule t hrule hname ht
    simpa using h.waitOn (waitMethod_eq hrule hname ho) ht
  · intro method a request yielded t hrequest hname hyielded ht
    exact h.action hrequest hname hyielded ht
  · intro owner method a request yielded t ha hrequest hname hyielded ht
    rw [actionMethod_eq ha] at ht ⊢
    exact h.action hrequest hname hyielded ht
  · intro method a request t hrequest hname ht
    exact h.batch hrequest hname ht
  · intro relation self request t hrequest hname ht
    exact h.filter hrequest hname ht
  · intro waiter w rule t hrule hname ht
    exact h.waitOn (resourceWaitMethod_eq hrule hname ho waiter) ht

/-! ## Calls -/

/-- A call that takes a step takes it on the way to the session after all calls. -/
theorem runs_of_call (svc : Service) {α : Type} {m : Build α} (before : List Call) (c : Call)
    (later : List Call) (hm : svc.after (svc.afterAll before) c = m.state (svc.afterAll before)) :
    svc.Runs (svc.afterAll before) m (svc.afterAll (before ++ c :: later)) := by
  obtain ⟨rs, hrs, -⟩ := svc.requests_of_calls {} before
  obtain ⟨rs', hrs', -⟩ := svc.requests_of_calls (m.state (svc.afterAll before)) later
  refine ⟨⟨rs, hrs⟩, rs', ?_⟩
  rw [hrs', afterAll_append, List.foldl_cons, hm]

end Service

/-- Boxes are paged through before the client lists them, and waited for after that. -/
theorem boxSchema_derived :
    ∃ f as settings waiting,
      ((Service.ofSchema boxSchema).clientMethod "ListBoxes").outcome
          ((Service.ofSchema boxSchema).afterAll [.paginateMethod "ListBoxes"]) = .ok f ∧
        f.arguments = .self :: keywordOnly as ∧
      ((Service.ofSchema boxSchema).paginateMethod "ListBoxes").outcome {} = .ok (.method "paginate"
        (.keywordMark :: (without ["Limit"] as ++
          [.optional "PaginationConfig" (.dict settings)])) (.iteratorOf f.returnType)) ∧
      ((Service.ofSchema boxSchema).waitMethod "BoxGone").outcome
          ((Service.ofSchema boxSchema).afterAll
            [.paginateMethod "ListBoxes", .clientMethod "ListBoxes"]) = .ok (.method "wait"
        (.keywordMark :: (as ++ [.optional "WaiterConfig" (.dict waiting)])) .none) := by
  set svc := Service.ofSchema boxSchema
  obtain ⟨o, ho⟩ : ∃ o, svc.operation "ListBoxes" = .ok o := ⟨_, rfl⟩
  obtain ⟨f, as, hf, harguments, hderived⟩ := Service.derived_of_clientMethod ho
    (svc.runs_of_call [.paginateMethod "ListBoxes"] (.clientMethod "ListBoxes")
      [.waitMethod "BoxGone"] rfl)
  obtain ⟨settings, -, hpaginate⟩ := hderived.paginate { inputToken := .single "Limit" } {} rfl
    (svc.runs_of_call [] (.paginateMethod "ListBoxes")
      [.clientMethod "ListBoxes", .waitMethod "BoxGone"] rfl)
  obtain ⟨waiting, -, hwait⟩ := hderived.wait "BoxGone" { operation := "ListBoxes" } _ rfl rfl
    (svc.runs_of_call [.paginateMethod "ListBoxes", .clientMethod "ListBoxes"]
      (.waitMethod "BoxGone") [] rfl)
  exact ⟨f, as, settings, waiting, hf, harguments, hpaginate, hwait⟩

end ServiceStubs
