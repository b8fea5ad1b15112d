import ServiceStubs.Proofs.Declaration.Typed
import ServiceStubs.Proofs.Schema.Lookup
import ServiceStubs.Proofs.Session.Yields
import ServiceStubs.Session.Methods

/-!
# Methods have known types

The methods of a schema are made by requests to the session, whether or not they
fail, and those that are made are annotated with types that the session knows.

## Main definitions

* `Service.yields_arguments`, `Service.yields_keywordArguments` — arguments.
* `Service.yields_clientMethod` and its kin — each kind of method.
* `Service.yields_resourceAttributes` — the attributes of a resource.
-/

namespace ServiceStubs.Service

variable {svc : Service} {s : Session} {own : List TypeExpr}

open Text (snakeCase)

/-! ## Lists -/

section Lists

variable {α β : Type} [Annotated β] {as : List α}

theorem typed_of_forall₂ {t : Session} {bs : List β}
    (h : List.Forall₂ (fun _ b => svc.Typed t own b) as bs) : svc.Typed t own bs := by
  induction h with
  | nil => exact typed_nil
  | cons hb _ ih => exact typed_cons.mpr ⟨hb, ih⟩

/-- A list is typed when each of its elements is. -/
theorem yields_mapM {f : α → SessionM β} (hs : s.Valid)
    (hf : ∀ a ∈ as, ∀ t, t.Valid → s.Grows t → SessionM.Yields svc t (f a) (svc.Typed · own)) :
    SessionM.Yields svc s (as.mapM f) (svc.Typed · own) :=
  (SessionM.Yields.mapM hs (fun _ _ _ _ htu h => h.mono htu) hf).imp fun _ _ => typed_of_forall₂

theorem yields_build_mapM {f : α → Build β} (hs : s.Valid)
    (hf : ∀ a ∈ as, ∀ t, t.Valid → s.Grows t → Build.Yields svc t (f a) (svc.Typed · own)) :
    Build.Yields svc s (as.mapM f) (svc.Typed · own) :=
  (Build.Yields.mapM hs (fun _ _ _ _ htu h => h.mono htu) hf).imp fun _ _ => typed_of_forall₂

end Lists

/-! ## Arguments -/

theorem yields_specialType (hs : s.Valid) (k : SpecialType) :
    SessionM.Yields svc s (Session.specialType k) fun t a => svc.Known t a := by
  cases k with
  | body => exact .pure known_blobInput
  | copySource =>
      refine (yields_fixedDict hs .copySource).bind hs fun t a _ _ ha => .pure ?_
      simpa [TypeExpr.unionOf] using ha

theorem yields_argument (hs : s.Valid) (operation : String) (shape : Schema.Shape)
    (member : String × Schema.ShapeRef) :
    SessionM.Yields svc s (svc.argument operation shape member) (svc.Typed · []) := by
  have htyped : ∀ (t : Session) (type : TypeExpr), svc.Known t type →
      svc.Typed t [] (if shape.isRequired member.1 then Argument.needed member.1 type
        else .optional member.1 type) := by
    intro t type htype
    split <;> simp [htype]
  unfold argument
  dsimp only
  split
  · exact (yields_specialType hs _).bind hs fun t type _ _ htype => .pure (htyped t type htype)
  · exact (yields_memberType hs .input member.2).bind hs fun t type _ _ htype =>
      .pure (htyped t type htype)

theorem yields_arguments (hs : s.Valid) (operation : String) (input : Schema.ShapeRef)
    (exclude : List String) :
    SessionM.Yields svc s (svc.arguments operation input exclude) (svc.Typed · []) := by
  unfold arguments
  split
  · exact .pure typed_nil
  · next shape _ =>
      refine (yields_mapM hs fun m _ t ht _ => yields_argument ht operation shape m).bind hs
        fun t as _ _ has => .pure ?_
      rwa [typed_requiredFirst]

theorem yields_keywordArguments (hs : s.Valid) (name : String) (o : Schema.Operation)
    (exclude : List String) :
    SessionM.Yields svc s (svc.keywordArguments name o exclude) (svc.Typed · []) := by
  unfold keywordArguments
  split
  · exact .pure typed_nil
  · next input _ =>
      exact (yields_arguments hs name input exclude).bind hs fun t as _ _ has =>
        .pure has.keywordOnly

/-! ## Methods of the low-level service -/

theorem yields_clientMethod (hs : s.Valid) (name : String) :
    Build.Yields svc s (svc.clientMethod name) (svc.Typed · []) := by
  unfold clientMethod
  refine .ofExcept_bind fun o _ => ?_
  refine .lift_bind (yields_keywordArguments hs name o []) hs fun t as ht _ has => ?_
  refine .lift_bind (yields_returnType ht o) ht fun u type _ htu htype => .pure ?_
  have hmethod : svc.Typed u [] (FunctionStub.method (snakeCase name) as type) :=
    typed_method.mpr ⟨has.mono htu, .inr htype⟩
  exact typed_function_iff.mpr (typed_function_iff.mp hmethod)

theorem yields_clientMethods (hs : s.Valid) :
    Build.Yields svc s svc.clientMethods (svc.Typed · []) :=
  yields_build_mapM hs fun name _ _ ht _ => yields_clientMethod ht name

theorem yields_paginateMethod (hs : s.Valid) (name : String) :
    Build.Yields svc s (svc.paginateMethod name) (svc.Typed · []) := by
  unfold paginateMethod
  refine .ofExcept_bind fun rule _ => .ofExcept_bind fun o _ => ?_
  refine .lift_bind (yields_keywordArguments hs name o _) hs fun t as ht _ has => ?_
  refine .lift_bind (yields_fixedDict ht .paginatorConfig) ht fun u settings hu htu hset => ?_
  refine .lift_bind (yields_returnType hu o) hu fun v type _ huv htype => .pure ?_
  rw [typed_method]
  refine ⟨((has.mono htu).mono huv).addKeyword ?_, .inr ((known_iteratorOf type).mpr htype)⟩
  exact (typed_optional _ settings).mpr (.inr (hset.mono fun _ hr => huv.has hr))

theorem yields_waitOn (hs : s.Valid) (name operation : String) (o : Schema.Operation)
    (exclude : List String) :
    SessionM.Yields svc s (svc.waitOn name operation o exclude) (svc.Typed · []) := by
  unfold waitOn
  refine (yields_keywordArguments hs operation o exclude).bind hs fun t as ht _ has => ?_
  refine (yields_fixedDict ht .waiterConfig).bind ht fun u settings _ htu hset => .pure ?_
  rw [typed_method]
  exact ⟨(has.mono htu).addKeyword ((typed_optional _ settings).mpr (.inr hset)), .inr known_none⟩

theorem yields_waitMethod (hs : s.Valid) (name : String) :
    Build.Yields svc s (svc.waitMethod name) (svc.Typed · []) := by
  unfold waitMethod
  exact .ofExcept_bind fun rule _ => .ofExcept_bind fun o _ =>
    .lift (yields_waitOn hs "wait" rule.operation o [])

/-! ## Methods of resources -/

/-- A resource that something yields is declared. -/
theorem known_targetType {target : Schema.ResourceTarget} {type : TypeExpr}
    (h : svc.targetType target = .ok type) : svc.Known s type := by
  obtain ⟨_, hmodel, h⟩ := bind_eq_ok_iff.mp h
  obtain ⟨model, hmodel, -⟩ : ∃ model, svc.schema.resource target.type = .ok model ∧ _ :=
    bind_eq_ok_iff.mp hmodel
  have hknown : svc.Known s (.resource target.type) :=
    known_resource (Schema.exists_resource_iff.mp ⟨model, hmodel⟩)
  obtain rfl := Except.ok.inj h
  split
  · exact (known_listOf _).mpr hknown
  · exact hknown

theorem known_yielded {target : Option Schema.ResourceTarget} {yielded : Option TypeExpr}
    (h : target.mapM svc.targetType = .ok yielded) : ∀ type ∈ yielded, svc.Known s type := by
  cases target with
  | none =>
      obtain rfl := Except.ok.inj h
      nofun
  | some target =>
      obtain ⟨type, htype, h⟩ := bind_eq_ok_iff.mp h
      obtain rfl := Except.ok.inj h
      rintro _ ⟨⟩
      exact known_targetType htype

theorem yields_actionOf (hs : s.Valid) (name : String) (a : Schema.Action) :
    Build.Yields svc s (svc.actionOf name a) (svc.Typed · []) := by
  unfold actionOf
  refine .ofExcept_bind fun yielded hyielded => ?_
  split
  · refine .pure (typed_method.mpr ⟨typed_nil, .inr ?_⟩)
    cases yielded with
    | none => exact known_none
    | some type => exact known_yielded hyielded type rfl
  · next request _ =>
      refine .ofExcept_bind fun o _ => ?_
      refine .lift_bind (yields_keywordArguments hs request.operation o _) hs
        fun t as ht _ has => ?_
      dsimp only
      split
      · next type _ =>
          exact .pure (typed_method.mpr ⟨has, .inr (known_yielded hyielded type rfl)⟩)
      · exact .lift_bind (yields_returnType ht o) ht fun u type _ htu htype =>
          .pure (typed_method.mpr ⟨has.mono htu, .inr htype⟩)

theorem yields_actionMethod (hs : s.Valid) (owner : Schema.ResourceModel) (name : String) :
    Build.Yields svc s (svc.actionMethod owner name) (svc.Typed · []) := by
  unfold actionMethod
  exact .ofExcept_bind fun a _ => yields_actionOf hs name a

theorem yields_batchMethod (hs : s.Valid) (name : String) (a : Schema.Action) :
    Build.Yields svc s (svc.batchMethod name a) (svc.Typed · []) := by
  unfold batchMethod
  split
  · exact .throw _
  · next request _ =>
      refine .ofExcept_bind fun o _ => ?_
      refine .lift_bind (yields_keywordArguments hs request.operation o _) hs
        fun t as ht _ has => ?_
      exact .lift_bind (yields_returnType ht o) ht fun u type _ htu htype =>
        .pure (typed_method.mpr ⟨has.mono htu, .inr ((known_listOf type).mpr htype)⟩)

/-- A relation makes no request at all. -/
theorem typed_relationMethod {name : String} {target : Schema.ResourceTarget} {f : FunctionStub}
    (h : svc.relationMethod name target = .ok f) : svc.Typed s [] f := by
  obtain ⟨type, htype, h⟩ := bind_eq_ok_iff.mp h
  obtain rfl := Except.ok.inj h
  refine typed_method.mpr ⟨typed_list_iff.mpr fun a ha => ?_, .inr (known_targetType htype)⟩
  obtain ⟨p, -, rfl⟩ := List.mem_map.mp ha
  exact (typed_needed _ .str).mpr (.inr known_str)

theorem yields_filterMethod (hs : s.Valid) (relation : Schema.Action) (self : TypeExpr) :
    Build.Yields svc s (svc.filterMethod relation self) (svc.Typed · [self]) := by
  unfold filterMethod
  split
  · exact .pure (typed_method.mpr ⟨typed_nil, .inl List.mem_cons_self⟩)
  · next request _ =>
      refine .ofExcept_bind fun o _ => ?_
      exact .lift_bind (yields_keywordArguments hs request.operation o _) hs
        fun t as _ _ has => .pure (typed_method.mpr
          ⟨has.subset (List.nil_subset _), .inl List.mem_cons_self⟩)

theorem yields_resourceWaitMethod (hs : s.Valid) (name : String) (w : Schema.ResourceWaiter) :
    Build.Yields svc s (svc.resourceWaitMethod name w) (svc.Typed · []) := by
  unfold resourceWaitMethod
  exact .ofExcept_bind fun rule _ => .ofExcept_bind fun o _ =>
    .lift (yields_waitOn hs _ rule.operation o _)

/-! ## Attributes of resources -/

theorem yields_addMemberAttribute (hs : s.Valid) {as : List Attribute}
    (has : svc.Typed s [] as) (member : String × Schema.ShapeRef) :
    SessionM.Yields svc s (svc.addMemberAttribute as member) (svc.Typed · []) := by
  unfold addMemberAttribute
  split
  · exact .pure has
  · exact (yields_memberType hs .output member.2).bind hs fun t type _ hst htype =>
      .pure (typed_append.mpr ⟨has.mono hst, by simpa using htype⟩)

theorem yields_resourceAttributes (hs : s.Valid) (r : Schema.ResourceModel) :
    SessionM.Yields svc s (svc.resourceAttributes r) (svc.Typed · []) := by
  have hidentifiers : svc.Typed s [] (identifierAttributes r) := by
    refine typed_list_iff.mpr fun a ha => ?_
    obtain ⟨i, -, rfl⟩ := List.mem_map.mp ha
    exact typed_attribute.mpr (.inr known_str)
  unfold resourceAttributes
  split
  · exact .pure hidentifiers
  · next shape _ =>
      generalize identifierAttributes r = as at hidentifiers
      induction shape.members.entries generalizing s as with
      | nil => exact .pure hidentifiers
      | cons m ms ih =>
          rw [List.foldlM_cons]
          exact (yields_addMemberAttribute hs hidentifiers m).bind hs
            fun t as ht _ has => ih ht as has

end ServiceStubs.Service
