import ServiceStubs.Proofs.Session.Methods
import ServiceStubs.Proofs.Session.Sameness
import ServiceStubs.Proofs.Session.Signatures

/-!
# Methods that derive from the client's

The low-level client has one method for every operation.  Paginators, waiters and
resources have methods of their own for the same operation, which leave out the
inputs that they fill and add their settings.  In one session these methods take
what the client's method takes, the same arguments in the same order, though they
are made apart from it, at other times, and though they drop inputs before and not
after the required ones are put first.

## Main definitions

* `without` — arguments, some of which are dropped.
* `Service.Provides` — what an operation takes and returns, in any session.
* `Service.always_paginateMethod` and its kin — each kind of method.
-/

namespace ServiceStubs

open Text (snakeCase)

/-- The arguments that are not called by one of the names. -/
def without (names : List String) (as : List Argument) : List Argument :=
  as.filter fun a => !names.contains a.name

@[simp] theorem without_nil (as : List Argument) : without [] as = as := by
  simp [without]

/-- Dropping arguments keeps the required ones first. -/
theorem without_requiredFirst (names : List String) (as : List Argument) :
    without names (requiredFirst as) = requiredFirst (without names as) := by
  simp only [without, requiredFirst, List.filter_append, List.filter_filter, Bool.and_comm]

namespace Service

variable {svc : Service} {s t : Session}

theorem Typed.without {as : List Argument} (h : svc.Typed s [] as) (names : List String) :
    svc.Typed s [] (without names as) :=
  h.of_subset List.filter_sublist.subset

/-! ## Arguments -/

section Arguments

variable (svc)

/-- The arguments for some members are the like of those for all members, made in
another session, when the others are dropped. -/
theorem alike_mapM_argument (operation : String) (shape : Schema.Shape) (exclude : List String)
    (members : List (String × Schema.ShapeRef)) (hs : s.Valid) (ht : t.Valid) :
    (((members.filter (!exclude.contains ·.1)).mapM (svc.argument operation shape)).state t).Valid ∧
      Alike (((members.filter (!exclude.contains ·.1)).mapM (svc.argument operation shape)).val t)
        (without exclude ((members.mapM (svc.argument operation shape)).val s)) := by
  induction members generalizing s t with
  | nil => exact ⟨ht, .refl []⟩
  | cons m ms ih =>
      obtain ⟨ht', hs', halike⟩ := svc.agree_argument operation shape m t s ht hs
      have hname : ((svc.argument operation shape m).val s).name = m.1 := (name_argument ⟨s, rfl⟩).1
      rw [List.mapM_cons]
      by_cases hmember : exclude.contains m.1
      · -- A member that is left out is asked for in the session `s` only.
        rw [List.filter_cons_of_neg (by simpa using hmember)]
        have hdropped : ∀ bs, without exclude ((svc.argument operation shape m).val s :: bs) =
            without exclude bs := fun bs =>
          List.filter_cons_of_neg (by simpa [hname] using hmember)
        simpa [hdropped] using ih hs' ht
      · rw [List.filter_cons_of_pos (by simpa using hmember), List.mapM_cons]
        have hkept : ∀ bs, without exclude ((svc.argument operation shape m).val s :: bs) =
            (svc.argument operation shape m).val s :: without exclude bs := fun bs =>
          List.filter_cons_of_pos (by simpa [hname] using hmember)
        obtain ⟨hvalid, hrest⟩ := ih hs' ht'
        exact ⟨by simpa using hvalid, by simpa [hkept] using halike.cons hrest⟩

/-- **Whatever is left out, an operation takes the like of the arguments that it
takes in any one session.** -/
theorem always_arguments (operation : String) (input : Schema.ShapeRef) (exclude : List String)
    (hs : s.Valid) : SessionM.Always (svc.arguments operation input exclude)
      (without exclude ((svc.arguments operation input []).val s)) := by
  intro t ht
  unfold arguments
  split
  · exact ⟨ht, .refl []⟩
  · next shape _ =>
      obtain ⟨hvalid, halike⟩ :=
        svc.alike_mapM_argument operation shape exclude shape.members.entries hs ht
      refine ⟨hvalid, ?_⟩
      simpa [without_requiredFirst] using halike.requiredFirst

end Arguments

/-! ## Operations -/

variable (svc) in
/-- In every session the operation takes the like of `as`, or of those of them that
are not left out, and returns the like of `type`. -/
structure Provides (name : String) (o : Schema.Operation) (as : List Argument)
    (type : TypeExpr) : Prop where
  arguments : ∀ exclude, SessionM.Always (svc.keywordArguments name o exclude)
    (keywordOnly (without exclude as))
  returns : SessionM.Always (svc.returnType o) type

/-- What the client's method for an operation takes and returns in some session is
provided in every session. -/
theorem exists_provides {name : String} {o : Schema.Operation} (ho : svc.operation name = .ok o)
    (hs : s.Valid) : ∃ f as, (svc.clientMethod name).outcome s = .ok f ∧
      f.arguments = .self :: keywordOnly as ∧ svc.Provides name o as f.returnType := by
  have hclient : ∃ f, (svc.clientMethod name).outcome s = .ok f ∧
      f.arguments = .self :: (svc.keywordArguments name o []).val s ∧
      f.returnType = (svc.returnType o).val ((svc.keywordArguments name o []).state s) := by
    unfold clientMethod
    rw [ho]
    exact ⟨_, rfl, rfl, rfl⟩
  obtain ⟨f, hf, harguments, hreturn⟩ := hclient
  have hvalid := (svc.agree_keywordArguments name o [] s s hs hs).1
  have hreturns : SessionM.Always (svc.returnType o) f.returnType := by
    rw [hreturn]
    exact (svc.agree_returnType o).always hvalid
  cases hinput : o.input with
  | none =>
      refine ⟨f, [], hf, ?_, fun exclude t ht => ?_, hreturns⟩
      · simpa [keywordArguments, hinput, keywordOnly] using harguments
      · simpa [keywordArguments, hinput, keywordOnly] using ⟨ht, .refl []⟩
  | some input =>
      refine ⟨f, (svc.arguments name input []).val s, hf, ?_, fun exclude t ht => ?_, hreturns⟩
      · simpa [keywordArguments, hinput] using harguments
      · obtain ⟨hvalid, halike⟩ := svc.always_arguments name input exclude hs t ht
        simpa [keywordArguments, hinput] using ⟨hvalid, halike.keywordOnly⟩

namespace Provides

variable {name : String} {o : Schema.Operation} {as : List Argument} {type : TypeExpr}

/-! ## Methods of the low-level service -/

/-- A paginator's method takes what is not filled, and then its settings. -/
theorem always_paginateMethod (h : svc.Provides name o as type) {rule : Schema.PagingRule}
    (hrule : svc.schema.paginator name = .ok rule) (ho : svc.operation name = .ok o)
    {settings : DictRef} (hsettings : settings.name = FixedDict.paginatorConfig.name) :
    Build.Always (svc.paginateMethod name)
      (.method "paginate" (.keywordMark :: (without (pagingInputs rule) as ++
        [.optional "PaginationConfig" (.dict settings)])) (.iteratorOf type)) := by
  unfold paginateMethod
  refine .ofExcept_bind hrule (.ofExcept_bind ho ?_)
  refine .lift_bind (h.arguments _) fun bs hbs => ?_
  refine .lift_bind (always_fixedDict hsettings) fun settings hset => ?_
  refine .lift_bind h.returns fun type' htype => .pure ?_
  have harguments := hbs.addKeyword (hset.optional "PaginationConfig")
  rw [addKeyword_keywordOnly, keywordOnly_concat] at harguments
  exact harguments.method htype.iteratorOf _

theorem always_waitOn (h : svc.Provides name o as type) (method : String) (exclude : List String)
    {settings : DictRef} (hsettings : settings.name = FixedDict.waiterConfig.name) :
    SessionM.Always (svc.waitOn method name o exclude)
      (.method method (.keywordMark :: (without exclude as ++
        [.optional "WaiterConfig" (.dict settings)])) .none) := by
  unfold waitOn
  refine (h.arguments exclude).bind fun bs hbs => ?_
  refine (always_fixedDict hsettings).bind fun settings hset => .pure ?_
  have harguments := hbs.addKeyword (hset.optional "WaiterConfig")
  rw [addKeyword_keywordOnly, keywordOnly_concat] at harguments
  exact harguments.method (.refl .none) _

/-! ## Methods of resources -/

/-- An action takes what is not filled.  It returns what the operation returns, or
the resource that it yields if the operation has no output. -/
theorem always_actionOf (h : svc.Provides name o as type) (ho : svc.operation name = .ok o)
    {a : Schema.Action} {request : Schema.Request} {yielded : Option TypeExpr}
    (hrequest : a.request = some request) (hname : request.operation = name)
    (hyielded : a.resource.mapM svc.targetType = .ok yielded) (method : String) :
    Build.Always (svc.actionOf method a)
      (.method (snakeCase method) (keywordOnly (without request.identifierTargets as))
        (if o.output.isSome then type else yielded.getD type)) := by
  subst hname
  unfold actionOf
  refine .ofExcept_bind hyielded ?_
  rw [hrequest]
  refine .ofExcept_bind ho (.lift_bind (h.arguments _) fun bs hbs => ?_)
  cases houtput : o.output with
  | some output =>
      exact .lift_bind h.returns fun type' htype => .pure (hbs.method htype _)
  | none =>
      cases yielded with
      | none => exact .lift_bind h.returns fun type' htype => .pure (hbs.method htype _)
      | some resource => exact .pure (hbs.method (.refl resource) _)

theorem always_batchMethod (h : svc.Provides name o as type) (ho : svc.operation name = .ok o)
    {a : Schema.Action} {request : Schema.Request} (hrequest : a.request = some request)
    (hname : request.operation = name) (method : String) :
    Build.Always (svc.batchMethod method a)
      (.method (snakeCase method) (keywordOnly (without request.identifierTargets as))
        (.listOf type)) := by
  subst hname
  unfold batchMethod
  rw [hrequest]
  refine .ofExcept_bind ho (.lift_bind (h.arguments _) fun bs hbs => ?_)
  exact .lift_bind h.returns fun type' htype => .pure (hbs.method htype.listOf _)

end Provides

/-! ## What is looked up -/

section Lookup

variable {name : String} {o : Schema.Operation}

theorem waitMethod_eq {waiter : String} {rule : Schema.WaitingRule}
    (hrule : svc.schema.waiter waiter = .ok rule) (hname : rule.operation = name)
    (ho : svc.operation name = .ok o) :
    svc.waitMethod waiter = liftM (svc.waitOn "wait" name o []) := by
  subst hname
  simp only [waitMethod, hrule, ho, Build.ofExcept_ok_bind]

theorem resourceWaitMethod_eq {w : Schema.ResourceWaiter} {rule : Schema.WaitingRule}
    (hrule : svc.schema.waiter w.waiterName = .ok rule) (hname : rule.operation = name)
    (ho : svc.operation name = .ok o) (waiter : String) :
    svc.resourceWaitMethod waiter w =
      liftM (svc.waitOn ("wait_until_" ++ snakeCase waiter) name o (w.params.map (·.target))) := by
  subst hname
  simp only [resourceWaitMethod, hrule, ho, Build.ofExcept_ok_bind]

theorem filterMethod_eq {relation : Schema.Action} {request : Schema.Request}
    (hrequest : relation.request = some request) (hname : request.operation = name)
    (ho : svc.operation name = .ok o) (self : TypeExpr) :
    svc.filterMethod relation self = (do
      let arguments ← svc.keywordArguments name o request.identifierTargets
      return .method "filter" arguments self) := by
  subst hname
  simp only [filterMethod, hrequest, ho, Build.ofExcept_ok_bind]

/-- An action is looked up in its owner. -/
theorem actionMethod_eq {owner : Schema.ResourceModel} {action : String} {a : Schema.Action}
    (ha : owner.action svc.schema.serviceName action = .ok a) :
    svc.actionMethod owner action = svc.actionOf action a := by
  simp only [actionMethod, ha, Build.ofExcept_ok_bind]

end Lookup

end Service

end ServiceStubs
