import ServiceStubs.Proofs.Session.Request
import ServiceStubs.Session.Methods

/-!
# Plans

What a step looks up is in the schema, not in the session, so the schema alone
decides whether the step succeeds and which operations it takes the results of
before that.  The plan of a step says both; a step that follows its plan does so
in every session.

## Main definitions

* `Plan` — the operations whose results are taken, and whether the step succeeds.
* `SessionM.Follows`, `Build.Follows` — the step follows a plan.
* `Service.clientMethodPlan` and its kin — the plans of methods.
-/

namespace ServiceStubs

open Session (Request)

/-! ## Plans -/

/-- What a step does in every session alike: it takes the results of some
operations, in order, and succeeds or not. -/
structure Plan where
  returned : List Schema.Operation := []
  succeeds : Bool := true

namespace Plan

variable {α : Type}

/-- Nothing is left to do. -/
def done : Plan := {}

/-- The step fails. -/
def failed : Plan := { succeeds := false }

/-- The result of an operation is taken. -/
def take (o : Schema.Operation) : Plan := { returned := [o] }

/-- One plan, and another one if the first one succeeds. -/
def andThen (p q : Plan) : Plan :=
  if p.succeeds then ⟨p.returned ++ q.returned, q.succeeds⟩ else p

/-- The plan that goes on with what was looked up. -/
def lookup (r : Except Error α) (f : α → Plan) : Plan :=
  match r with
  | .ok a => f a
  | .error _ => failed

/-- A plan for each element of a list, up to the first one that fails. -/
def forAll (as : List α) (f : α → Plan) : Plan :=
  as.foldr (fun a p => (f a).andThen p) done

@[simp] theorem succeeds_done : done.succeeds = true := rfl
@[simp] theorem succeeds_failed : failed.succeeds = false := rfl
@[simp] theorem succeeds_take (o : Schema.Operation) : (take o).succeeds = true := rfl

@[simp] theorem succeeds_andThen (p q : Plan) :
    (p.andThen q).succeeds = (p.succeeds && q.succeeds) := by
  unfold andThen
  cases h : p.succeeds <;> simp [h]

/-- Nothing is left to do after a plan. -/
@[simp] theorem andThen_done (p : Plan) : p.andThen done = p := by
  obtain ⟨returned, succeeds⟩ := p
  cases succeeds <;> simp [andThen, done]

theorem succeeds_lookup {r : Except Error α} {f : α → Plan} :
    (lookup r f).succeeds ↔ ∃ a, r = .ok a ∧ (f a).succeeds := by
  cases r with
  | error e => simp [lookup]
  | ok a => simp [lookup]

theorem succeeds_forAll {as : List α} {f : α → Plan} :
    (forAll as f).succeeds ↔ ∀ a ∈ as, (f a).succeeds := by
  induction as with
  | nil => simp [forAll]
  | cons a as ih =>
      have hcons : forAll (a :: as) f = (f a).andThen (forAll as f) := rfl
      simp [hcons, ih]

end Plan

/-- The operations whose results some requests take. -/
def Session.Request.returnedBy (rs : List Request) : List Schema.Operation :=
  rs.filterMap fun
    | .returned o => some o
    | _ => none

variable {svc : Service} {α β : Type}

/-! ## Following a plan -/

namespace SessionM

/-- The step makes requests that take the results of the given operations. -/
def Follows (svc : Service) (m : SessionM α) (os : List Schema.Operation) : Prop :=
  ∀ s, ∃ rs, svc.performAll s rs = m.state s ∧ Request.returnedBy rs = os

namespace Follows

theorem pure (a : α) : Follows svc (Pure.pure a) [] :=
  fun _ => ⟨[], rfl, rfl⟩

theorem bind {m : SessionM α} {f : α → SessionM β} {os os' : List Schema.Operation}
    (h : Follows svc m os) (hf : ∀ a, Follows svc (f a) os') :
    Follows svc (m >>= f) (os ++ os') := by
  intro s
  obtain ⟨rs, hrs, hos⟩ := h s
  obtain ⟨rs', hrs', hos'⟩ := hf (m.val s) (m.state s)
  refine ⟨rs ++ rs', ?_, ?_⟩
  · rw [Service.performAll_append, hrs, hrs']
    rfl
  · rw [Request.returnedBy, List.filterMap_append, ← hos, ← hos']
    rfl

/-- A step that takes no results, and then others that take none. -/
theorem bind_nil {m : SessionM α} {f : α → SessionM β} (h : Follows svc m [])
    (hf : ∀ a, Follows svc (f a) []) : Follows svc (m >>= f) [] :=
  h.bind hf

theorem mapM_nil {f : α → SessionM β} {as : List α} (hf : ∀ a ∈ as, Follows svc (f a) []) :
    Follows svc (as.mapM f) [] := by
  induction as with
  | nil => exact .pure []
  | cons a as ih =>
      rw [List.mapM_cons]
      exact (hf a List.mem_cons_self).bind_nil fun b =>
        (ih fun a' ha' => hf a' (List.mem_cons_of_mem a ha')).bind_nil fun bs => .pure (b :: bs)

end Follows

end SessionM

namespace Build

/-- The step makes requests that take the results that the plan says, and
succeeds exactly when the plan does. -/
structure Follows (svc : Service) (m : Build α) (p : Plan) : Prop where
  requests : ∀ s, ∃ rs, svc.performAll s rs = m.state s ∧ Request.returnedBy rs = p.returned
  succeeds : ∀ s, (∃ a, m.outcome s = .ok a) ↔ p.succeeds

namespace Follows

variable {p q : Plan}

theorem pure (a : α) : Follows svc (Pure.pure a) .done where
  requests _ := ⟨[], rfl, rfl⟩
  succeeds _ := iff_of_true ⟨a, rfl⟩ rfl

theorem throw (e : Error) : Follows svc (throw e : Build α) .failed where
  requests _ := ⟨[], rfl, rfl⟩
  succeeds _ := iff_of_false nofun nofun

theorem lift {m : SessionM α} {os : List Schema.Operation} (h : SessionM.Follows svc m os) :
    Follows svc (liftM m : Build α) ⟨os, true⟩ where
  requests := h
  succeeds s := iff_of_true ⟨m.val s, rfl⟩ rfl

theorem ofExcept_bind {r : Except Error α} {f : α → Build β} {g : α → Plan}
    (h : ∀ a, r = .ok a → Follows svc (f a) (g a)) :
    Follows svc (Build.ofExcept r >>= f) (.lookup r g) := by
  cases r with
  | error e => exact ⟨fun _ => ⟨[], rfl, rfl⟩, fun _ => iff_of_false nofun nofun⟩
  | ok a => exact h a rfl

/-- One step after the other, if the first one succeeds. -/
theorem bind {m : Build α} {f : α → Build β} (h : Follows svc m p)
    (hf : ∀ a, Follows svc (f a) q) : Follows svc (m >>= f) (p.andThen q) := by
  constructor
  · intro s
    obtain ⟨rs, hrs, hos⟩ := h.requests s
    cases hm : m.outcome s with
    | error e =>
        have hfails : p.succeeds = false := by
          rw [← Bool.not_eq_true, ← h.succeeds s]
          simp [hm]
        refine ⟨rs, by rw [hrs, state_bind_of_error hm], ?_⟩
        simp [Plan.andThen, hfails, hos]
    | ok a =>
        have hok : p.succeeds = true := (h.succeeds s).mp ⟨a, hm⟩
        obtain ⟨rs', hrs', hos'⟩ := (hf a).requests (m.state s)
        refine ⟨rs ++ rs', ?_, ?_⟩
        · rw [Service.performAll_append, hrs, hrs', state_bind_of_ok hm]
        · rw [Request.returnedBy, List.filterMap_append]
          simp only [Plan.andThen, hok, if_true, ← hos, ← hos', Request.returnedBy]
  · intro s
    rw [Plan.succeeds_andThen, Bool.and_eq_true, ← h.succeeds s]
    cases hm : m.outcome s with
    | error e => simp [outcome_bind_of_error hm]
    | ok a => simp [outcome_bind_of_ok hm, (hf a).succeeds]

/-- A step that takes no results comes first. -/
theorem lift_bind {m : SessionM α} {f : α → Build β} (h : SessionM.Follows svc m [])
    (hf : ∀ a, Follows svc (f a) p) : Follows svc (liftM m >>= f) p :=
  (Follows.lift h).bind hf

/-- What is made of the result makes no difference. -/
theorem bind_pure {m : Build α} (h : Follows svc m p) (f : α → β) :
    Follows svc (m >>= fun a => Pure.pure (f a)) p := by
  have hbind : Follows svc (m >>= fun a => Pure.pure (f a)) (p.andThen .done) :=
    h.bind fun a => .pure (f a)
  rwa [Plan.andThen_done] at hbind

theorem mapM {f : α → Build β} {g : α → Plan} {as : List α}
    (hf : ∀ a ∈ as, Follows svc (f a) (g a)) : Follows svc (as.mapM f) (.forAll as g) := by
  induction as with
  | nil => exact .pure []
  | cons a as ih =>
      rw [List.mapM_cons]
      exact (hf a List.mem_cons_self).bind fun b =>
        (ih fun a' ha' => hf a' (List.mem_cons_of_mem a ha')).bind_pure (b :: ·)

end Follows

end Build

namespace Service

/-! ## Steps that take no results -/

variable {svc : Service}

theorem follows_shapeType (svc : Service) (position : Position) (name : String) :
    SessionM.Follows svc (svc.shapeType position name) [] :=
  fun _ => ⟨[.shape position name], rfl, rfl⟩

theorem follows_memberType (svc : Service) (position : Position) (ref : Schema.ShapeRef) :
    SessionM.Follows svc (svc.memberType position ref) [] := by
  simp only [memberType, refType]
  split
  · exact follows_shapeType svc position ref.shape
  · exact .pure _

theorem follows_fixedDict (svc : Service) (d : FixedDict) :
    SessionM.Follows svc (Session.fixedDict d) [] :=
  fun _ => ⟨[.fixed d], rfl, rfl⟩

theorem follows_specialType (svc : Service) (k : SpecialType) :
    SessionM.Follows svc (Session.specialType k) [] := by
  cases k with
  | body => exact .pure _
  | copySource => exact (follows_fixedDict svc .copySource).bind_nil fun _ => .pure _

theorem follows_argument (svc : Service) (operation : String) (shape : Schema.Shape)
    (member : String × Schema.ShapeRef) :
    SessionM.Follows svc (svc.argument operation shape member) [] := by
  unfold argument
  dsimp only
  split
  · exact (follows_specialType svc _).bind_nil fun _ => .pure _
  · exact (follows_memberType svc .input member.2).bind_nil fun _ => .pure _

theorem follows_arguments (svc : Service) (operation : String) (input : Schema.ShapeRef)
    (exclude : List String) :
    SessionM.Follows svc (svc.arguments operation input exclude) [] := by
  unfold arguments
  split
  · exact .pure _
  · next shape _ =>
      exact (SessionM.Follows.mapM_nil fun m _ => follows_argument svc operation shape m).bind_nil
        fun _ => .pure _

theorem follows_keywordArguments (svc : Service) (name : String) (o : Schema.Operation)
    (exclude : List String) :
    SessionM.Follows svc (svc.keywordArguments name o exclude) [] := by
  unfold keywordArguments
  split
  · exact .pure _
  · exact (follows_arguments svc name _ exclude).bind_nil fun _ => .pure _

theorem follows_waitOn (svc : Service) (name operation : String) (o : Schema.Operation)
    (exclude : List String) :
    SessionM.Follows svc (svc.waitOn name operation o exclude) [] :=
  (follows_keywordArguments svc operation o exclude).bind_nil fun _ =>
    (follows_fixedDict svc .waiterConfig).bind_nil fun _ => .pure _

theorem follows_resourceAttributes (svc : Service) (r : Schema.ResourceModel) :
    SessionM.Follows svc (svc.resourceAttributes r) [] := by
  unfold resourceAttributes
  split
  · exact .pure _
  · next shape _ =>
      generalize identifierAttributes r = as
      induction shape.members.entries generalizing as with
      | nil => exact .pure as
      | cons m ms ih =>
          rw [List.foldlM_cons]
          refine SessionM.Follows.bind_nil ?_ ih
          unfold addMemberAttribute
          split
          · exact .pure as
          · exact (follows_memberType svc .output m.2).bind_nil fun _ => .pure _

/-! ## Methods -/

theorem follows_returnType (svc : Service) (o : Schema.Operation) :
    SessionM.Follows svc (svc.returnType o) [o] :=
  fun _ => ⟨[.returned o], rfl, rfl⟩

/-- The type that an operation returns comes last in every method. -/
theorem follows_returning {β : Type} (svc : Service) (o : Schema.Operation) (f : TypeExpr → β) :
    Build.Follows svc (liftM (svc.returnType o) >>= fun type => pure (f type)) (.take o) :=
  (Build.Follows.lift (follows_returnType svc o)).bind_pure f

variable (svc) in
/-- The method of a client takes the result of its operation. -/
def clientMethodPlan (name : String) : Plan :=
  .lookup (svc.operation name) .take

theorem follows_clientMethod (svc : Service) (name : String) :
    Build.Follows svc (svc.clientMethod name) (svc.clientMethodPlan name) :=
  .ofExcept_bind fun o _ => .lift_bind (follows_keywordArguments svc name o []) fun _ =>
    follows_returning svc o _

variable (svc) in
/-- The method of a paginator takes the result of its operation. -/
def paginateMethodPlan (name : String) : Plan :=
  .lookup (svc.schema.paginator name) fun _ => .lookup (svc.operation name) .take

theorem follows_paginateMethod (svc : Service) (name : String) :
    Build.Follows svc (svc.paginateMethod name) (svc.paginateMethodPlan name) :=
  .ofExcept_bind fun rule _ => .ofExcept_bind fun o _ =>
    .lift_bind (follows_keywordArguments svc name o (pagingInputs rule)) fun _ =>
      .lift_bind (follows_fixedDict svc .paginatorConfig) fun _ => follows_returning svc o _

variable (svc) in
/-- The method of a waiter takes no result. -/
def waitMethodPlan (name : String) : Plan :=
  .lookup (svc.schema.waiter name) fun rule => .lookup (svc.operation rule.operation) fun _ =>
    .done

theorem follows_waitMethod (svc : Service) (name : String) :
    Build.Follows svc (svc.waitMethod name) (svc.waitMethodPlan name) :=
  .ofExcept_bind fun rule _ => .ofExcept_bind fun o _ =>
    .lift (follows_waitOn svc "wait" rule.operation o [])

variable (svc) in
/-- A call takes the result of its operation, unless that has none and the action
yields a resource. -/
def requestPlan (request : Option Schema.Request) (yielded : Option TypeExpr) : Plan :=
  match request with
  | none => .done
  | some request =>
    .lookup (svc.operation request.operation) fun o =>
      match o.output, yielded with
      | none, some _ => .done
      | _, _ => .take o

variable (svc) in
/-- An action finds what it yields, and then calls its operation. -/
def actionPlan (a : Schema.Action) : Plan :=
  .lookup (a.resource.mapM svc.targetType) (svc.requestPlan a.request)

theorem follows_actionOf (svc : Service) (name : String) (a : Schema.Action) :
    Build.Follows svc (svc.actionOf name a) (svc.actionPlan a) := by
  unfold actionOf actionPlan
  refine .ofExcept_bind fun yielded _ => ?_
  unfold requestPlan
  cases a.request with
  | none => exact .pure _
  | some request =>
      refine .ofExcept_bind fun o _ =>
        .lift_bind (follows_keywordArguments svc request.operation o _) fun _ => ?_
      cases houtput : o.output with
      | none =>
          cases yielded with
          | none => exact follows_returning svc o _
          | some type => exact .pure _
      | some output => exact follows_returning svc o _

variable (svc) in
/-- The action of a name is looked up first. -/
def actionMethodPlan (owner : Schema.ResourceModel) (name : String) : Plan :=
  .lookup (owner.action svc.schema.serviceName name) svc.actionPlan

theorem follows_actionMethod (svc : Service) (owner : Schema.ResourceModel) (name : String) :
    Build.Follows svc (svc.actionMethod owner name) (svc.actionMethodPlan owner name) :=
  .ofExcept_bind fun a _ => follows_actionOf svc name a

variable (svc) in
/-- A batch action must have a request, and takes the result of its operation. -/
def batchMethodPlan (a : Schema.Action) : Plan :=
  match a.request with
  | none => .failed
  | some request => .lookup (svc.operation request.operation) .take

theorem follows_batchMethod (svc : Service) (name : String) (a : Schema.Action) :
    Build.Follows svc (svc.batchMethod name a) (svc.batchMethodPlan a) := by
  unfold batchMethod batchMethodPlan
  cases a.request with
  | none => exact .throw _
  | some request =>
      exact .ofExcept_bind fun o _ =>
        .lift_bind (follows_keywordArguments svc request.operation o _) fun _ =>
          follows_returning svc o _

variable (svc) in
/-- A filter takes no result. -/
def filterMethodPlan (relation : Schema.Action) : Plan :=
  match relation.request with
  | none => .done
  | some request => .lookup (svc.operation request.operation) fun _ => .done

theorem follows_filterMethod (svc : Service) (relation : Schema.Action) (self : TypeExpr) :
    Build.Follows svc (svc.filterMethod relation self) (svc.filterMethodPlan relation) := by
  unfold filterMethod filterMethodPlan
  cases relation.request with
  | none => exact .pure _
  | some request =>
      exact .ofExcept_bind fun o _ =>
        .lift_bind (follows_keywordArguments svc request.operation o _) fun _ => .pure _

variable (svc) in
/-- A waiter of a resource takes no result. -/
def resourceWaitMethodPlan (w : Schema.ResourceWaiter) : Plan :=
  .lookup (svc.schema.waiter w.waiterName) fun rule =>
    .lookup (svc.operation rule.operation) fun _ => .done

theorem follows_resourceWaitMethod (svc : Service) (name : String) (w : Schema.ResourceWaiter) :
    Build.Follows svc (svc.resourceWaitMethod name w) (svc.resourceWaitMethodPlan w) :=
  .ofExcept_bind fun rule _ => .ofExcept_bind fun o _ =>
    .lift (follows_waitOn svc _ rule.operation o _)

end Service

end ServiceStubs
