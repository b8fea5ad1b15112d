import ServiceStubs.Proofs.Package.Calls

/-!
# Methods that fail

What a method needs of the schema is looked up before any type is asked for.  So a
method fails in every session alike, with the error of the first thing that is not
declared, and it leaves the session as it was: no dictionary was made, and none has
a new field.

## Main definitions

* `Build.FailsAs` — the step fails as its look-ups do, before it changes anything.
* `MethodStep`, `Service.build` — the steps that make one method, or the type of one
  resource.
* `Service.lookUps` — what such a step looks up, in order.
* `Service.failed_build_changes_nothing` — a step that fails changes nothing.
-/

namespace ServiceStubs

/-! ## Steps that look things up first -/

namespace Build

variable {α β γ : Type}

/-- In every session the step fails exactly when the look-ups do, with their error,
and then leaves the session as it was. -/
def FailsAs (m : Build α) (r : Except Error γ) : Prop :=
  ∀ s, match r with
    | .error e => m.outcome s = .error e ∧ m.state s = s
    | .ok _ => ∃ a, m.outcome s = .ok a

namespace FailsAs

variable {m : Build α} {r : Except Error γ} {c : γ}

theorem pure (a : α) : FailsAs (Pure.pure a) (.ok c) :=
  fun _ => ⟨a, rfl⟩

theorem throw (e : Error) : FailsAs (throw e : Build α) (.error e : Except Error γ) :=
  fun _ => ⟨rfl, rfl⟩

/-- What asks the session only does not fail. -/
theorem lift (m : SessionM α) : FailsAs (liftM m) (.ok c) :=
  fun s => ⟨m.val s, rfl⟩

theorem lift_bind {m : SessionM α} {f : α → Build β} (h : ∀ a, FailsAs (f a) (.ok c)) :
    FailsAs (liftM m >>= f) (.ok c) :=
  fun s => h (m.val s) (m.state s)

/-- What is looked up changes nothing, so the next look-up starts in the same
session. -/
theorem ofExcept_bind {x : Except Error α} {f : α → Build β} {g : α → Except Error γ}
    (h : ∀ a, x = .ok a → FailsAs (f a) (g a)) : FailsAs (ofExcept x >>= f) (x >>= g) := by
  cases x with
  | error e => exact fun _ => ⟨rfl, rfl⟩
  | ok a => exact h a rfl

/-- What is made of the result makes no difference. -/
theorem map (h : FailsAs m r) (g : α → β) : FailsAs (g <$> m) r := by
  intro s
  have hs := h s
  rw [map_eq_pure_bind]
  cases r with
  | error e => exact ⟨outcome_bind_of_error hs.1 _, (state_bind_of_error hs.1 _).trans hs.2⟩
  | ok c =>
      obtain ⟨a, ha⟩ := hs
      exact ⟨g a, outcome_bind_of_ok ha _⟩

/-- The step fails with an error exactly when the look-ups do. -/
theorem outcome_eq_error_iff (h : FailsAs m r) (s : Session) (e : Error) :
    m.outcome s = .error e ↔ r = .error e := by
  have hs := h s
  cases r with
  | error e' =>
      rw [hs.1]
      exact ⟨fun he => congrArg _ (Except.error.inj he), fun he => congrArg _ (Except.error.inj he)⟩
  | ok c =>
      obtain ⟨a, ha⟩ := hs
      rw [ha]
      exact ⟨nofun, nofun⟩

theorem state_eq_of_error (h : FailsAs m r) {s : Session} {e : Error}
    (he : m.outcome s = .error e) : m.state s = s := by
  have hr : r = .error e := (h.outcome_eq_error_iff s e).mp he
  subst hr
  exact (h s).2

end FailsAs

end Build

/-! ## Steps that make one method -/

/-- The steps that make one method, or the type of one resource. -/
inductive MethodStep
  | client (name : String)
  | paginator (name : String)
  | waiter (name : String)
  | target (t : Schema.ResourceTarget)
  | action (name : String) (a : Schema.Action)
  | actionOf (owner : Schema.ResourceModel) (name : String)
  | batch (name : String) (a : Schema.Action)
  | relation (name : String) (t : Schema.ResourceTarget)
  | filter (relation : Schema.Action) (self : TypeExpr)
  | resourceWaiter (name : String) (w : Schema.ResourceWaiter)

namespace Service

variable (svc : Service)

/-- The step: it makes the type of a resource, or a method. -/
def build : MethodStep → Build (TypeExpr ⊕ FunctionStub)
  | .client name => .inr <$> svc.clientMethod name
  | .paginator name => .inr <$> svc.paginateMethod name
  | .waiter name => .inr <$> svc.waitMethod name
  | .target t => .inl <$> Build.ofExcept (svc.targetType t)
  | .action name a => .inr <$> svc.actionOf name a
  | .actionOf owner name => .inr <$> svc.actionMethod owner name
  | .batch name a => .inr <$> svc.batchMethod name a
  | .relation name t => .inr <$> Build.ofExcept (svc.relationMethod name t)
  | .filter relation self => .inr <$> svc.filterMethod relation self
  | .resourceWaiter name w => .inr <$> svc.resourceWaitMethod name w

/-! ## What is looked up -/

/-- An operation must be declared. -/
def operationLookUp (name : String) : Except Error Unit := do
  let _ ← svc.operation name
  return ()

/-- So must a paginator, and the operation of that name. -/
def paginatorLookUps (name : String) : Except Error Unit := do
  let _ ← svc.schema.paginator name
  svc.operationLookUp name

/-- So must a waiter, and the operation that it watches. -/
def waiterLookUps (name : String) : Except Error Unit := do
  let rule ← svc.schema.waiter name
  svc.operationLookUp rule.operation

/-- So must a resource. -/
def resourceLookUp (t : Schema.ResourceTarget) : Except Error Unit := do
  let _ ← svc.schema.resource t.type
  return ()

/-- The operation that is called, if one is, must be declared. -/
def requestLookUps : Option Schema.Request → Except Error Unit
  | none => return ()
  | some request => svc.operationLookUp request.operation

/-- The resource that an action yields, if it yields one, comes before its
operation. -/
def actionLookUps (a : Schema.Action) : Except Error Unit := do
  let _ ← a.resource.mapM svc.resourceLookUp
  svc.requestLookUps a.request

/-- An action of a name must be there. -/
def ownedActionLookUps (owner : Schema.ResourceModel) (name : String) : Except Error Unit := do
  let a ← owner.action svc.schema.serviceName name
  svc.actionLookUps a

/-- A batch action must have a request. -/
def batchLookUps (name : String) (a : Schema.Action) : Except Error Unit :=
  match a.request with
  | none => throw (.batchWithoutRequest name svc.schema.serviceName)
  | some request => svc.operationLookUp request.operation

/-- What a step looks up, in order. -/
def lookUps : MethodStep → Except Error Unit
  | .client name => svc.operationLookUp name
  | .paginator name => svc.paginatorLookUps name
  | .waiter name => svc.waiterLookUps name
  | .target t | .relation _ t => svc.resourceLookUp t
  | .action _ a => svc.actionLookUps a
  | .actionOf owner name => svc.ownedActionLookUps owner name
  | .batch name a => svc.batchLookUps name a
  | .filter relation _ => svc.requestLookUps relation.request
  | .resourceWaiter _ w => svc.waiterLookUps w.waiterName

variable {svc}

/-! ## Methods fail as their look-ups do -/

theorem failsAs_operation {name : String} {f : Schema.Operation → Build FunctionStub}
    (h : ∀ o, (f o).FailsAs (.ok ())) :
    (Build.ofExcept (svc.operation name) >>= f).FailsAs (svc.operationLookUp name) :=
  .ofExcept_bind fun o _ => h o

theorem failsAs_clientMethod (name : String) :
    (svc.clientMethod name).FailsAs (svc.operationLookUp name) :=
  failsAs_operation fun _ => .lift_bind fun _ => .lift_bind fun _ => .pure _

theorem failsAs_paginateMethod (name : String) :
    (svc.paginateMethod name).FailsAs (svc.paginatorLookUps name) :=
  .ofExcept_bind fun _ _ => failsAs_operation fun _ =>
    .lift_bind fun _ => .lift_bind fun _ => .lift_bind fun _ => .pure _

theorem failsAs_waitMethod (name : String) :
    (svc.waitMethod name).FailsAs (svc.waiterLookUps name) :=
  .ofExcept_bind fun _ _ => failsAs_operation fun _ => .lift _

theorem failsAs_resourceWaitMethod (name : String) (w : Schema.ResourceWaiter) :
    (svc.resourceWaitMethod name w).FailsAs (svc.waiterLookUps w.waiterName) :=
  .ofExcept_bind fun _ _ => failsAs_operation fun _ => .lift _

theorem failsAs_targetType (t : Schema.ResourceTarget) :
    (Build.ofExcept (svc.targetType t)).FailsAs (svc.resourceLookUp t) := by
  unfold targetType resourceLookUp
  cases svc.schema.resource t.type with
  | error e => exact .throw e
  | ok model => exact .pure _

/-- What a relation leaves open needs no look-up. -/
theorem failsAs_relationMethod (name : String) (t : Schema.ResourceTarget) :
    (Build.ofExcept (svc.relationMethod name t)).FailsAs (svc.resourceLookUp t) := by
  unfold relationMethod targetType resourceLookUp
  cases svc.schema.resource t.type with
  | error e => exact .throw e
  | ok model => exact .pure _

/-- What an action yields must be declared, and is known then. -/
theorem failsAs_yielded {target : Option Schema.ResourceTarget}
    {f : Option TypeExpr → Build FunctionStub} {r : Except Error Unit}
    (h : ∀ yielded, (f yielded).FailsAs r) :
    (Build.ofExcept (target.mapM svc.targetType) >>= f).FailsAs (do
      let _ ← target.mapM svc.resourceLookUp
      r) := by
  cases target with
  | none => exact h none
  | some t =>
      rw [Option.mapM_some, Option.mapM_some]
      unfold targetType resourceLookUp
      cases svc.schema.resource t.type with
      | error e => exact fun _ => ⟨rfl, rfl⟩
      | ok model => exact h _

theorem failsAs_actionOf (name : String) (a : Schema.Action) :
    (svc.actionOf name a).FailsAs (svc.actionLookUps a) := by
  unfold actionOf
  refine failsAs_yielded fun yielded => ?_
  cases a.request with
  | none => exact .pure _
  | some request =>
      refine failsAs_operation fun o => .lift_bind fun arguments => ?_
      dsimp only
      split
      · exact .pure _
      · exact .lift_bind fun _ => .pure _

theorem failsAs_actionMethod (owner : Schema.ResourceModel) (name : String) :
    (svc.actionMethod owner name).FailsAs (svc.ownedActionLookUps owner name) :=
  .ofExcept_bind fun a _ => failsAs_actionOf name a

theorem failsAs_batchMethod (name : String) (a : Schema.Action) :
    (svc.batchMethod name a).FailsAs (svc.batchLookUps name a) := by
  unfold batchMethod batchLookUps
  cases a.request with
  | none => exact .throw _
  | some request =>
      exact failsAs_operation fun _ => .lift_bind fun _ => .lift_bind fun _ => .pure _

theorem failsAs_filterMethod (relation : Schema.Action) (self : TypeExpr) :
    (svc.filterMethod relation self).FailsAs (svc.requestLookUps relation.request) := by
  unfold filterMethod
  cases relation.request with
  | none => exact .pure _
  | some request => exact failsAs_operation fun _ => .lift_bind fun _ => .pure _

theorem failsAs_build (svc : Service) (step : MethodStep) :
    (svc.build step).FailsAs (svc.lookUps step) := by
  cases step with
  | client name => exact (failsAs_clientMethod name).map _
  | paginator name => exact (failsAs_paginateMethod name).map _
  | waiter name => exact (failsAs_waitMethod name).map _
  | target t => exact (failsAs_targetType t).map _
  | action name a => exact (failsAs_actionOf name a).map _
  | actionOf owner name => exact (failsAs_actionMethod owner name).map _
  | batch name a => exact (failsAs_batchMethod name a).map _
  | relation name t => exact (failsAs_relationMethod name t).map _
  | filter relation self => exact (failsAs_filterMethod relation self).map _
  | resourceWaiter name w => exact (failsAs_resourceWaitMethod name w).map _

/-- **A step that fails changes nothing**: it leaves both tables as they were, and
every dictionary with its name, docstring and fields.  It fails exactly when
something that it looks up is missing, with the error of the first such thing, in
every session alike. -/
theorem failed_build_changes_nothing (svc : Service) (step : MethodStep) (s : Session)
    (e : Error) :
    ((svc.build step).outcome s = .error e ↔ svc.lookUps step = .error e) ∧
      ((svc.build step).outcome s = .error e → (svc.build step).state s = s) :=
  ⟨(failsAs_build svc step).outcome_eq_error_iff s e, (failsAs_build svc step).state_eq_of_error⟩

end Service

/-- An action that yields a crate fails in the service of boxes, after its package
was made, although its operation is declared. -/
theorem boxSchema_action_changes_nothing :
    let svc := Service.ofSchema boxSchema
    let s := svc.afterAll [.package]
    let step := MethodStep.action "Open"
      { resource := some { type := "Crate" }, request := some { operation := "ListBoxes" } }
    let e := Error.notDeclared "store" .resource "Crate"
    (svc.build step).outcome s = .error e ∧ (svc.build step).state s = s := by
  intro svc s step e
  have h := Service.failed_build_changes_nothing svc step s e
  have herror : (svc.build step).outcome s = .error e := h.1.mpr rfl
  exact ⟨herror, h.2 herror⟩

end ServiceStubs
