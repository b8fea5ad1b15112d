import ServiceStubs.Proofs.Declaration.Skeleton
import ServiceStubs.Proofs.Session.Request
import ServiceStubs.Session.Methods

/-!
# Steps in two sessions

A step that runs in two sessions makes things that are alike, or fails alike in
both, whatever was asked of the sessions before.  It is shown for a step by showing
it for its parts: the rules are those of a relational program logic, in which both
sessions are valid and the values on both sides are alike.

## Main definitions

* `SessionM.Agree`, `Build.Agree` — two steps agree from any two valid sessions.
* `SessionM.Agree.bind`, `Build.Agree.bind`, `SessionM.Agree.foldlM` and their kin —
  the rules.
* `Service.agree_shapeType`, `Service.agree_returnType` — the requests.
* `Service.SameInput`, `Service.agree_clientMethod_of_same` — the same operation in two
  services.
* `Service.agree_clientMethod` and its kin — each kind of method.
-/

namespace ServiceStubs

open Skeletal (skeleton)

variable {α β γ : Type} [Annotated α] [Skeletal α] [Annotated β] [Skeletal β]

/-! ## Steps -/

namespace SessionM

/-- From any two valid sessions, the steps have values that are alike, and leave
valid sessions. -/
def Agree (m m' : SessionM α) : Prop :=
  ∀ s t : Session, s.Valid → t.Valid →
    (m.state s).Valid ∧ (m'.state t).Valid ∧ Alike (m.val s) (m'.val t)

namespace Agree

variable {m m' : SessionM α}

theorem pure {a a' : α} (h : Alike a a') : Agree (Pure.pure a) (Pure.pure a') :=
  fun _ _ hs ht => ⟨hs, ht, h⟩

theorem bind {f f' : α → SessionM β} (h : Agree m m')
    (hf : ∀ a a', Alike a a' → Agree (f a) (f' a')) : Agree (m >>= f) (m' >>= f') := by
  intro s t hs ht
  obtain ⟨hs', ht', ha⟩ := h s t hs ht
  exact hf _ _ ha _ _ hs' ht'

/-- The same loop on both sides. -/
theorem mapM {f f' : γ → SessionM β} {as : List γ} (hf : ∀ a ∈ as, Agree (f a) (f' a)) :
    Agree (as.mapM f) (as.mapM f') := by
  induction as with
  | nil => exact .pure (.refl [])
  | cons a as ih =>
      rw [List.mapM_cons, List.mapM_cons]
      refine (hf a List.mem_cons_self).bind fun b b' hb => ?_
      exact (ih fun a' ha' => hf a' (List.mem_cons_of_mem a ha')).bind
        fun bs bs' hbs => .pure (hb.cons hbs)

/-- What is gathered on both sides stays alike. -/
theorem foldlM {f f' : β → γ → SessionM β} {as : List γ}
    (hf : ∀ b b' a, Alike b b' → Agree (f b a) (f' b' a)) {b b' : β} (hb : Alike b b') :
    Agree (as.foldlM f b) (as.foldlM f' b') := by
  induction as generalizing b b' with
  | nil => exact .pure hb
  | cons a as ih =>
      rw [List.foldlM_cons, List.foldlM_cons]
      exact (hf b b' a hb).bind fun _ _ => ih

end Agree

end SessionM

/-! ## Steps that may fail -/

/-- Both have the same error, or results that are alike. -/
def AlikeOutcome (r r' : Except Error α) : Prop :=
  r.map skeleton = r'.map skeleton

/-- Outcomes that are alike are the same error or results that are alike. -/
theorem AlikeOutcome.cases {r r' : Except Error α} (h : AlikeOutcome r r') :
    (∃ e, r = .error e ∧ r' = .error e) ∨ ∃ a a', r = .ok a ∧ r' = .ok a' ∧ Alike a a' := by
  cases r with
  | error e =>
      cases r' with
      | error e' => exact .inl ⟨e, rfl, congrArg _ (Except.error.inj h).symm⟩
      | ok a' => nomatch h
  | ok a =>
      cases r' with
      | error e' => nomatch h
      | ok a' => exact .inr ⟨a, a', rfl, rfl, Except.ok.inj h⟩

namespace Build

/-- From any two valid sessions, the steps fail alike or have results that are
alike, and leave valid sessions. -/
def Agree (m m' : Build α) : Prop :=
  ∀ s t : Session, s.Valid → t.Valid →
    (m.state s).Valid ∧ (m'.state t).Valid ∧ AlikeOutcome (m.outcome s) (m'.outcome t)

namespace Agree

variable {m m' : Build α}

theorem pure {a a' : α} (h : Alike a a') : Agree (Pure.pure a) (Pure.pure a') :=
  fun _ _ hs ht => ⟨hs, ht, congrArg Except.ok h⟩

theorem throw (e : Error) : Agree (throw e : Build α) (throw e) :=
  fun _ _ hs ht => ⟨hs, ht, rfl⟩

theorem lift {m m' : SessionM α} (h : SessionM.Agree m m') :
    Agree (liftM m : Build α) (liftM m') := by
  intro s t hs ht
  obtain ⟨hs', ht', ha⟩ := h s t hs ht
  exact ⟨hs', ht', congrArg Except.ok ha⟩

theorem bind {f f' : α → Build β} (h : Agree m m')
    (hf : ∀ a a', Alike a a' → Agree (f a) (f' a')) : Agree (m >>= f) (m' >>= f') := by
  intro s t hs ht
  obtain ⟨hs', ht', houtcome⟩ := h s t hs ht
  rcases houtcome.cases with ⟨e, he, he'⟩ | ⟨a, a', ha, ha', halike⟩
  · rw [state_bind_of_error he, state_bind_of_error he', outcome_bind_of_error he,
      outcome_bind_of_error he']
    exact ⟨hs', ht', rfl⟩
  · rw [state_bind_of_ok ha, state_bind_of_ok ha', outcome_bind_of_ok ha, outcome_bind_of_ok ha']
    exact hf a a' halike _ _ hs' ht'

/-- What is looked up is the same on both sides. -/
theorem ofExcept_bind {r : Except Error γ} {f f' : γ → Build β}
    (h : ∀ c, r = .ok c → Agree (f c) (f' c)) :
    Agree (Build.ofExcept r >>= f) (Build.ofExcept r >>= f') := by
  cases r with
  | error e => exact fun _ _ hs ht => ⟨hs, ht, rfl⟩
  | ok c => exact h c rfl

theorem lift_bind {m m' : SessionM α} {f f' : α → Build β} (h : SessionM.Agree m m')
    (hf : ∀ a a', Alike a a' → Agree (f a) (f' a')) :
    Agree (liftM m >>= f) (liftM m' >>= f') :=
  (Agree.lift h).bind hf

/-- The same loop on both sides. -/
theorem mapM {f f' : γ → Build β} {as : List γ} (hf : ∀ a ∈ as, Agree (f a) (f' a)) :
    Agree (as.mapM f) (as.mapM f') := by
  induction as with
  | nil => exact .pure (.refl [])
  | cons a as ih =>
      rw [List.mapM_cons, List.mapM_cons]
      refine (hf a List.mem_cons_self).bind fun b b' hb => ?_
      exact (ih fun a' ha' => hf a' (List.mem_cons_of_mem a ha')).bind
        fun bs bs' hbs => .pure (hb.cons hbs)

end Agree

end Build

namespace Service

variable {svc svc' : Service}

open Text (snakeCase)

/-! ## Requests to two services -/

/-- A shape that has one form in two services has types that are alike. -/
theorem agree_shapeType_of_form {position : Position} {name : String}
    (h : svc.shapeForm position name = svc'.shapeForm position name) :
    SessionM.Agree (svc.shapeType position name) (svc'.shapeType position name) := by
  intro s t hs ht
  have hmakes := shapeType_spec svc hs position name
  have hmakes' := shapeType_spec svc' ht position name
  exact ⟨hmakes.ext.valid hs, hmakes'.ext.valid ht, hmakes.form.trans (h.trans hmakes'.form.symm)⟩

theorem agree_memberType_of_form {position : Position} {ref : Schema.ShapeRef}
    (h : svc.memberForm position ref = svc'.memberForm position ref) :
    SessionM.Agree (svc.memberType position ref) (svc'.memberType position ref) := by
  intro s t hs ht
  have hmakes := memberType_spec svc hs position ref
  have hmakes' := memberType_spec svc' ht position ref
  exact ⟨hmakes.ext.valid hs, hmakes'.ext.valid ht, hmakes.form.trans (h.trans hmakes'.form.symm)⟩

theorem agree_fixedDict (d : FixedDict) :
    SessionM.Agree (Session.fixedDict d) (Session.fixedDict d) := by
  have hform : ∀ s : Session, s.Valid →
      skeleton ((Session.fixedDict d).val s) = .dict ⟨0, d.name⟩ := by
    intro s hs
    obtain ⟨ref, hval, hfind⟩ := Session.find?_fixedDict d s
    have hname : ref.name = d.name := ((hs.fixedDict d).fixed _ ref hfind).1
    rw [hval, ← hname]
    rfl
  intro s t hs ht
  exact ⟨hs.fixedDict d, ht.fixedDict d, (hform s hs).trans (hform t ht).symm⟩

theorem agree_returnType_of_form {o : Schema.Operation}
    (h : ∀ output ∈ o.output,
      svc.shapeForm .output output.shape = svc'.shapeForm .output output.shape) :
    SessionM.Agree (svc.returnType o) (svc'.returnType o) := by
  intro s t hs ht
  refine ⟨(perform_spec svc hs (.returned o)).1, (perform_spec svc' ht (.returned o)).1, ?_⟩
  cases houtput : o.output with
  | none =>
      rw [(returnType_of_none svc houtput s).1, (returnType_of_none svc' houtput t).1]
      exact .refl _
  | some output =>
      rw [(returnType_of_some svc houtput s).1, (returnType_of_some svc' houtput t).1]
      exact (agree_shapeType_of_form (h output houtput) s t hs ht).2.2

/-! ## Arguments of two services -/

variable (svc svc') in
/-- The services take the same arguments for the input of this shape: they have one name,
the members of the shape are the same, and so are the forms of these. -/
structure SameInput (input : Schema.ShapeRef) : Prop where
  serviceName : svc.schema.serviceName = svc'.schema.serviceName
  shape : svc.model.shapes.get? input.shape = svc'.model.shapes.get? input.shape
  forms : ∀ shape ∈ svc.model.shapes.get? input.shape, ∀ m ∈ shape.members.entries,
    svc.memberForm .input m.2 = svc'.memberForm .input m.2

theorem SameInput.refl (svc : Service) (input : Schema.ShapeRef) : SameInput svc svc input where
  serviceName := rfl
  shape := rfl
  forms _ _ _ _ := rfl

theorem agree_specialType (k : SpecialType) :
    SessionM.Agree (Session.specialType k) (Session.specialType k) := by
  cases k with
  | body => exact .pure (.refl _)
  | copySource =>
      exact (agree_fixedDict .copySource).bind fun _ _ h =>
        .pure (Alike.unionOf_pair (.refl TypeExpr.str) h)

theorem agree_argument_of_form (operation : String) (shape : Schema.Shape)
    {member : String × Schema.ShapeRef} (hname : svc.schema.serviceName = svc'.schema.serviceName)
    (hform : svc.memberForm .input member.2 = svc'.memberForm .input member.2) :
    SessionM.Agree (svc.argument operation shape member)
      (svc'.argument operation shape member) := by
  have hargument : ∀ type type' : TypeExpr, Alike type type' → SessionM.Agree
      (pure (if shape.isRequired member.1 then Argument.needed member.1 type
        else .optional member.1 type))
      (pure (if shape.isRequired member.1 then Argument.needed member.1 type'
        else .optional member.1 type')) := by
    intro type type' h
    split
    · exact .pure (h.needed member.1)
    · exact .pure (h.optional member.1)
  unfold argument
  rw [hname]
  dsimp only
  split
  · exact (agree_specialType _).bind hargument
  · exact (agree_memberType_of_form hform).bind hargument

theorem SameInput.agree_arguments {input : Schema.ShapeRef} (h : SameInput svc svc' input)
    (operation : String) (exclude : List String) :
    SessionM.Agree (svc.arguments operation input exclude)
      (svc'.arguments operation input exclude) := by
  unfold arguments
  rw [← h.shape]
  split
  · exact .pure (.refl [])
  · next shape hshape =>
      refine (SessionM.Agree.mapM fun m hm => ?_).bind fun _ _ h => .pure h.requiredFirst
      exact agree_argument_of_form operation shape h.serviceName
        (h.forms shape hshape m (List.mem_of_mem_filter hm))

theorem agree_keywordArguments_of_same {o : Schema.Operation}
    (h : ∀ input ∈ o.input, SameInput svc svc' input) (name : String) (exclude : List String) :
    SessionM.Agree (svc.keywordArguments name o exclude)
      (svc'.keywordArguments name o exclude) := by
  unfold keywordArguments
  split
  · exact .pure (.refl [])
  · next input hinput =>
      exact ((h input hinput).agree_arguments name exclude).bind fun _ _ h =>
        .pure h.keywordOnly

/-- An operation with the same input and the form of the same output has methods that are
alike. -/
theorem agree_clientMethod_of_same {name : String}
    (hoperation : svc.operation name = svc'.operation name)
    (h : ∀ o, svc.operation name = .ok o → (∀ input ∈ o.input, SameInput svc svc' input) ∧
      ∀ output ∈ o.output,
        svc.shapeForm .output output.shape = svc'.shapeForm .output output.shape) :
    Build.Agree (svc.clientMethod name) (svc'.clientMethod name) := by
  unfold clientMethod
  rw [← hoperation]
  refine .ofExcept_bind fun o ho => ?_
  obtain ⟨hinput, houtput⟩ := h o ho
  refine .lift_bind (agree_keywordArguments_of_same hinput name []) fun as as' has => ?_
  refine .lift_bind (agree_returnType_of_form houtput) fun type type' htype => .pure ?_
  have hmethod := alike_function_iff.mp (has.method htype (snakeCase name))
  exact alike_function_iff.mpr ⟨rfl, hmethod.2.1, hmethod.2.2.1, rfl, hmethod.2.2.2.2⟩

variable (svc : Service)

/-! ## Requests -/

/-- **The type of a shape is alike in all sessions.** -/
theorem agree_shapeType (position : Position) (name : String) :
    SessionM.Agree (svc.shapeType position name) (svc.shapeType position name) :=
  agree_shapeType_of_form rfl

theorem agree_memberType (position : Position) (ref : Schema.ShapeRef) :
    SessionM.Agree (svc.memberType position ref) (svc.memberType position ref) :=
  agree_memberType_of_form rfl

theorem agree_returnType (o : Schema.Operation) :
    SessionM.Agree (svc.returnType o) (svc.returnType o) :=
  agree_returnType_of_form fun _ _ => rfl

/-! ## Arguments -/

theorem agree_argument (operation : String) (shape : Schema.Shape)
    (member : String × Schema.ShapeRef) :
    SessionM.Agree (svc.argument operation shape member) (svc.argument operation shape member) :=
  agree_argument_of_form operation shape rfl rfl

theorem agree_arguments (operation : String) (input : Schema.ShapeRef) (exclude : List String) :
    SessionM.Agree (svc.arguments operation input exclude)
      (svc.arguments operation input exclude) :=
  (SameInput.refl svc input).agree_arguments operation exclude

theorem agree_keywordArguments (name : String) (o : Schema.Operation) (exclude : List String) :
    SessionM.Agree (svc.keywordArguments name o exclude)
      (svc.keywordArguments name o exclude) :=
  agree_keywordArguments_of_same (fun input _ => .refl svc input) name exclude

/-! ## Methods of the low-level service -/

/-- The type that an operation returns comes last in every method. -/
theorem agree_returning (o : Schema.Operation) {f f' : TypeExpr → α}
    (hf : ∀ type type', Alike type type' → Alike (f type) (f' type')) :
    Build.Agree (liftM (svc.returnType o) >>= fun type => pure (f type))
      (liftM (svc.returnType o) >>= fun type => pure (f' type)) :=
  .lift_bind (svc.agree_returnType o) fun type type' h => .pure (hf type type' h)

theorem agree_clientMethod (name : String) :
    Build.Agree (svc.clientMethod name) (svc.clientMethod name) :=
  agree_clientMethod_of_same rfl fun _ _ => ⟨fun input _ => .refl svc input, fun _ _ => rfl⟩

theorem agree_paginateMethod (name : String) :
    Build.Agree (svc.paginateMethod name) (svc.paginateMethod name) := by
  unfold paginateMethod
  refine .ofExcept_bind fun rule _ => .ofExcept_bind fun o _ => ?_
  refine .lift_bind (svc.agree_keywordArguments name o _) fun as as' has => ?_
  refine .lift_bind (agree_fixedDict .paginatorConfig) fun settings settings' hset => ?_
  exact svc.agree_returning o fun type type' htype =>
    (has.addKeyword (hset.optional _)).method htype.iteratorOf _

theorem agree_waitOn (name operation : String) (o : Schema.Operation) (exclude : List String) :
    SessionM.Agree (svc.waitOn name operation o exclude) (svc.waitOn name operation o exclude) := by
  unfold waitOn
  refine (svc.agree_keywordArguments operation o exclude).bind fun as as' has => ?_
  refine (agree_fixedDict .waiterConfig).bind fun settings settings' hset => ?_
  exact .pure ((has.addKeyword (hset.optional _)).method (.refl .none) name)

theorem agree_waitMethod (name : String) :
    Build.Agree (svc.waitMethod name) (svc.waitMethod name) :=
  .ofExcept_bind fun rule _ => .ofExcept_bind fun o _ =>
    .lift (svc.agree_waitOn "wait" rule.operation o [])

/-! ## Methods of resources -/

theorem agree_actionOf (name : String) (a : Schema.Action) :
    Build.Agree (svc.actionOf name a) (svc.actionOf name a) := by
  unfold actionOf
  refine .ofExcept_bind fun yielded _ => ?_
  split
  · exact .pure (.refl _)
  · next request _ =>
      refine .ofExcept_bind fun o _ => ?_
      refine .lift_bind (svc.agree_keywordArguments request.operation o _) fun as as' has => ?_
      dsimp only
      split
      · exact .pure (has.method (.refl _) _)
      · exact svc.agree_returning o fun type type' htype => has.method htype _

theorem agree_actionMethod (owner : Schema.ResourceModel) (name : String) :
    Build.Agree (svc.actionMethod owner name) (svc.actionMethod owner name) :=
  .ofExcept_bind fun a _ => svc.agree_actionOf name a

theorem agree_batchMethod (name : String) (a : Schema.Action) :
    Build.Agree (svc.batchMethod name a) (svc.batchMethod name a) := by
  unfold batchMethod
  split
  · exact .throw _
  · next request _ =>
      refine .ofExcept_bind fun o _ => ?_
      refine .lift_bind (svc.agree_keywordArguments request.operation o _) fun as as' has => ?_
      exact svc.agree_returning o fun type type' htype => has.method htype.listOf _

theorem agree_filterMethod (relation : Schema.Action) (self : TypeExpr) :
    Build.Agree (svc.filterMethod relation self) (svc.filterMethod relation self) := by
  unfold filterMethod
  split
  · exact .pure (.refl _)
  · next request _ =>
      refine .ofExcept_bind fun o _ => ?_
      exact .lift_bind (svc.agree_keywordArguments request.operation o _) fun as as' has =>
        .pure (has.method (.refl self) _)

theorem agree_resourceWaitMethod (name : String) (w : Schema.ResourceWaiter) :
    Build.Agree (svc.resourceWaitMethod name w) (svc.resourceWaitMethod name w) :=
  .ofExcept_bind fun rule _ => .ofExcept_bind fun o _ =>
    .lift (svc.agree_waitOn _ rule.operation o _)

/-! ## Attributes of resources -/

/-- Attributes that are alike have the same names, so the same members are
skipped. -/
theorem agree_addMemberAttribute {as as' : List Attribute} (has : Alike as as')
    (member : String × Schema.ShapeRef) :
    SessionM.Agree (svc.addMemberAttribute as member) (svc.addMemberAttribute as' member) := by
  have hnames : as.map (·.name) = as'.map (·.name) :=
    has.map_eq fun _ _ h => (alike_attribute_iff.mp h).1
  have hany : ∀ (n : String) (as : List Attribute),
      as.any (·.name = n) = (as.map (·.name)).any (· = n) := by
    intro n as
    rw [List.any_map]
    rfl
  unfold addMemberAttribute
  rw [hany _ as, hany _ as', hnames]
  split
  · exact .pure has
  · refine (svc.agree_memberType .output member.2).bind fun type type' htype => .pure ?_
    exact has.append (.cons (alike_attribute_iff.mpr ⟨rfl, htype⟩) (.refl []))

theorem agree_resourceAttributes (r : Schema.ResourceModel) :
    SessionM.Agree (svc.resourceAttributes r) (svc.resourceAttributes r) := by
  unfold resourceAttributes
  split
  · exact .pure (.refl _)
  · exact .foldlM (fun _ _ member has => svc.agree_addMemberAttribute has member) (.refl _)

end Service

end ServiceStubs
