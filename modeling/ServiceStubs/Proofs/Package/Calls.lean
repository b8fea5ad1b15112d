import ServiceStubs.Proofs.Package.Plan
import ServiceStubs.Proofs.Session.Invariant

/-!
# Sequences of calls

Types, methods and entities may be made in one session in any order, and some of
them may fail.  Each call makes requests only, so the invariant of requests holds
after any calls; what was returned so far is told by the plans of the calls.

## Main definitions

* `Call` — what may be made, one call each, with `Service.after`, the session
  after it, and `Service.callPlan`, its plan.
* `Service.Taken` — some call took a dictionary as what an operation returns.
* `Service.Entry` — a dictionary with all its fields.
* `Service.dictionaries_afterAll` — what the session holds after any calls.
-/

namespace ServiceStubs

open Session (Request)

/-- What may be made in a session. -/
inductive Call
  | shapeType (position : Position) (name : String)
  | fixedDict (d : FixedDict)
  | arguments (operation : String) (input : Schema.ShapeRef) (exclude : List String)
  | returnType (o : Schema.Operation)
  | clientMethod (name : String)
  | paginateMethod (name : String)
  | waitMethod (name : String)
  | action (name : String) (a : Schema.Action)
  | actionMethod (owner : Schema.ResourceModel) (name : String)
  | batchMethod (name : String) (a : Schema.Action)
  | filterMethod (relation : Schema.Action) (self : TypeExpr)
  | resourceWaitMethod (name : String) (w : Schema.ResourceWaiter)
  | resourceAttributes (r : Schema.ResourceModel)
  | client
  | paginators
  | waiters
  | collection (parent : String) (owner : Schema.ResourceModel) (name : String)
  | collections (parent : String) (owner : Schema.ResourceModel)
  | resource (name : String)
  | serviceResource
  | package

namespace Service

variable (svc : Service)

/-- The session after a call, whether or not the call fails. -/
def after (s : Session) : Call → Session
  | .shapeType position name => (svc.shapeType position name).state s
  | .fixedDict d => (Session.fixedDict d).state s
  | .arguments operation input exclude => (svc.arguments operation input exclude).state s
  | .returnType o => (svc.returnType o).state s
  | .clientMethod name => (svc.clientMethod name).state s
  | .paginateMethod name => (svc.paginateMethod name).state s
  | .waitMethod name => (svc.waitMethod name).state s
  | .action name a => (svc.actionOf name a).state s
  | .actionMethod owner name => (svc.actionMethod owner name).state s
  | .batchMethod name a => (svc.batchMethod name a).state s
  | .filterMethod relation self => (svc.filterMethod relation self).state s
  | .resourceWaitMethod name w => (svc.resourceWaitMethod name w).state s
  | .resourceAttributes r => (svc.resourceAttributes r).state s
  | .client => svc.client.state s
  | .paginators => svc.paginators.state s
  | .waiters => svc.waiters.state s
  | .collection parent owner name => (svc.collection parent owner name).state s
  | .collections parent owner => (svc.collections parent owner).state s
  | .resource name => (svc.resource name).state s
  | .serviceResource => svc.serviceResource.state s
  | .package => svc.package.state s

/-- The session after some calls, one after the other, in a new session. -/
def afterAll (calls : List Call) : Session :=
  calls.foldl svc.after {}

/-- The plan of a call: the operations whose results it takes. -/
def callPlan : Call → Plan
  | .shapeType _ _ | .fixedDict _ | .arguments _ _ _ | .resourceAttributes _ => .done
  | .returnType o => .take o
  | .clientMethod name => svc.clientMethodPlan name
  | .paginateMethod name => svc.paginateMethodPlan name
  | .waitMethod name => svc.waitMethodPlan name
  | .action _ a => svc.actionPlan a
  | .actionMethod owner name => svc.actionMethodPlan owner name
  | .batchMethod _ a => svc.batchMethodPlan a
  | .filterMethod relation _ => svc.filterMethodPlan relation
  | .resourceWaitMethod _ w => svc.resourceWaitMethodPlan w
  | .client => svc.clientPlan
  | .paginators => .forAll svc.schema.paginators.keys svc.paginateMethodPlan
  | .waiters => .forAll svc.schema.waiters.entries fun entry => svc.waitMethodPlan entry.1
  | .collection _ owner name => svc.collectionPlan owner name
  | .collections _ owner => svc.collectionsPlan owner
  | .resource name => svc.resourcePlan name
  | .serviceResource => svc.serviceResourcePlan
  | .package => svc.packagePlan

/-! ## Calls make requests only -/

/-- **Every call makes requests only, and takes the results that its plan says.** -/
theorem requests_of_call (s : Session) (c : Call) :
    ∃ rs, svc.performAll s rs = svc.after s c ∧
      Request.returnedBy rs = (svc.callPlan c).returned := by
  cases c with
  | shapeType position name => exact follows_shapeType svc position name s
  | fixedDict d => exact follows_fixedDict svc d s
  | arguments operation input exclude => exact follows_arguments svc operation input exclude s
  | returnType o => exact follows_returnType svc o s
  | clientMethod name => exact (follows_clientMethod svc name).requests s
  | paginateMethod name => exact (follows_paginateMethod svc name).requests s
  | waitMethod name => exact (follows_waitMethod svc name).requests s
  | action name a => exact (follows_actionOf svc name a).requests s
  | actionMethod owner name => exact (follows_actionMethod svc owner name).requests s
  | batchMethod name a => exact (follows_batchMethod svc name a).requests s
  | filterMethod relation self => exact (follows_filterMethod svc relation self).requests s
  | resourceWaitMethod name w => exact (follows_resourceWaitMethod svc name w).requests s
  | resourceAttributes r => exact follows_resourceAttributes svc r s
  | client => exact (follows_client svc).requests s
  | paginators => exact (follows_paginators svc).requests s
  | waiters => exact (follows_waiters svc).requests s
  | collection parent owner name => exact (follows_collection svc parent owner name).requests s
  | collections parent owner => exact (follows_collections svc parent owner).requests s
  | resource name => exact (follows_resource svc name).requests s
  | serviceResource => exact (follows_serviceResource svc).requests s
  | package => exact (follows_package svc).requests s

theorem leads_after (s : Session) (c : Call) : svc.Leads s (svc.after s c) := by
  obtain ⟨rs, hrs, -⟩ := svc.requests_of_call s c
  exact ⟨rs, hrs⟩

theorem requests_of_calls (s : Session) (calls : List Call) :
    ∃ rs, svc.performAll s rs = calls.foldl svc.after s ∧
      Request.returnedBy rs = calls.flatMap fun c => (svc.callPlan c).returned := by
  induction calls generalizing s with
  | nil => exact ⟨[], rfl, rfl⟩
  | cons c cs ih =>
      obtain ⟨rs, hrs, hos⟩ := svc.requests_of_call s c
      obtain ⟨rs', hrs', hos'⟩ := ih (svc.after s c)
      refine ⟨rs ++ rs', ?_, ?_⟩
      · rw [performAll_append, hrs, hrs', List.foldl_cons]
      · rw [Request.returnedBy, List.filterMap_append, List.flatMap_cons, ← hos, ← hos']
        rfl

/-- Later calls start where earlier ones ended. -/
theorem afterAll_append (calls more : List Call) :
    svc.afterAll (calls ++ more) = more.foldl svc.after (svc.afterAll calls) :=
  List.foldl_append

/-- Calls take nothing away. -/
theorem grows_foldl_after {s : Session} (hs : s.Valid) (calls : List Call) :
    s.Grows (calls.foldl svc.after s) := by
  obtain ⟨rs, hrs, -⟩ := svc.requests_of_calls s calls
  rw [← hrs]
  exact (performAll_spec svc hs rs).2

/-! ## What was taken -/

/-- Some call so far took the dictionary of the name `n` as what an operation
returns. -/
def Taken (calls : List Call) (n : String) : Prop :=
  ∃ c ∈ calls, ∃ o ∈ (svc.callPlan c).returned, ∃ output shape,
    o.output = some output ∧ svc.Describes output.shape shape n

variable {svc}

theorem returned_iff {rs : List Request} {n : String} :
    svc.Returned rs n ↔ ∃ o ∈ Request.returnedBy rs, ∃ output shape,
      o.output = some output ∧ svc.Describes output.shape shape n := by
  constructor
  · rintro ⟨r, hr, hreturns⟩
    cases r with
    | returned o => exact ⟨o, List.mem_filterMap.mpr ⟨.returned o, hr, rfl⟩, hreturns⟩
    | _ => exact hreturns.elim
  · rintro ⟨o, ho, hreturns⟩
    obtain ⟨r, hr, hro⟩ := List.mem_filterMap.mp ho
    cases r with
    | returned o' =>
        obtain rfl := Option.some.inj hro
        exact ⟨.returned o', hr, hreturns⟩
    | _ => nomatch hro

/-- The invariant of requests holds after any calls. -/
theorem consistent_afterAll (svc : Service) (calls : List Call) :
    svc.Consistent (svc.Taken calls) (svc.afterAll calls) := by
  obtain ⟨rs, hrs, hos⟩ := svc.requests_of_calls {} calls
  have htaken : svc.Returned rs = svc.Taken calls := by
    funext n
    rw [eq_iff_iff, returned_iff, hos]
    simp only [Taken, List.mem_flatMap]
    constructor
    · rintro ⟨o, ⟨c, hc, ho⟩, h⟩
      exact ⟨c, hc, o, ho, h⟩
    · rintro ⟨c, hc, o, ho, h⟩
      exact ⟨o, ⟨c, hc, ho⟩, h⟩
  rw [← htaken, afterAll, ← hrs]
  exact consistent_performAll svc rs

/-! ## The dictionaries of a session -/

variable (svc) in
/-- The dictionary `d` is that of a record shape of the name `n` with members:
its fields are the members in order, each required as the shape says and written
as the type of the member is wherever it is asked for, and then, if the
dictionary was taken as what an operation returns and the shape has no such
member, a required field for what every response says about itself: the fixed
dictionary of that name. -/
def Entry (taken : Prop) (n : String) (d : TypedDict) : Prop :=
  ∃ shapeName shape position own extra, svc.Describes shapeName shape n ∧ d.name = n ∧
    d.docstring = shape.documentation.map Text.plain ∧ d.fields = own ++ extra ∧
    List.Forall₂ (fun member f => f.name = member.1 ∧ f.required = shape.isRequired member.1 ∧
        ∀ calls, f.type.text = ((svc.memberType position member.2).val (svc.afterAll calls)).text)
      shape.members.entries own ∧
    (taken ∧ metadataField ∉ shape.members.keys →
      ∃ ref : DictRef, ref.name = FixedDict.responseMetadata.name ∧
        extra = [⟨metadataField, .dict ref, true⟩]) ∧
    (¬ (taken ∧ metadataField ∉ shape.members.keys) → extra = [])

/-- A field is written as the type of its member is in any valid session. -/
theorem FieldFor.text {s t : Session} {position : Position} {shape : Schema.Shape}
    {member : String × Schema.ShapeRef} {f : Field} (h : svc.FieldFor s position shape member f)
    (ht : t.Valid) : f.type.text = ((svc.memberType position member.2).val t).text :=
  TypeExpr.text_eq_of_skeleton_eq
    (h.form.trans (memberType_spec svc ht position member.2).form.symm)

theorem Complete.entry {s : Session} {taken : Prop} {n : String} {d : TypedDict}
    (h : svc.Complete s taken n d) (hs : s.Valid) : svc.Entry taken n d := by
  obtain ⟨shapeName, shape, position, own, extra, hshape, hname, hdoc, hfields, hown, hextra⟩ := h
  refine ⟨shapeName, shape, position, own, extra, hshape, hname, hdoc, hfields,
    hown.imp fun member f hf => ⟨hf.name, hf.required, fun calls =>
      hf.text (svc.consistent_afterAll calls).valid⟩, ?_, ?_⟩
  · intro hadded
    rcases hextra with ⟨-, ref, href, rfl⟩ | ⟨hno, -⟩
    · exact ⟨ref, (hs.fixed _ ref href).1, rfl⟩
    · exact absurd hadded hno
  · intro hno
    rcases hextra with ⟨hadded, -⟩ | ⟨-, hextra⟩
    · exact absurd hadded hno
    · exact hextra

/-- **After any calls, succeeding or failing, every dictionary that was derived
from a shape stands under its own name, which is not reserved, and has all its
fields and no others; and later calls take nothing away.** -/
theorem dictionaries_afterAll (svc : Service) (calls : List Call) :
    (∀ n r, (svc.afterAll calls).shapes.find? n = some r →
      r.name = n ∧ isReserved n = false ∧
        svc.Entry (svc.Taken calls n) n ((svc.afterAll calls).store.get r)) ∧
    (∀ n, svc.Taken calls n → ∃ r, (svc.afterAll calls).shapes.find? n = some r) ∧
    ∀ more, (svc.afterAll calls).Grows (svc.afterAll (calls ++ more)) := by
  have hcons := svc.consistent_afterAll calls
  refine ⟨?_, hcons.returned, ?_⟩
  · intro n r hr
    exact ⟨(hcons.valid.shapes n r hr).1, hcons.not_reserved hr, (hcons.shapes n r hr).entry hcons.valid⟩
  · intro more
    obtain ⟨rs, hrs, -⟩ := svc.requests_of_calls (svc.afterAll calls) more
    have happend : svc.afterAll (calls ++ more) = more.foldl svc.after (svc.afterAll calls) :=
      List.foldl_append
    rw [happend, ← hrs]
    exact (performAll_spec svc hcons.valid rs).2

end Service

/-! ## A service -/

open Schema in
/-- A service of boxes, each of which may hold another box. -/
def boxSchema : Schema where
  serviceName := "store"
  className := "Store"
  model :=
    { operations :=
        { entries :=
            [("ListBoxes", { input := some ⟨"ListRequest", none⟩, output := some ⟨"ListResult", none⟩ }),
              ("DeleteBox", { input := some ⟨"Box", none⟩ })] }
      shapes :=
        { entries :=
            [("ListRequest",
                { kind := .record, members := { entries := [("Limit", ⟨"Number", none⟩)] } }),
              ("ListResult",
                { kind := .record, members := { entries := [("Boxes", ⟨"Boxes", none⟩)] },
                  required := ["Boxes"] }),
              ("Boxes", { kind := .list, member := some ⟨"Box", none⟩ }),
              ("Box",
                { kind := .record,
                  members := { entries := [("Name", ⟨"Text", none⟩), ("Inner", ⟨"Box", none⟩)] },
                  required := ["Name"] }),
              ("Number", { kind := .integer }),
              ("Text", { kind := .string })] } }
  paginators := { entries := [("ListBoxes", { inputToken := .single "Limit" })] }
  waiters := { entries := [("BoxGone", { operation := "ListBoxes" })] }
  resources := some
    { service :=
        { hasMany :=
            { entries :=
                [("Boxes", { request := some { operation := "ListBoxes" }
                             resource := some { type := "Box", path := some "Boxes[]" } })] } }
      resources :=
        { entries :=
            [("Box", { identifiers := [⟨"Name"⟩]
                       actions := { entries :=
                        [("Delete", { request := some { operation := "DeleteBox" } })] }
                       waiters := { entries := [("Gone", { waiterName := "BoxGone" })] } })] } }
  documentation :=
    { entries := [("StoreClient.open", ":param key: The key.\n:type key: locks.keys.Key")] }

/-- The dictionary of boxes refers back to itself, and what lists them is
returned. -/
example :
    let s := (Service.ofSchema boxSchema).afterAll [.package]
    s.shapes.refs.values.map (fun r => (r.name, (s.store.get r).fields.map (·.type.text))) =
      [("ListResultTypeDef", ["List[BoxTypeDef]", "ResponseMetadataTypeDef"]),
        ("BoxTypeDef", ["str", "BoxTypeDef"])] := by
  decide +kernel

theorem boxSchema_package : ∃ p, boxSchema.package.1 = .ok p := by
  have hok : boxSchema.package.1.isOk := by decide +kernel
  cases hpackage : boxSchema.package.1 with
  | ok p => exact ⟨p, rfl⟩
  | error e => simp [hpackage, Except.isOk, Except.toBool] at hok

end ServiceStubs
