import ServiceStubs.Proofs.Package.Calls
import ServiceStubs.Proofs.Session.Distinct
import ServiceStubs.Proofs.Session.Methods
import ServiceStubs.Proofs.Session.Position

/-!
# Bytes in types, after any calls

Outside of dictionaries bytes are written for the position that a type was asked
for.  A dictionary is shared by all who refer to its shape, in whichever position,
so bytes in it are written for the position of the request that made it: one of an
earlier call, or one for the type itself.

## Main definitions

* `Service.DictsFollow` — the dictionaries that types reach, by their positions.
* `SessionM.AsksFor.dictsFollow` — the types that a step for one position makes.
* `Service.ArgumentFor` — the argument for a member, and bytes in it.
* `Service.blobs_afterAll` — types of shapes, results and arguments after any calls.
-/

namespace ServiceStubs

open Session (Request)

namespace Service

/-! ## The dictionaries that types reach -/

/-- Bytes in a dictionary that one of the types reaches are written for the position
that the dictionary was first asked for, and for `position` if it was not asked for
at all.  The dictionaries that every service has are not about shapes. -/
def DictsFollow (svc : Service) (first : String → Option Position) (position : Position)
    (st : Store) (as : List TypeExpr) : Prop :=
  ∀ r, st.ReachedFrom as (.dict r) → (∃ d : FixedDict, st.get r = d.dict) ∨
    svc.WrittenFor ((first r.name).getD position) r.name (st.get r)

end Service

/-- **A step for one position makes dictionaries for it, and shares the others.** -/
theorem SessionM.AsksFor.dictsFollow {α : Type} {svc : Service} {position : Position}
    {m : SessionM α} (h : AsksFor svc position m) (qs : List Request) {as : List TypeExpr}
    (has : ∀ a ∈ as, svc.Known (m.state (svc.performAll {} qs)) a) :
    svc.DictsFollow (svc.firstPosition {} qs) position
      (m.state (svc.performAll {} qs)).store as := by
  obtain ⟨qs', hqs', -⟩ := h (svc.performAll {} qs)
  have hcons := svc.consistent_performAll (qs ++ qs')
  rw [Service.performAll_append, hqs'] at hcons
  rintro r ⟨a, ha, t, ht, hreaches⟩
  rcases hcons.knownHead_of_reaches (has a ha t ht) hreaches with hr | hr
  · exact .inr (h.writtenFor hr)
  · obtain ⟨d, -, hd⟩ := hcons.fixed _ r hr
    exact .inl ⟨d, hd⟩

namespace Service

variable {svc : Service} {s : Session}

/-! ## Arguments -/

theorem asksFor_argument (svc : Service) (operation : String) (shape : Schema.Shape)
    (member : String × Schema.ShapeRef) :
    SessionM.AsksFor svc .input (svc.argument operation shape member) := by
  have hfixed : ∀ d, SessionM.AsksFor svc .input (Session.fixedDict d) :=
    fun d => .of_perform (.fixed d) nofun fun _ => rfl
  unfold argument
  dsimp only
  split
  · next special _ =>
      cases special with
      | body => exact .pure _
      | copySource => exact ((hfixed .copySource).bind fun _ => .pure _).bind fun _ => .pure _
  · exact (asksFor_memberType svc .input member.2).bind fun _ => .pure _

theorem asksFor_arguments (svc : Service) (operation : String) (input : Schema.ShapeRef)
    (exclude : List String) :
    SessionM.AsksFor svc .input (svc.arguments operation input exclude) := by
  unfold arguments
  split
  · exact .pure _
  · next shape _ =>
      exact (SessionM.AsksFor.mapM fun m => asksFor_argument svc operation shape m).bind
        fun _ => .pure _

variable (svc) in
/-- The argument for a member of the input of an operation.  Bytes in its type are
written for input, unless the argument has a special type. -/
def ArgumentFor (operation : String) (member : String × Schema.ShapeRef) (a : Argument) : Prop :=
  a.name = member.1 ∧ ∃ type, a.type = some type ∧
    (specialType? svc.schema.serviceName operation member.1 = none →
      svc.BlobsFollow .input member.2.shape type)

theorem yields_argumentFor (hs : s.Valid) (operation : String) (shape : Schema.Shape)
    (member : String × Schema.ShapeRef) :
    SessionM.Yields svc s (svc.argument operation shape member)
      fun _ a => svc.ArgumentFor operation member a := by
  have hargument : ∀ type, (specialType? svc.schema.serviceName operation member.1 = none →
      svc.BlobsFollow .input member.2.shape type) → svc.ArgumentFor operation member
        (if shape.isRequired member.1 then .needed member.1 type else .optional member.1 type) := by
    intro type htype
    split <;> exact ⟨rfl, type, rfl, htype⟩
  unfold argument
  dsimp only
  split
  · next special hspecial =>
      exact (yields_specialType hs special).bind hs fun t type _ _ _ =>
        .pure (hargument type fun hnone => by simp [hspecial] at hnone)
  · have hmakes := memberType_spec svc hs .input member.2
    exact ⟨(yields_memberType hs .input member.2).leads,
      hargument _ fun _ => blobsFollow_of_memberForm hmakes.form⟩

/-- Every argument is that for a member. -/
theorem exists_member_of_argument (hs : s.Valid) {operation : String} {input : Schema.ShapeRef}
    {exclude : List String} {shape : Schema.Shape}
    (hshape : svc.model.shapes.get? input.shape = some shape) {a : Argument}
    (ha : a ∈ (svc.arguments operation input exclude).val s) :
    ∃ member ∈ shape.members.entries, svc.ArgumentFor operation member a := by
  have hall : SessionM.Yields svc s
      ((shape.members.entries.filter (!exclude.contains ·.1)).mapM
        (svc.argument operation shape))
      fun _ as => List.Forall₂ (svc.ArgumentFor operation)
        (shape.members.entries.filter (!exclude.contains ·.1)) as :=
    .mapM hs (fun _ _ _ _ _ h => h) fun m _ t ht _ => yields_argumentFor ht operation shape m
  have hmem : a ∈ ((shape.members.entries.filter (!exclude.contains ·.1)).mapM
      (svc.argument operation shape)).val s := by
    simp only [arguments, hshape, SessionM.val_bind, SessionM.val_pure, requiredFirst,
      List.mem_append, List.mem_filter] at ha
    exact ha.elim And.left And.left
  obtain ⟨member, hmember, hfor⟩ := exists_of_mem_forall₂ hall.holds hmem
  exact ⟨member, (List.mem_filter.mp hmember).1, hfor⟩

/-! ## After any calls -/

/-- **Bytes are written for the position that the type was asked for, except in
dictionaries that were asked for before**: in these they are written for the
position of the first request.  It is so in the type of a shape, in what an
operation returns, which is asked for as output, and in the arguments of an
operation, which are asked for as input. -/
theorem blobs_afterAll (svc : Service) (calls : List Call) :
    (∃ qs, svc.performAll {} qs = svc.afterAll calls) ∧
    ∀ qs, svc.performAll {} qs = svc.afterAll calls →
      (∀ position name,
        svc.BlobsFollow position name ((svc.shapeType position name).val (svc.afterAll calls)) ∧
        svc.DictsFollow (svc.firstPosition {} qs) position
          ((svc.shapeType position name).state (svc.afterAll calls)).store
          [(svc.shapeType position name).val (svc.afterAll calls)]) ∧
      (∀ o output, o.output = some output →
        svc.BlobsFollow .output output.shape ((svc.returnType o).val (svc.afterAll calls)) ∧
        svc.DictsFollow (svc.firstPosition {} qs) .output
          ((svc.returnType o).state (svc.afterAll calls)).store
          [(svc.returnType o).val (svc.afterAll calls)]) ∧
      ∀ operation input exclude shape, svc.model.shapes.get? input.shape = some shape →
        (∀ a ∈ (svc.arguments operation input exclude).val (svc.afterAll calls),
          ∃ member ∈ shape.members.entries, svc.ArgumentFor operation member a) ∧
        svc.DictsFollow (svc.firstPosition {} qs) .input
          ((svc.arguments operation input exclude).state (svc.afterAll calls)).store
          (((svc.arguments operation input exclude).val (svc.afterAll calls)).filterMap
            (·.type)) := by
  refine ⟨?_, ?_⟩
  · obtain ⟨qs, hqs, -⟩ := svc.requests_of_calls {} calls
    exact ⟨qs, hqs⟩
  · intro qs hqs
    have hvalid := (svc.consistent_afterAll calls).valid
    rw [← hqs] at hvalid ⊢
    refine ⟨?_, ?_, ?_⟩
    · intro position name
      have hmakes := shapeType_spec svc hvalid position name
      exact ⟨blobsFollow_of_form hmakes.form,
        (asksFor_shapeType svc position name).dictsFollow qs (by simpa using hmakes.known)⟩
    · intro o output houtput
      have hval := (returnType_of_some svc houtput (svc.performAll {} qs)).1
      refine ⟨?_, (asksFor_returnType svc o).dictsFollow qs ?_⟩
      · rw [hval]
        exact blobsFollow_of_form (shapeType_spec svc hvalid .output output.shape).form
      · simpa using (yields_returnType hvalid o).holds
    · intro operation input exclude shape hshape
      refine ⟨fun a ha => exists_member_of_argument hvalid hshape ha,
        (asksFor_arguments svc operation input exclude).dictsFollow qs fun type htype => ?_⟩
      obtain ⟨a, ha, htype⟩ := List.mem_filterMap.mp htype
      have htyped := typed_list_iff.mp (yields_arguments hvalid operation input exclude).holds a ha
      have ha := typed_argument_iff.mp htyped type htype
      simpa using ha

end Service

/-! ## A service that takes and returns the same bytes -/

open Schema in
/-- A service whose shape `Data` holds bytes. -/
def blobSchema : Schema where
  serviceName := "vault"
  className := "Vault"
  model :=
    { shapes :=
        { entries :=
            [("Data", { kind := .record, members := { entries := [("Body", ⟨"Bytes", none⟩)] } }),
              ("Bytes", { kind := .blob })] } }

/-- The dictionary that was asked for as input is what the output gets. -/
theorem blobs_afterAll_blobSchema :
    let svc := Service.ofSchema blobSchema
    let before := svc.afterAll [.shapeType .input "Data"]
    svc.performAll {} [.shape .input "Data"] = before ∧
    ∃ r, (svc.shapeType .output "Data").val before = .dict r ∧
      svc.WrittenFor .input r.name (((svc.shapeType .output "Data").state before).store.get r) := by
  have h := (Service.blobs_afterAll (Service.ofSchema blobSchema) [.shapeType .input "Data"]).2
    [.shape .input "Data"] rfl
  refine ⟨rfl, ⟨0, "DataTypeDef"⟩, rfl, ?_⟩
  have hfollow := (h.1 .output "Data").2 ⟨0, "DataTypeDef"⟩
    ⟨_, List.mem_singleton_self _, _, List.mem_singleton_self _, .refl⟩
  have hfirst : (Service.ofSchema blobSchema).firstPosition {} [.shape .input "Data"]
      "DataTypeDef" = some .input := by
    decide +kernel
  rcases hfollow with ⟨d, hd⟩ | hwritten
  · have hname : "DataTypeDef" = d.name := congrArg TypedDict.name hd
    cases d <;> nomatch hname
  · rwa [hfirst] at hwritten

/-- **The same shape as output has the bytes of input** once it was asked for as
input. -/
theorem blobSchema_keeps_input :
    let svc := Service.ofSchema blobSchema
    let before := svc.afterAll [.shapeType .input "Data"]
    svc.model.shapes.get? "Bytes" = some { kind := .blob } ∧
    ∃ r type, (svc.shapeType .output "Data").val before = .dict r ∧
      (((svc.shapeType .output "Data").state before).store.get r).fields = [⟨"Body", type, false⟩] ∧
      type = blobType false .input ∧ type ≠ blobType false .output := by
  refine ⟨by decide +kernel, ⟨0, "DataTypeDef"⟩, .blobInput, ?_, ?_, rfl, nofun⟩
  · rfl
  · rfl

end ServiceStubs
