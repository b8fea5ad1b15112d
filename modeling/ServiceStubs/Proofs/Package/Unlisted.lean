import ServiceStubs.Proofs.Package.Rendering
import ServiceStubs.Proofs.Schema.Lookup
import ServiceStubs.Proofs.Schema.Unlisted
import ServiceStubs.Proofs.Session.Blob

/-!
# Methods of operations that no correction names

The method of an operation is made from the members of its shapes and from the types of
these, and the type of a record does not show its members, only whether it has any.  So
an operation that no correction names has the method that it would have without any
corrections, unless it shares its input or output with an operation that a correction
names and the correction applies, or a correction takes the last member of a record
that its types refer to.

## Main definitions

* `Service.formWithin_eq_of_sameHead` — the forms of types in two services.
* `Service.returnedFields` — the fields of the dictionary that an operation returns.
* `Schema.uncorrected` — the schema without the operations that corrections name.
* `Schema.Spares` — corrections leave all alone that an operation is made from.
* `Schema.untouched_unless_shared` — what corrections do to operations that they do not
  name.
-/

namespace ServiceStubs

namespace Service

variable {svc svc' : Service} {position : Position} {name : String} {s : Session}

/-! ## Forms in two services -/

variable (svc svc') in
/-- The shape of this name is the same in both services, except perhaps for its members;
but it has some in both of them, or in none. -/
def SameHead (name : String) : Prop :=
  (svc.model.shapes.get? name = none ∧ svc'.model.shapes.get? name = none) ∨
    ∃ shape members required, svc'.model.shapes.get? name = some shape ∧
      svc.model.shapes.get? name = some { shape with members, required } ∧
      members.isEmpty = shape.members.isEmpty

theorem refForm_eq_of_keys (hkeys : svc.model.shapes.keys = svc'.model.shapes.keys)
    (form : Position → String → TypeExpr) (ref : Option Schema.ShapeRef) (default : TypeExpr) :
    svc.refForm form position ref default = svc'.refForm form position ref default := by
  cases ref with
  | none => rfl
  | some ref =>
      have hcontains : svc.model.shapes.contains ref.shape = svc'.model.shapes.contains ref.shape := by
        rw [OrderedMap.contains, OrderedMap.contains, hkeys]
      simp only [refForm]
      rw [hcontains]

/-- One level of a form is the same where the shape is. -/
theorem formWith_eq_of_sameHead (hresources : svc.resourceNames = svc'.resourceNames)
    (hkeys : svc.model.shapes.keys = svc'.model.shapes.keys) (h : SameHead svc svc' name)
    (form : Position → String → TypeExpr) :
    svc.formWith form position name = svc'.formWith form position name := by
  have hunknown : ∀ n, svc.unknownType n = svc'.unknownType n := by
    intro n
    rw [unknownType, unknownType, hresources]
  unfold formWith
  rcases h with ⟨hnone, hnone'⟩ | ⟨shape, members, required, hshape', hshape, hempty⟩
  · rw [hnone, hnone']
    exact hunknown name
  · rw [hshape, hshape']
    dsimp only
    cases shape.kind with
    | other tag => exact hunknown tag
    | record => simp only [hempty]
    | list => simp only [refForm_eq_of_keys hkeys]
    | map => simp only [refForm_eq_of_keys hkeys]
    | _ => rfl

/-- The form of a type is the same in both services if the shape and its parts are. -/
theorem formWithin_eq_of_sameHead (hresources : svc.resourceNames = svc'.resourceNames)
    (hkeys : svc.model.shapes.keys = svc'.model.shapes.keys)
    (h : ∀ part, Relation.ReflTransGen svc'.model.HasPart name part → SameHead svc svc' part)
    (depth : Nat) :
    svc.formWithin depth position name = svc'.formWithin depth position name := by
  induction depth generalizing name with
  | zero => rfl
  | succ depth ih =>
      refine (formWith_eq_of_sameHead hresources hkeys (h name .refl) _).trans ?_
      refine formWith_congr fun part hpart => ?_
      exact ih fun n hn => h n (.head hpart hn)

/-! ## What operations return -/

/-- The fields of the dictionary that an operation returns, as they are written: their
names, their types, and whether they are required. -/
def returnedFields (svc : Service) (s : Session) (o : Schema.Operation) :
    List (String × String × Bool) :=
  match (svc.returnType o).val s with
  | .dict ref => (((svc.returnType o).state s).store.get ref).fields.map fun f =>
      (f.name, f.type.text, f.required)
  | _ => []

/-- A field is written as the form of its member is. -/
theorem map_fields_of_fieldsFor {shape : Schema.Shape} {ms : List (String × Schema.ShapeRef)}
    {fs : List Field} (h : List.Forall₂ (svc.FieldFor s position shape) ms fs) :
    (fs.map fun f => (f.name, f.type.text, f.required)) =
      ms.map fun m => (m.1, (svc.memberForm position m.2).text, shape.isRequired m.1) := by
  refine map_eq_of_forall₂ (h.imp fun m f hf => ?_)
  rw [hf.name, hf.required, ← hf.form, TypeExpr.text_skeleton]

/-- What the dictionary of a record shape that is returned has for its members, and for
what every response says about itself. -/
theorem returnedFields_of_describes (hs : s.Valid) {o : Schema.Operation}
    {output : Schema.ShapeRef} {shape : Schema.Shape} (houtput : o.output = some output)
    (hshape : svc.Describes output.shape shape (dictName output.shape))
    (hnone : s.shapes.find? (dictName output.shape) = none) :
    svc.returnedFields s o =
      (shape.members.entries.map fun m =>
        (m.1, (svc.memberForm .output m.2).text, shape.isRequired m.1)) ++
      if metadataField ∈ shape.members.keys then []
      else [(metadataField, FixedDict.responseMetadata.name, true)] := by
  obtain ⟨ref, hval, hfind, hfields⟩ := shapeType_of_free svc hs .output hshape hnone
  have hvalid := (shapeType_spec svc hs .output output.shape).ext.valid hs
  obtain ⟨hreturn, ⟨ref', hval', hstate⟩ | ⟨hnot, -⟩⟩ := returnType_of_some svc houtput s
  · obtain rfl : ref = ref' := TypeExpr.dict.inj (hval.symm.trans hval')
    set t := (svc.shapeType .output output.shape).state s
    have href : t.store.InUse ref := (hvalid.shapes _ ref hfind).2
    have hown := map_fields_of_fieldsFor hfields
    have hnames := map_name_of_fieldsFor hfields
    simp only [returnedFields, hreturn, hval, hstate]
    cases hfield : (t.store.get ref).hasField metadataField with
    | true =>
        have hmember : metadataField ∈ shape.members.keys :=
          hnames ▸ hasField_iff.mp hfield
        rw [state_addMetadata_of_hasField hfield, hown, if_pos hmember, List.append_nil]
    | false =>
        have hmember : metadataField ∉ shape.members.keys := by
          rw [← hnames, ← hasField_iff, hfield]
          simp
        obtain ⟨metadata, hmetadata, hadded⟩ := state_addMetadata hfield
        have hname : metadata.name = FixedDict.responseMetadata.name :=
          ((hvalid.fixedDict .responseMetadata).fixed _ metadata hmetadata).1
        have huse := (Session.grows_fixedDict .responseMetadata t).inUse href
        rw [hadded, Session.store_withFields, Store.get_addFields huse,
          Session.get_fixedDict _ href, if_neg hmember, List.map_append, hown]
        simp [responseField, TypeExpr.text, hname]
  · exact absurd hval (hnot ref)

/-- What is no record with members returns no dictionary. -/
theorem returnedFields_of_not_describes (hs : s.Valid) {o : Schema.Operation}
    (hnot : ∀ output ∈ o.output, ∀ shape, ¬ svc.Describes output.shape shape (dictName output.shape)) :
    svc.returnedFields s o = [] := by
  unfold returnedFields
  cases houtput : o.output with
  | none => rw [(returnType_of_none svc houtput s).1]; rfl
  | some output =>
      rw [(returnType_of_some svc houtput s).1]
      have hform := (shapeType_spec svc hs .output output.shape).form
      cases hval : (svc.shapeType .output output.shape).val s with
      | dict ref =>
          rw [hval] at hform
          obtain ⟨-, shape, hshape⟩ := shapeForm_eq_dict_iff.mp hform.symm
          exact absurd hshape (hnot output houtput shape)
      | _ => rfl

end Service

namespace Schema

variable {sch : Schema} {position : Position} {name : String}

/-! ## The schema without corrections -/

/-- The schema without the operations that corrections of its service name. -/
def uncorrected (s : Schema) : Schema :=
  { s with model := s.model.uncorrected s.serviceName }

theorem model_uncorrected (s : Schema) :
    (Service.ofSchema s.uncorrected).model = s.model.uncorrected s.serviceName :=
  s.model.corrected_uncorrected s.serviceName

theorem keys_shapes_uncorrected (s : Schema) :
    (Service.ofSchema s).model.shapes.keys = (Service.ofSchema s.uncorrected).model.shapes.keys := by
  rw [model_uncorrected]
  change (s.model.corrected s.serviceName).shapes.keys = s.model.shapes.keys
  rw [Model.corrected_eq]
  exact OrderedMap.keys_mapValues _ _

/-- A shape that keeps a member is the same but for its members. -/
theorem sameHead_uncorrected (h : ¬ sch.model.Emptied sch.serviceName name) :
    Service.SameHead (Service.ofSchema sch) (Service.ofSchema sch.uncorrected) name := by
  have hget : (Service.ofSchema sch).model.shapes.get? name = _ :=
    sch.model.get?_corrected sch.serviceName name
  have hget' : (Service.ofSchema sch.uncorrected).model.shapes.get? name =
      sch.model.shapes.get? name := by
    rw [model_uncorrected]
    rfl
  cases hs : sch.model.shapes.get? name with
  | none => exact .inl ⟨by rw [hget, hs]; rfl, by rw [hget', hs]⟩
  | some s =>
      obtain ⟨members, required, hedited⟩ :=
        s.exists_editedBy_eq (sch.model.editsOf sch.serviceName name)
      refine .inr ⟨s, members, required, by rw [hget', hs], by rw [hget, hs, ← hedited]; rfl, ?_⟩
      have hmembers : (s.editedBy (sch.model.editsOf sch.serviceName name)).members = members := by
        rw [hedited]
      cases hempty : s.members.isEmpty with
      | true =>
          have hself : s.editedBy (sch.model.editsOf sch.serviceName name) = s :=
            Shape.editedBy_of_not_applies fun e _ => Edit.not_applies_of_isEmpty hempty
          rw [← hmembers, hself, hempty]
      | false =>
          rw [← hmembers, ← Bool.not_eq_true]
          exact fun hedited => h ⟨s, hs, hempty, hedited⟩

theorem shapeForm_uncorrected
    (h : ∀ part, Relation.ReflTransGen sch.model.HasPart name part →
      ¬ sch.model.Emptied sch.serviceName part) :
    (Service.ofSchema sch).shapeForm position name =
      (Service.ofSchema sch.uncorrected).shapeForm position name := by
  have hkeys := keys_shapes_uncorrected sch
  have hdepth : (Service.ofSchema sch).depthLimit = (Service.ofSchema sch.uncorrected).depthLimit := by
    have hsize := congrArg List.length hkeys
    simp only [OrderedMap.keys, List.length_map] at hsize
    rw [Service.depthLimit, Service.depthLimit, OrderedMap.size, OrderedMap.size, hsize]
  have hresources : (Service.ofSchema sch).resourceNames =
      (Service.ofSchema sch.uncorrected).resourceNames := rfl
  rw [Service.shapeForm, Service.shapeForm, hdepth]
  refine Service.formWithin_eq_of_sameHead hresources hkeys (fun part hpart => ?_) _
  rw [model_uncorrected] at hpart
  exact sameHead_uncorrected (h part hpart)

theorem memberForm_uncorrected {ref : ShapeRef}
    (h : ∀ part, Relation.ReflTransGen sch.model.HasPart ref.shape part →
      ¬ sch.model.Emptied sch.serviceName part) :
    (Service.ofSchema sch).memberForm position ref =
      (Service.ofSchema sch.uncorrected).memberForm position ref := by
  rw [Service.memberForm, Service.memberForm,
    Service.refForm_eq_of_keys (keys_shapes_uncorrected sch)]
  refine Service.refForm_congr ?_
  rintro r ⟨⟩ -
  exact shapeForm_uncorrected h

/-! ## Operations that no correction names -/

/-- The types of the operation depend on the shape of this name: it is the output, or the
shape of a member of the input or the output, or a part of one of these. -/
def Model.TypedBy (m : Model) (o : Operation) (name : String) : Prop :=
  (∃ output ∈ o.output, Relation.ReflTransGen m.HasPart output.shape name) ∨
    ∃ side, ∃ ref ∈ o.side side, ∃ s ∈ m.shapes.get? ref.shape, ∃ member ∈ s.members.entries,
      Relation.ReflTransGen m.HasPart member.2.shape name

/-- No correction applies to the input or the output of the operation, and none takes the
last member of a shape that its types depend on. -/
structure Spares (sch : Schema) (o : Operation) : Prop where
  unedited : ∀ side, ∀ ref ∈ o.side side, ¬ sch.model.Edited sch.serviceName ref.shape
  kept : ∀ shape, sch.model.TypedBy o shape → ¬ sch.model.Emptied sch.serviceName shape

namespace Spares

variable {o : Operation} {calls calls' : List Call}

theorem get?_shape (h : sch.Spares o) (side : Side) {ref : ShapeRef}
    (href : o.side side = some ref) :
    (Service.ofSchema sch).model.shapes.get? ref.shape =
      (Service.ofSchema sch.uncorrected).model.shapes.get? ref.shape := by
  rw [model_uncorrected]
  exact Model.get?_corrected_eq_iff.mpr (h.unedited side ref href)

theorem memberForm_eq (h : sch.Spares o) (side : Side) {ref : ShapeRef}
    (href : o.side side = some ref) {s : Shape}
    (hs : (Service.ofSchema sch).model.shapes.get? ref.shape = some s)
    {m : String × ShapeRef} (hm : m ∈ s.members.entries) (position : Position) :
    (Service.ofSchema sch).memberForm position m.2 =
      (Service.ofSchema sch.uncorrected).memberForm position m.2 := by
  rw [h.get?_shape side href, model_uncorrected] at hs
  exact memberForm_uncorrected fun part hpart =>
    h.kept part (.inr ⟨side, ref, href, s, hs, m, hm, hpart⟩)

theorem shapeForm_eq (h : sch.Spares o) {output : ShapeRef} (houtput : o.output = some output) :
    (Service.ofSchema sch).shapeForm .output output.shape =
      (Service.ofSchema sch.uncorrected).shapeForm .output output.shape :=
  shapeForm_uncorrected fun part hpart => h.kept part (.inl ⟨output, houtput, hpart⟩)

theorem describes_iff (h : sch.Spares o) {output : ShapeRef} (houtput : o.output = some output)
    {shape : Shape} {n : String} :
    (Service.ofSchema sch).Describes output.shape shape n ↔
      (Service.ofSchema sch.uncorrected).Describes output.shape shape n := by
  have hget := h.get?_shape .output houtput
  constructor
  · exact fun hd => { hd with declared := hget ▸ hd.declared }
  · exact fun hd => { hd with declared := hget ▸ hd.declared }

/-- The method is the same after any calls. -/
theorem renderedCall_clientMethod_eq (h : sch.Spares o)
    (ho : sch.model.operations.get? name = some o) (hunlisted : Unlisted sch.serviceName name) :
    (Service.ofSchema sch).renderedCall ((Service.ofSchema sch).afterAll calls)
        (.clientMethod name) =
      (Service.ofSchema sch.uncorrected).renderedCall
        ((Service.ofSchema sch.uncorrected).afterAll calls') (.clientMethod name) := by
  have hoperation : (Service.ofSchema sch).operation name = .ok o := by
    apply OrderedMap.lookup_eq_ok_iff.mpr
    rw [(Service.ofSchema sch).model_eq, Model.operations_corrected]
    exact ho
  have hoperation' : (Service.ofSchema sch.uncorrected).operation name = .ok o := by
    apply OrderedMap.lookup_eq_ok_iff.mpr
    rw [model_uncorrected, Model.get?_uncorrected hunlisted, ho]
  have hagree : Build.Agree ((Service.ofSchema sch).clientMethod name)
      ((Service.ofSchema sch.uncorrected).clientMethod name) := by
    apply Service.agree_clientMethod_of_same (hoperation.trans hoperation'.symm)
    intro o' ho'
    obtain rfl : o = o' := Except.ok.inj (hoperation.symm.trans ho')
    refine ⟨fun input hinput => ⟨rfl, h.get?_shape .input hinput, ?_⟩, ?_⟩
    · exact fun s hs m hm => h.memberForm_eq .input hinput hs hm .input
    · exact fun output houtput => h.shapeForm_eq houtput
  exact hagree.outcome_eq (Service.consistent_afterAll _ calls).valid
    (Service.consistent_afterAll _ calls').valid fun _ _ hfg =>
      congrArg ([·]) hfg.method_rendering

/-- The dictionary that is returned has the same fields if it is new in both sessions. -/
theorem returnedFields_eq (h : sch.Spares o)
    (hfree : ∀ output ∈ o.output,
      ((Service.ofSchema sch).afterAll calls).shapes.find? (dictName output.shape) = none ∧
      ((Service.ofSchema sch.uncorrected).afterAll calls').shapes.find? (dictName output.shape) =
        none) :
    (Service.ofSchema sch).returnedFields ((Service.ofSchema sch).afterAll calls) o =
      (Service.ofSchema sch.uncorrected).returnedFields
        ((Service.ofSchema sch.uncorrected).afterAll calls') o := by
  have hvalid := (Service.consistent_afterAll (Service.ofSchema sch) calls).valid
  have hvalid' := (Service.consistent_afterAll (Service.ofSchema sch.uncorrected) calls').valid
  by_cases hdict : ∃ output ∈ o.output, ∃ shape,
      (Service.ofSchema sch).Describes output.shape shape (dictName output.shape)
  · obtain ⟨output, ho, shape, hd⟩ := hdict
    rw [Service.returnedFields_of_describes hvalid ho hd (hfree output ho).1,
      Service.returnedFields_of_describes hvalid' ho ((h.describes_iff ho).mp hd)
        (hfree output ho).2]
    congr 1
    refine List.map_congr_left fun m hm => ?_
    rw [h.memberForm_eq .output ho hd.declared hm .output]
  · have hnot : ∀ output ∈ o.output, ∀ shape,
        ¬ (Service.ofSchema sch).Describes output.shape shape (dictName output.shape) :=
      fun output ho shape hd => hdict ⟨output, ho, shape, hd⟩
    rw [Service.returnedFields_of_not_describes hvalid hnot,
      Service.returnedFields_of_not_describes hvalid' fun output ho shape hd =>
        hnot output ho shape ((h.describes_iff ho).mpr hd)]

end Spares

/-- **Corrections change the members of an operation that they do not name exactly if it
shares a shape with one that they name**, and the correction applies to the shape.
Unless this is so, or a correction takes the last member of a record that the types of
the operation depend on, the operation has the method that it has in the schema without
the operations that corrections name, and returns a dictionary with the same fields.
That schema has the same shapes and the same operation, and nothing in it is
corrected. -/
theorem untouched_unless_shared (sch : Schema) {name : String} {o : Operation}
    (ho : sch.model.operations.get? name = some o) (hunlisted : Unlisted sch.serviceName name) :
    (∀ side, (sch.model.corrected sch.serviceName).membersOf o side = sch.model.membersOf o side ↔
      ∀ ref ∈ o.side side, ¬ sch.model.Edited sch.serviceName ref.shape) ∧
    let svc := Service.ofSchema sch
    let raw := Service.ofSchema sch.uncorrected
    (raw.model.shapes = sch.model.shapes ∧ raw.model.operations.get? name = some o) ∧
    (sch.Spares o → ∀ calls calls',
      svc.renderedCall (svc.afterAll calls) (.clientMethod name) =
        raw.renderedCall (raw.afterAll calls') (.clientMethod name) ∧
      ((∀ output ∈ o.output,
          (svc.afterAll calls).shapes.find? (dictName output.shape) = none ∧
          (raw.afterAll calls').shapes.find? (dictName output.shape) = none) →
        svc.returnedFields (svc.afterAll calls) o =
          raw.returnedFields (raw.afterAll calls') o)) := by
  refine ⟨fun side => Model.membersOf_corrected_eq_iff, ⟨?_, ?_⟩, ?_⟩
  · rw [model_uncorrected]
    rfl
  · rw [model_uncorrected, Model.get?_uncorrected hunlisted, ho]
  · intro h calls calls'
    exact ⟨h.renderedCall_clientMethod_eq ho hunlisted, h.returnedFields_eq⟩

end Schema

/-! ## A service whose operations share a shape -/

open Schema in
/-- The operation `PutLid` takes what `PutBucketAcl` takes, and a checksum is removed from
that; what `ListBoxes` returns mentions it as well. -/
def sharedSchema : Schema where
  serviceName := "s3"
  className := "S3"
  model :=
    { operations :=
        { entries :=
            [("PutBucketAcl", { input := some ⟨"AclRequest", none⟩ }),
              ("PutLid", { input := some ⟨"AclRequest", none⟩ }),
              ("ListBoxes", { output := some ⟨"ListResult", none⟩ })] }
      shapes :=
        { entries :=
            [("AclRequest",
                { kind := .record,
                  members := { entries := [("Bucket", ⟨"Text", none⟩), ("ContentMD5", ⟨"Text", none⟩)] },
                  required := ["Bucket"] }),
              ("ListResult",
                { kind := .record, members := { entries := [("Items", ⟨"Boxes", none⟩)] } }),
              ("Boxes", { kind := .list, member := some ⟨"AclRequest", none⟩ }),
              ("Text", { kind := .string })] } }

/-- No shape of it loses its last member. -/
theorem not_emptied_sharedSchema (name : String) : ¬ sharedSchema.model.Emptied "s3" name := by
  have hall : ∀ e ∈ sharedSchema.model.shapes.entries, ¬ (e.2.members.isEmpty = false ∧
      (e.2.editedBy (sharedSchema.model.editsOf "s3" e.1)).members.isEmpty = true) := by
    decide +kernel
  rintro ⟨s, hs, h⟩
  exact hall (name, s) (OrderedMap.get?_eq_some_iff.mp hs) h

theorem spares_sharedSchema : sharedSchema.Spares { output := some ⟨"ListResult", none⟩ } where
  unedited side ref href := by
    cases side with
    | input => nomatch href
    | output =>
        obtain rfl := Option.some.inj href
        decide +kernel
  kept shape _ := not_emptied_sharedSchema shape

/-- The type of what is listed is left alone, and so is the method. -/
theorem sharedSchema_spares_listed :
    let svc := Service.ofSchema sharedSchema
    let raw := Service.ofSchema sharedSchema.uncorrected
    sharedSchema.model.Edited "s3" "AclRequest" ∧
    svc.renderedCall {} (.clientMethod "ListBoxes") = raw.renderedCall {} (.clientMethod "ListBoxes") ∧
    svc.returnedFields {} { output := some ⟨"ListResult", none⟩ } =
      [("Items", "List[AclRequestTypeDef]", false),
        ("ResponseMetadata", "ResponseMetadataTypeDef", true)] := by
  intro svc raw
  have hlist : sharedSchema.model.operations.get? "ListBoxes" =
      some { output := some ⟨"ListResult", none⟩ } := rfl
  obtain ⟨-, -, h⟩ :=
    Schema.untouched_unless_shared sharedSchema hlist (by decide +kernel)
  obtain ⟨hmethod, hreturned⟩ := h spares_sharedSchema [] []
  refine ⟨by decide +kernel, hmethod, (hreturned ?_).trans ?_⟩
  · exact fun _ _ => ⟨rfl, rfl⟩
  · decide +kernel

/-- **A correction changes an operation that it does not name**: `PutLid` loses a member,
in its shape and in its signature. -/
theorem sharedSchema_changes_unlisted :
    let svc := Service.ofSchema sharedSchema
    let raw := Service.ofSchema sharedSchema.uncorrected
    Schema.Unlisted "s3" "PutLid" ∧ ∃ o, sharedSchema.model.operations.get? "PutLid" = some o ∧
      sharedSchema.model.membersOf o .input =
        [("Bucket", ⟨"Text", none⟩, true), ("ContentMD5", ⟨"Text", none⟩, false)] ∧
      (sharedSchema.model.corrected "s3").membersOf o .input = [("Bucket", ⟨"Text", none⟩, true)] ∧
      ((raw.clientMethod "PutLid").outcome {}).toOption.map (·.signature) =
        some "def put_lid(self, *, Bucket: str, ContentMD5: str = None) -> Dict[str, Any]" ∧
      ((svc.clientMethod "PutLid").outcome {}).toOption.map (·.signature) =
        some "def put_lid(self, *, Bucket: str) -> Dict[str, Any]" := by
  refine ⟨by decide +kernel, _, rfl, ?_⟩
  decide +kernel

end ServiceStubs
