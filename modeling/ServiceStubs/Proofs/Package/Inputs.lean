import ServiceStubs.Proofs.Package.Calls
import ServiceStubs.Proofs.Session.Derived

/-!
# Arguments and the fields of a dictionary

The members of a record shape are translated in two places.  As the input of an
operation they become arguments, and the record itself gets no dictionary; anywhere
else the record becomes a dictionary with a field for each member.  Arguments and
fields agree, although members may refer back to the record, and although the
session may know some of their types already when the arguments are made.

## Main definitions

* `ArgumentOf` — the argument that says the same as a field.
* `fieldsRequiredFirst` — the required fields before the others.
* `Service.arguments_of_fields` — the arguments of an operation are the fields of the
  dictionary of its input.
-/

namespace ServiceStubs

/-! ## Lists that are made alike -/

/-- What is made of the same things agrees one by one. -/
theorem forall₂_of_common {α β γ : Type} {R : γ → α → Prop} {S : γ → β → Prop} {T : α → β → Prop}
    {cs : List γ} {as : List α} {bs : List β} (h : List.Forall₂ R cs as)
    (h' : List.Forall₂ S cs bs) (hT : ∀ c a b, R c a → S c b → T a b) : List.Forall₂ T as bs := by
  induction h generalizing bs with
  | nil =>
      cases h'
      exact .nil
  | @cons c a cs as hca _ ih =>
      obtain _ | ⟨hcb, h'⟩ := h'
      exact .cons (hT c a _ hca hcb) (ih h')

/-! ## Arguments and fields -/

/-- The argument says what the field says: it has its name, is written with the same
type, and is `None` unless it is given, if the field may be left out. -/
structure ArgumentOf (f : Field) (a : Argument) : Prop where
  name : a.name = f.name
  type : a.type.map TypeExpr.text = some f.type.text
  default : a.default = if f.required then none else some "None"
  stars : a.stars = .none

/-- The required fields before the others, each in their order. -/
def fieldsRequiredFirst (fs : List Field) : List Field :=
  fs.filter (·.required) ++ fs.filter (!·.required)

theorem ArgumentOf.isRequired {f : Field} {a : Argument} (h : ArgumentOf f a) :
    a.isRequired = f.required := by
  rw [Argument.isRequired, h.default]
  cases f.required <;> rfl

/-- Sorting keeps arguments and fields in step. -/
theorem forall₂_requiredFirst {fs : List Field} {as : List Argument}
    (h : List.Forall₂ ArgumentOf fs as) :
    List.Forall₂ ArgumentOf (fieldsRequiredFirst fs) (requiredFirst as) := by
  refine List.rel_append (List.rel_filter ?_ h) (List.rel_filter ?_ h)
  · intro f a hfa
    simp [hfa.isRequired]
  · intro f a hfa
    simp [hfa.isRequired]

namespace Service

variable {svc : Service} {s : Session}

/-- The argument for a member of a shape, unless it has a special type. -/
def MadeFor (svc : Service) (shape : Schema.Shape) (member : String × Schema.ShapeRef)
    (a : Argument) : Prop :=
  ∃ type : TypeExpr, type.skeleton = svc.memberForm .input member.2 ∧
    a = if shape.isRequired member.1 then .needed member.1 type else .optional member.1 type

/-- A field and an argument for the same member say the same. -/
theorem MadeFor.argumentOf {t : Session} {shape : Schema.Shape}
    {member : String × Schema.ShapeRef} {f : Field} {a : Argument}
    (hf : svc.FieldFor t .input shape member f) (ha : svc.MadeFor shape member a) :
    ArgumentOf f a := by
  obtain ⟨type, hform, rfl⟩ := ha
  have htext : type.text = f.type.text :=
    TypeExpr.text_eq_of_skeleton_eq (hform.trans hf.form.symm)
  cases hrequired : shape.isRequired member.1 <;>
    exact ⟨hf.name.symm, congrArg some htext, by rw [hf.required, hrequired]; rfl, rfl⟩

/-- Without a special type, an argument has the type of its member in every
session. -/
theorem yields_madeFor (hs : s.Valid) {operation : String} (shape : Schema.Shape)
    {member : String × Schema.ShapeRef}
    (hspecial : specialType? svc.schema.serviceName operation member.1 = none) :
    SessionM.Yields svc s (svc.argument operation shape member)
      fun _ a => svc.MadeFor shape member a := by
  unfold argument
  simp only [hspecial]
  exact ⟨(yields_memberType hs .input member.2).leads, _,
    (memberType_spec svc hs .input member.2).form, rfl⟩

/-- The arguments for the members, before they are sorted. -/
theorem forall₂_madeFor (hs : s.Valid) {operation : String} {shape : Schema.Shape}
    (hspecial : ∀ m ∈ shape.members.keys,
      specialType? svc.schema.serviceName operation m = none) :
    List.Forall₂ (svc.MadeFor shape) shape.members.entries
      ((shape.members.entries.mapM (svc.argument operation shape)).val s) := by
  have hall : SessionM.Yields svc s (shape.members.entries.mapM (svc.argument operation shape))
      fun _ as => List.Forall₂ (svc.MadeFor shape) shape.members.entries as :=
    .mapM hs (fun _ _ _ _ _ h => h) fun m hm t ht _ =>
      yields_madeFor ht shape (hspecial m.1 (List.mem_map_of_mem hm))
  exact hall.holds

/-- **The arguments of an operation are the fields of the dictionary that its input gets
in a new session**, the required ones first: one argument for each field, with its
name and type, and without a default just when the field is required.  Nothing that
was made before makes a difference, and what is left out leaves the others as they
are. -/
theorem arguments_of_fields (svc : Service) (calls : List Call) (operation : String)
    (input : Schema.ShapeRef) (shape : Schema.Shape)
    (hshape : svc.Describes input.shape shape (dictName input.shape))
    (hspecial : ∀ m ∈ shape.members.keys,
      specialType? svc.schema.serviceName operation m = none) :
    ∃ ref, (svc.shapeType .input input.shape).val {} = .dict ref ∧
      List.Forall₂ ArgumentOf
        (fieldsRequiredFirst (((svc.shapeType .input input.shape).state {}).store.get ref).fields)
        ((svc.arguments operation input []).val (svc.afterAll calls)) ∧
      ∀ exclude more, List.Forall₂ (fun a b => a.name = b.name ∧ a.text = b.text)
        ((svc.arguments operation input exclude).val (svc.afterAll more))
        (((svc.arguments operation input []).val (svc.afterAll calls)).filter
          (!exclude.contains ·.name)) := by
  obtain ⟨ref, hval, -, hfields⟩ := shapeType_of_free svc .empty .input hshape rfl
  have hvalid : (svc.afterAll calls).Valid := (consistent_afterAll svc calls).valid
  refine ⟨ref, hval, ?_, fun exclude more => ?_⟩
  · have hmade := forall₂_madeFor hvalid hspecial
    have hsorted := forall₂_requiredFirst
      (forall₂_of_common hfields hmade fun _ _ _ hf ha => ha.argumentOf hf)
    simpa [arguments, hshape.declared] using hsorted
  · obtain ⟨-, halike⟩ := svc.always_arguments operation input exclude hvalid (svc.afterAll more)
      (consistent_afterAll svc more).valid
    refine (alike_list_iff.mp halike).imp fun a b hab => ⟨?_, hab.argument_text_eq⟩
    exact (alike_argument_iff.mp hab).1

end Service

/-- A box may hold another box, and its name must be given. -/
theorem boxSchema_arguments_of_fields :
    let svc := Service.ofSchema boxSchema
    ∃ shape, svc.Describes "Box" shape "BoxTypeDef" ∧
      (∀ m ∈ shape.members.keys, specialType? "store" "DeleteBox" m = none) ∧
      ∃ ref, (svc.shapeType .input "Box").val {} = .dict ref ∧
        List.Forall₂ ArgumentOf
          (fieldsRequiredFirst (((svc.shapeType .input "Box").state {}).store.get ref).fields)
          ((svc.arguments "DeleteBox" ⟨"Box", none⟩ []).val (svc.afterAll [.package])) ∧
        ∀ exclude more, List.Forall₂ (fun a b => a.name = b.name ∧ a.text = b.text)
          ((svc.arguments "DeleteBox" ⟨"Box", none⟩ exclude).val (svc.afterAll more))
          (((svc.arguments "DeleteBox" ⟨"Box", none⟩ []).val (svc.afterAll [.package])).filter
            (!exclude.contains ·.name)) := by
  intro svc
  have hdescribes : svc.Describes "Box" _ (dictName "Box") :=
    ⟨rfl, rfl, rfl, rfl⟩
  have hspecial : ∀ m ∈ ["Name", "Inner"],
      specialType? svc.schema.serviceName "DeleteBox" m = none := by decide
  exact ⟨_, hdescribes, hspecial,
    Service.arguments_of_fields svc [.package] "DeleteBox" ⟨"Box", none⟩ _ hdescribes hspecial⟩

end ServiceStubs
