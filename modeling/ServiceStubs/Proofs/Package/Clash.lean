import ServiceStubs.Proofs.Package.Calls
import ServiceStubs.Proofs.Session.Distinct

/-!
# Shapes that share a dictionary

Two record shapes have dictionaries of their own unless these have one name.  A
shape that would take a reserved name gives its dictionary a longer one, and that
is the name for another shape: the one whose name is longer by the same word.
There is no other way for two shapes to share a dictionary.

## Main definitions

* `Clash` — one shape gives up a reserved name and takes that of the other.
* `dictName_eq_iff` — shapes give one name only when they clash.
* `Service.OwnFields` — the fields of a dictionary are the members of a shape.
* `Service.apart_unless_clash` — when two shapes have dictionaries of their own.
-/

namespace ServiceStubs

/-! ## Names -/

/-- One of the shapes would take a reserved name, and the other one is called as
it is called instead. -/
def Clash (a b : String) : Prop :=
  ∃ d : FixedDict, (a = d.stem ∧ b = d.stem ++ "Shape") ∨ (b = d.stem ∧ a = d.stem ++ "Shape")

theorem Clash.symm {a b : String} (h : Clash a b) : Clash b a :=
  h.imp fun _ => Or.symm

theorem isReserved_append_iff {shape : String} :
    isReserved (shape ++ dictEnding) ↔ ∃ d : FixedDict, shape = d.stem := by
  rw [isReserved_iff]
  refine exists_congr fun d => ?_
  rw [d.name_eq, String.append_left_inj, eq_comm]

/-- The longer name is that of another shape. -/
theorem dictName_stem (d : FixedDict) : dictName d.stem = dictName (d.stem ++ "Shape") := by
  cases d <;> decide

/-- **Two shapes give their dictionaries one name only when they clash.** -/
theorem dictName_eq_iff {a b : String} : dictName a = dictName b ↔ a = b ∨ Clash a b := by
  constructor
  · intro h
    unfold dictName at h
    by_cases ha : isReserved (a ++ dictEnding) <;> by_cases hb : isReserved (b ++ dictEnding)
    · left
      simpa [ha, hb, String.append_left_inj] using h
    · obtain ⟨d, rfl⟩ := isReserved_append_iff.mp ha
      have hname : d.stem ++ "Shape" = b := by
        simpa [ha, hb, String.append_left_inj] using h
      exact .inr ⟨d, .inl ⟨rfl, hname.symm⟩⟩
    · obtain ⟨d, rfl⟩ := isReserved_append_iff.mp hb
      have hname : a = d.stem ++ "Shape" := by
        simpa [ha, hb, String.append_left_inj] using h
      exact .inr ⟨d, .inr ⟨rfl, hname⟩⟩
    · left
      simpa [ha, hb, String.append_left_inj] using h
  · rintro (rfl | ⟨d, ⟨rfl, rfl⟩ | ⟨rfl, rfl⟩⟩)
    · rfl
    · exact dictName_stem d
    · exact (dictName_stem d).symm

/-! ## Dictionaries -/

namespace Service

variable {svc : Service} {s : Session} {returned : String → Prop} {a b : String}
  {shape shapeA shapeB : Schema.Shape}

/-- The type of a record shape with members is the dictionary of its name. -/
theorem Consistent.dict_of_describes (h : svc.Consistent returned s)
    (hshape : svc.Describes a shape (dictName a)) (position : Position) :
    ∃ r, (svc.shapeType position a).val s = .dict r ∧
      ((svc.shapeType position a).state s).shapes.find? (dictName a) = some r := by
  have hmakes := shapeType_spec svc h.valid position a
  have hform : svc.shapeForm position a = .dict ⟨0, dictName a⟩ :=
    shapeForm_eq_dict_iff.mpr ⟨rfl, shape, hshape⟩
  obtain ⟨r, hr⟩ := TypeExpr.exists_of_skeleton_eq_dict (hmakes.form.trans hform)
  have hfind := ((h.extend hmakes.ext).find?_of_makes hmakes hr rfl).1
  exact ⟨r, hr, hfind⟩

/-- The dictionary of a record shape stays entered whatever is called later. -/
theorem exists_dict_of_call (svc : Service) (before : List Call) (position : Position)
    (ha : svc.Describes a shape (dictName a)) :
    ∃ r, (svc.shapeType position a).val (svc.afterAll before) = .dict r ∧
      ∀ more, (svc.afterAll (before ++ .shapeType position a :: more)).shapes.find? (dictName a) =
        some r := by
  have hcons := svc.consistent_afterAll before
  obtain ⟨r, hval, hfind⟩ := hcons.dict_of_describes ha position
  refine ⟨r, hval, fun more => ?_⟩
  have hvalid := (shapeType_spec svc hcons.valid position a).ext.valid hcons.valid
  rw [afterAll_append]
  exact (grows_foldl_after svc hvalid more).shapes _ r hfind

variable (svc) in
/-- The fields of the dictionary are the members of the shape, in order, each
required as the shape says and written as the type of the member; what every
response says about itself may follow. -/
def OwnFields (shape : Schema.Shape) (d : TypedDict) : Prop :=
  ∃ position own extra, d.fields = own ++ extra ∧
    List.Forall₂ (fun member f => f.name = member.1 ∧ f.required = shape.isRequired member.1 ∧
        ∀ calls, f.type.text = ((svc.memberType position member.2).val (svc.afterAll calls)).text)
      shape.members.entries own ∧
    ∀ f ∈ extra, f.name = metadataField

/-- A dictionary has the members of a shape of its name, if no other shape
clashes with that one. -/
theorem Consistent.ownFields (h : svc.Consistent returned s)
    (ha : svc.Describes a shapeA (dictName a)) {r : DictRef}
    (hr : s.shapes.find? (dictName a) = some r)
    (hnot : ∀ c shape, svc.Describes c shape (dictName a) → ¬ Clash a c) :
    svc.OwnFields shapeA (s.store.get r) := by
  obtain ⟨shapeName, shape, position, own, extra, hshape, -, -, hfields, hown, hextra⟩ :=
    h.shapes _ r hr
  obtain rfl : shapeName = a := by
    rcases dictName_eq_iff.mp hshape.name with heq | hclash
    · exact heq
    · exact absurd hclash.symm (hnot shapeName shape hshape)
  obtain rfl : shape = shapeA := Option.some.inj (hshape.declared.symm.trans ha.declared)
  refine ⟨position, own, extra, hfields, hown.imp fun member f hf =>
    ⟨hf.name, hf.required, fun calls => hf.text (svc.consistent_afterAll calls).valid⟩, ?_⟩
  intro f hf
  rcases hextra with ⟨-, ref, -, rfl⟩ | ⟨-, rfl⟩
  · rw [List.mem_singleton.mp hf]
    rfl
  · nomatch hf

/-- **Two record shapes have one dictionary exactly when they clash.**  Otherwise
their dictionaries differ, and so do the names of these, whatever was called
before, between and after.  The fields of a dictionary are the members of its own
shape unless that one clashes with another record shape of the service. -/
theorem apart_unless_clash (svc : Service) (before between more : List Call)
    (position position' : Position) (ha : svc.Describes a shapeA (dictName a))
    (hb : svc.Describes b shapeB (dictName b)) (hab : a ≠ b) :
    ∃ ra rb, (svc.shapeType position a).val (svc.afterAll before) = .dict ra ∧
      (svc.shapeType position' b).val
        (svc.afterAll (before ++ .shapeType position a :: between)) = .dict rb ∧
      (ra.id = rb.id ↔ Clash a b) ∧ (ra.name = rb.name ↔ Clash a b) ∧
      let s := svc.afterAll
        ((before ++ .shapeType position a :: between) ++ .shapeType position' b :: more)
      ((∀ c shape, svc.Describes c shape (dictName a) → ¬ Clash a c) →
        svc.OwnFields shapeA (s.store.get ra)) ∧
      ((∀ c shape, svc.Describes c shape (dictName b) → ¬ Clash b c) →
        svc.OwnFields shapeB (s.store.get rb)) := by
  obtain ⟨ra, hvala, hfinda⟩ := exists_dict_of_call svc before position ha
  obtain ⟨rb, hvalb, hfindb⟩ := exists_dict_of_call svc
    (before ++ .shapeType position a :: between) position' hb
  have hfinda := hfinda (between ++ .shapeType position' b :: more)
  rw [← List.cons_append, ← List.append_assoc] at hfinda
  have hfindb := hfindb more
  have hcons := svc.consistent_afterAll
    ((before ++ .shapeType position a :: between) ++ .shapeType position' b :: more)
  set s := svc.afterAll
    ((before ++ .shapeType position a :: between) ++ .shapeType position' b :: more)
  have hname : ra.name = rb.name ↔ Clash a b := by
    rw [(hcons.valid.shapes _ ra hfinda).1, (hcons.valid.shapes _ rb hfindb).1, dictName_eq_iff]
    simp [hab]
  have hid : ra.id = rb.id ↔ ra.name = rb.name := by
    have hhas := hcons.valid.has_shape hfinda
    have hhas' := hcons.valid.has_shape hfindb
    constructor
    · intro h
      rw [hcons.valid.injective ra rb hhas hhas' h]
    · intro h
      rw [hcons.eq_of_name hhas hhas' h]
  exact ⟨ra, rb, hvala, hvalb, hid.trans hname, hname, hcons.ownFields ha hfinda,
    hcons.ownFields hb hfindb⟩

end Service

/-! ## A service with shapes that clash -/

open Schema in
/-- A service whose shapes `PaginatorConfig` and `PaginatorConfigShape` have
different members. -/
def clashSchema : Schema where
  serviceName := "things"
  className := "Things"
  model :=
    { shapes :=
        { entries :=
            [("PaginatorConfig",
                { kind := .record, members := { entries := [("Foo", ⟨"Text", none⟩)] } }),
              ("PaginatorConfigShape",
                { kind := .record, members := { entries := [("Bar", ⟨"Number", none⟩)] } }),
              ("Number", { kind := .integer }),
              ("Text", { kind := .string })] } }

theorem describes_clashSchema :
    (Service.ofSchema clashSchema).Describes "PaginatorConfig"
      { kind := .record, members := { entries := [("Foo", ⟨"Text", none⟩)] } }
      (dictName "PaginatorConfig") ∧
    (Service.ofSchema clashSchema).Describes "PaginatorConfigShape"
      { kind := .record, members := { entries := [("Bar", ⟨"Number", none⟩)] } }
      (dictName "PaginatorConfigShape") :=
  ⟨⟨by decide +kernel, rfl, rfl, rfl⟩, ⟨by decide +kernel, rfl, rfl, rfl⟩⟩

/-- The two shapes clash, so the second one gets the dictionary of the first. -/
theorem apart_unless_clash_clashSchema :
    ∃ ra rb, ((Service.ofSchema clashSchema).shapeType .input "PaginatorConfig").val {} = .dict ra ∧
      ((Service.ofSchema clashSchema).shapeType .output "PaginatorConfigShape").val
        ((Service.ofSchema clashSchema).afterAll [.shapeType .input "PaginatorConfig"]) =
          .dict rb ∧
      ra.id = rb.id := by
  obtain ⟨ha, hb⟩ := describes_clashSchema
  obtain ⟨ra, rb, hvala, hvalb, hid, -⟩ := Service.apart_unless_clash
    (Service.ofSchema clashSchema) [] [] [] .input .output ha hb (by decide)
  exact ⟨ra, rb, hvala, hvalb, hid.mpr ⟨.paginatorConfig, .inl ⟨rfl, rfl⟩⟩⟩

/-- **Two different record shapes share a dictionary**, which has the member of the
first one only. -/
theorem clashSchema_shares_dict :
    ∃ shapeA shapeB r,
      (Service.ofSchema clashSchema).Describes "PaginatorConfig" shapeA
        (dictName "PaginatorConfig") ∧
      (Service.ofSchema clashSchema).Describes "PaginatorConfigShape" shapeB
        (dictName "PaginatorConfigShape") ∧
      ((Service.ofSchema clashSchema).shapeType .input "PaginatorConfig").val {} = .dict r ∧
      ((Service.ofSchema clashSchema).shapeType .input "PaginatorConfigShape").val
        ((Service.ofSchema clashSchema).afterAll [.shapeType .input "PaginatorConfig"]) =
          .dict r ∧
      (((Service.ofSchema clashSchema).afterAll [.shapeType .input "PaginatorConfig",
        .shapeType .input "PaginatorConfigShape"]).store.get r).fields.map (·.name) = ["Foo"] ∧
      shapeB.members.keys = ["Bar"] := by
  obtain ⟨ha, hb⟩ := describes_clashSchema
  refine ⟨_, _, ⟨0, "PaginatorConfigShapeTypeDef"⟩, ha, hb, ?_, ?_, ?_, rfl⟩
  · rfl
  · rfl
  · decide +kernel

end ServiceStubs
