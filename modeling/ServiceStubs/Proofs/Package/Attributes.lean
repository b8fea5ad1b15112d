import ServiceStubs.Proofs.Package.Rendering
import ServiceStubs.Proofs.Session.Names
import ServiceStubs.Proofs.Session.Resolution

/-!
# The attributes for the data of a resource

A resource has an attribute for each of its identifiers, and one for each other name
that a member of its shape has.  Different members may have one name in snake case: the
first of them gives the attribute, and all later ones are left out, like those whose
name is that of an identifier.

Whether a member is left out is told by the attributes that are there when its turn
comes, so what the loop makes of some members depends on all members before them.

## Main definitions

* `FirstOfNames` — the first member of each name that is not taken.
* `Service.AttributeFor` — the attribute that a member gives.
* `Service.attributes_resource` — the attributes of a resource.
-/

namespace ServiceStubs

open Text (snakeCase)

/-- The first one of the members of each name in snake case that is not taken, in the
order of the members. -/
structure FirstOfNames (taken : List String) (members firsts : List (String × Schema.ShapeRef)) :
    Prop where
  sublist : firsts.Sublist members
  mem_iff : ∀ m, m ∈ firsts ↔ snakeCase m.1 ∉ taken ∧
    members.find? (fun other => snakeCase other.1 = snakeCase m.1) = some m
  nodup : (firsts.map fun m => snakeCase m.1).Nodup

namespace FirstOfNames

variable {taken : List String} {m : String × Schema.ShapeRef}
  {members firsts : List (String × Schema.ShapeRef)}

theorem nil (taken : List String) : FirstOfNames taken [] [] :=
  ⟨.slnil, by simp, .nil⟩

/-- A member is left out if its name is taken. -/
theorem skip (h : FirstOfNames taken members firsts) (hm : snakeCase m.1 ∈ taken) :
    FirstOfNames taken (m :: members) firsts where
  sublist := h.sublist.cons m
  mem_iff first := by
    rw [h.mem_iff, and_congr_right_iff]
    intro hfirst
    have hne : snakeCase m.1 ≠ snakeCase first.1 := fun heq => hfirst (heq ▸ hm)
    rw [List.find?_cons_of_neg (by simpa using hne)]
  nodup := h.nodup

/-- A member with a new name is the first one, and takes the name. -/
theorem take (h : FirstOfNames (taken ++ [snakeCase m.1]) members firsts)
    (hm : snakeCase m.1 ∉ taken) : FirstOfNames taken (m :: members) (m :: firsts) where
  sublist := h.sublist.cons_cons m
  mem_iff first := by
    by_cases heq : snakeCase m.1 = snakeCase first.1
    · -- The first member of this name is `m`, and no later one is among the firsts.
      have hlater : first ∉ firsts := fun hmem =>
        ((h.mem_iff first).mp hmem).1 (by simp [heq])
      rw [List.find?_cons_of_pos (by simpa using heq), List.mem_cons, or_iff_left hlater,
        ← heq, and_iff_right hm, Option.some.injEq, eq_comm]
    · rw [List.find?_cons_of_neg (by simpa using heq), List.mem_cons, h.mem_iff,
        or_iff_right fun hfirst : first = m => heq (hfirst ▸ rfl), List.mem_append, not_or,
        List.mem_singleton, and_assoc, and_iff_right (Ne.symm heq)]
  nodup := by
    rw [List.map_cons, List.nodup_cons]
    refine ⟨fun hmem => ?_, h.nodup⟩
    obtain ⟨first, hfirst, heq⟩ := List.mem_map.mp hmem
    exact ((h.mem_iff first).mp hfirst).1 (by simp [heq])

end FirstOfNames

namespace Service

variable {svc : Service} {s : Session} {as bs : List Attribute}
  {m : String × Schema.ShapeRef} {members : List (String × Schema.ShapeRef)}

/-- The members of the shape of a resource, of which there are none if it has no shape,
or one that is not declared. -/
def dataMembers (svc : Service) (r : Schema.ResourceModel) : List (String × Schema.ShapeRef) :=
  match r.shape.bind svc.model.shapes.get? with
  | none => []
  | some shape => shape.members.entries

variable (svc) in
/-- The attribute has the name of the member in snake case, and is written like the type
of its shape in what is returned, whatever the session holds.  Its type is one to which
the shape leads, if no list or map contains itself. -/
structure AttributeFor (m : String × Schema.ShapeRef) (a : Attribute) : Prop where
  name : a.name = snakeCase m.1
  undeclared : m.2.shape ∉ svc.model.shapes.keys → a.type = .any
  declared : m.2.shape ∈ svc.model.shapes.keys → ∀ steps,
    a.type.rendering =
      ((svc.shapeType .output m.2.shape).val (svc.afterSteps steps)).rendering
  resolves : m.2.shape ∈ svc.model.shapes.keys → svc.model.CyclesPassRecords →
    ∃ s t, svc.Resolves .output m.2.shape s a.type t

variable (svc) in
/-- The type of a member whose shape is declared. -/
theorem memberType_of_declared {position : Position} {ref : Schema.ShapeRef}
    (h : ref.shape ∈ svc.model.shapes.keys) :
    svc.memberType position ref = svc.shapeType position ref.shape := by
  rw [memberType, refType, if_pos (OrderedMap.contains_iff.mpr h)]

variable (svc) in
theorem memberType_of_undeclared {position : Position} {ref : Schema.ShapeRef}
    (h : ref.shape ∉ svc.model.shapes.keys) : svc.memberType position ref = pure .any := by
  rw [memberType, refType, if_neg (OrderedMap.contains_iff.not.mpr h)]

theorem valid_afterSteps (svc : Service) (steps : List SessionStep) :
    (svc.afterSteps steps).Valid :=
  (svc.consistent_afterAll _).valid

/-- The type of a member makes its attribute. -/
theorem attributeFor_memberType (hs : s.Valid) (m : String × Schema.ShapeRef) :
    svc.AttributeFor m ⟨snakeCase m.1, (svc.memberType .output m.2).val s⟩ where
  name := rfl
  undeclared hnot := by
    rw [svc.memberType_of_undeclared hnot]
    rfl
  declared hdeclared steps := by
    have halike := (svc.agree_shapeType .output m.2.shape s _ hs (svc.valid_afterSteps steps)).2.2
    rw [svc.memberType_of_declared hdeclared]
    exact halike.type_rendering
  resolves hdeclared hcycles := by
    rw [svc.memberType_of_declared hdeclared]
    exact ⟨s, _, (resolves_iff hcycles).mpr ⟨rfl, rfl⟩⟩

/-- One member: it is left out, or its attribute comes last. -/
theorem addMemberAttribute_of_mem (h : snakeCase m.1 ∈ as.map (·.name)) :
    svc.addMemberAttribute as m = pure as := by
  rw [addMemberAttribute, if_pos (by simpa [List.any_eq_true, List.mem_map] using h)]

theorem addMemberAttribute_of_notMem (h : snakeCase m.1 ∉ as.map (·.name)) :
    svc.addMemberAttribute as m = do
      return as ++ [⟨snakeCase m.1, ← svc.memberType .output m.2⟩] := by
  rw [addMemberAttribute, if_neg (by simpa [List.any_eq_true, List.mem_map] using h)]

/-- All members: the first one of each name that is not taken gives an attribute. -/
theorem exists_firsts (hs : s.Valid) (as : List Attribute)
    (members : List (String × Schema.ShapeRef)) :
    ∃ firsts added, (members.foldlM svc.addMemberAttribute as).val s = as ++ added ∧
      FirstOfNames (as.map (·.name)) members firsts ∧
      List.Forall₂ svc.AttributeFor firsts added := by
  -- The attributes that are there grow from member to member, and so does the session.
  induction members generalizing as s with
  | nil => exact ⟨[], [], by simp, .nil _, .nil⟩
  | cons m members ih =>
      rw [List.foldlM_cons]
      by_cases htaken : snakeCase m.1 ∈ as.map (·.name)
      · rw [addMemberAttribute_of_mem htaken, pure_bind]
        obtain ⟨firsts, added, hval, hfirsts, hadded⟩ := ih hs as
        exact ⟨firsts, added, hval, hfirsts.skip htaken, hadded⟩
      · rw [addMemberAttribute_of_notMem htaken, bind_assoc, SessionM.val_bind]
        simp only [pure_bind]
        have hvalid : ((svc.memberType .output m.2).state s).Valid :=
          (svc.memberType_spec hs .output m.2).ext.valid hs
        have hattribute : svc.AttributeFor m _ := attributeFor_memberType hs m
        obtain ⟨firsts, added, hval, hfirsts, hadded⟩ := ih hvalid
          (as ++ [⟨snakeCase m.1, (svc.memberType .output m.2).val s⟩])
        rw [List.map_append] at hfirsts
        exact ⟨m :: firsts, _ :: added, by rw [hval, List.append_assoc]; rfl,
          hfirsts.take htaken, .cons hattribute hadded⟩

/-- The names of the data are those of the identifiers and of the members. -/
theorem dataNames_eq (svc : Service) (r : Schema.ResourceModel) :
    svc.dataNames r = r.identifierNames ++ (svc.dataMembers r).map fun m => snakeCase m.1 := by
  unfold dataNames dataMembers
  cases r.shape.bind svc.model.shapes.get? with
  | none => rfl
  | some shape => simp [OrderedMap.keys, Function.comp_def]

/-- The loop runs over the members, of which there may be none. -/
theorem resourceAttributes_eq (svc : Service) (r : Schema.ResourceModel) :
    svc.resourceAttributes r =
      (svc.dataMembers r).foldlM svc.addMemberAttribute (identifierAttributes r) := by
  unfold resourceAttributes dataMembers
  cases r.shape.bind svc.model.shapes.get? with
  | none => rfl
  | some shape => rfl

/-- **The attributes of a resource** are those for its identifiers, and then those for
the first members of all other names.  Every member has its name among them, and no two
have one name just when the identifiers differ.  A resource without a declared shape has
no other attributes. -/
theorem attributes_resource (svc : Service) (r : Schema.ResourceModel)
    (steps : List SessionStep) :
    let as := (svc.resourceAttributes r).val (svc.afterSteps steps)
    (∃ firsts added,
      as = r.identifiers.map (fun i => ⟨snakeCase i.name, .str⟩) ++ added ∧
      FirstOfNames r.identifierNames (svc.dataMembers r) firsts ∧
      List.Forall₂ svc.AttributeFor firsts added) ∧
    ((as.map (·.name)).Nodup ↔ r.identifierNames.Nodup) ∧
    (∀ m ∈ svc.dataMembers r, snakeCase m.1 ∈ as.map (·.name)) ∧
    (r.shape.bind svc.model.shapes.get? = none →
      as = r.identifiers.map fun i => ⟨snakeCase i.name, .str⟩) := by
  intro as
  obtain ⟨hnodup, hnames⟩ := names_resourceAttributes (⟨_, rfl⟩ : (svc.resourceAttributes r).Gives as)
  obtain ⟨firsts, added, hval, hfirsts, hadded⟩ :=
    exists_firsts (svc.valid_afterSteps steps) (identifierAttributes r) (svc.dataMembers r)
  rw [← resourceAttributes_eq] at hval
  change as = _ at hval
  have hidentifiers : (identifierAttributes r).map (·.name) = r.identifierNames := by
    rw [identifierAttributes, List.map_map]
    rfl
  refine ⟨⟨firsts, added, hval, hidentifiers ▸ hfirsts, hadded⟩, hnodup, ?_, ?_⟩
  · intro m hm
    rw [hnames, dataNames_eq, List.mem_append]
    exact .inr (List.mem_map_of_mem hm)
  · intro hnone
    have hmembers : svc.dataMembers r = [] := by rw [dataMembers, hnone]
    rw [hmembers] at hfirsts
    obtain rfl := List.sublist_nil.mp hfirsts.sublist
    obtain rfl := List.forall₂_nil_left_iff.mp hadded
    rw [hval, List.append_nil]
    rfl

end Service

end ServiceStubs
