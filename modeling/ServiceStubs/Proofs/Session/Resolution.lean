import ServiceStubs.Proofs.Schema.References
import ServiceStubs.Proofs.Session.Translation

/-!
# The translation of shapes, without limits

The translation follows the parts of lists and maps, and opens the dictionaries of
records that it meets, each of them once.  Here it is stated as a relation, without
limits on how far it goes: a derivation of the relation is a translation that comes to
an end.  If every cycle of references passes through a record with members, then from
every session there is exactly one, and the limits are never met: between two records
the parts are fewer and fewer, and every record that is opened takes one of finitely many
names.

## Main definitions

* `Service.Head`, `Service.head` — what the type of a shape is made from.
* `Service.Resolves` — the translation of a shape leads from a session to a type and
  another session.
* `Service.Resolves.kept` — dictionaries stay entered.
* `Service.Resolves.unique` — there is at most one translation.
* `Service.resolves_iff` — there is one, and the limits are not met.
-/

namespace ServiceStubs.Service

/-! ## The relation -/

/-- What the type of a shape is made from: a type that refers to no other shape, the
references of a list or a map, or a record with members. -/
inductive Head
  | type (a : TypeExpr)
  | list (item : Option Schema.ShapeRef)
  | map (key value : Option Schema.ShapeRef)
  | record (shape : Schema.Shape)

/-- What the type of the shape of a name is made from. -/
def head (svc : Service) (position : Position) (name : String) : Head :=
  match svc.model.shapes.get? name with
  | none => .type (svc.unknownType name)
  | some shape =>
    match shape.kind with
    | .integer | .long => .type .int
    | .boolean => .type .bool
    | .double | .float => .type .float
    | .timestamp => .type .datetime
    | .blob => .type (blobType shape.streaming position)
    | .string => .type (if shape.choices.isEmpty then .str else .literal shape.choices)
    | .list => .list shape.member
    | .map => .map shape.key shape.value
    | .record => if shape.members.isEmpty then .type .looseDict else .record shape
    | .other tag => .type (svc.unknownType tag)

mutual

/-- The translation of the shape `name` turns the session `s` into the session `t`, and
gives the type. -/
inductive Resolves (svc : Service) (position : Position) :
    (name : String) → (s : Session) → TypeExpr → (t : Session) → Prop
  | type {name s a} (hhead : svc.head position name = .type a) : Resolves svc position name s a s
  | list {name s item a t} (hhead : svc.head position name = .list item)
      (hitem : ResolvesRef svc position item .any s a t) :
      Resolves svc position name s (.listOf a) t
  | map {name s key value a t b u} (hhead : svc.head position name = .map key value)
      (hkey : ResolvesRef svc position key .str s a t)
      (hvalue : ResolvesRef svc position value .any t b u) :
      Resolves svc position name s (.dictOf a b) u
  /-- The dictionary is there, so the members are not looked at. -/
  | known {name s shape ref} (hhead : svc.head position name = .record shape)
      (hfind : s.shapes.find? (dictName name) = some ref) :
      Resolves svc position name s (.dict ref) s
  /-- The dictionary is entered, and then come the members. -/
  | opened {name s shape t} (hhead : svc.head position name = .record shape)
      (hnone : s.shapes.find? (dictName name) = none)
      (hmembers : ResolvesMembers svc position shape ⟨s.store.dicts.size, dictName name⟩
        shape.members.entries
        (s.opened ⟨dictName name, [], shape.documentation.map Text.plain⟩) t) :
      Resolves svc position name s (.dict ⟨s.store.dicts.size, dictName name⟩) t

/-- The same for a reference, which has the default type when it is none or its shape is
not declared. -/
inductive ResolvesRef (svc : Service) (position : Position) :
    Option Schema.ShapeRef → (default : TypeExpr) → (s : Session) → TypeExpr → (t : Session) → Prop
  | none {default s} : ResolvesRef svc position none default s default s
  | undeclared {ref default s} (hnot : ref.shape ∉ svc.model.shapes.keys) :
      ResolvesRef svc position (some ref) default s default s
  | declared {ref default s a t} (hdeclared : ref.shape ∈ svc.model.shapes.keys)
      (hshape : Resolves svc position ref.shape s a t) :
      ResolvesRef svc position (some ref) default s a t

/-- The members of a record shape are translated one after the other, and each of them
becomes a field of the dictionary `ref`. -/
inductive ResolvesMembers (svc : Service) (position : Position) :
    (shape : Schema.Shape) → (ref : DictRef) → List (String × Schema.ShapeRef) →
      (s t : Session) → Prop
  | nil {shape ref s} : ResolvesMembers svc position shape ref [] s s
  | cons {shape ref m ms s a t u} (hm : ResolvesRef svc position (some m.2) .any s a t)
      (hms : ResolvesMembers svc position shape ref ms
        (t.withFields ref [⟨m.1, a, shape.isRequired m.1⟩]) u) :
      ResolvesMembers svc position shape ref (m :: ms) s u

end

/-- The references that a list or a map is made from. -/
def Head.parts : Head → List Schema.ShapeRef
  | .list item => item.toList
  | .map key value => key.toList ++ value.toList
  | .type _ | .record _ => []

variable {svc : Service} {position : Position} {name other : String} {shape : Schema.Shape}
  {s t u : Session} {a b : TypeExpr} {ref : DictRef}

/-! ## Types by their heads -/

theorem head_eq_record_iff :
    svc.head position name = .record shape ↔ svc.Describes name shape (dictName name) := by
  have hiff : svc.head position name = .record shape ↔
      svc.model.shapes.get? name = some shape ∧ shape.kind = .record ∧
        shape.members.isEmpty = false := by
    unfold head
    cases svc.model.shapes.get? name with
    | none => simp
    | some first =>
        cases hkind : first.kind with
        | record => cases hempty : first.members.isEmpty <;> simp <;> grind
        | _ => grind
  rw [hiff]
  exact ⟨fun ⟨h, h', h''⟩ => ⟨h, h', h'', rfl⟩, fun h => ⟨h.declared, h.record, h.nonempty⟩⟩

theorem hasFields_iff (position : Position) :
    svc.model.HasFields name ↔ ∃ shape, svc.head position name = .record shape := by
  simp only [head_eq_record_iff]
  exact exists_congr fun shape => ⟨fun ⟨h, h', h''⟩ => ⟨h, h', h'', rfl⟩, fun h => ⟨h.1, h.2, h.3⟩⟩

/-- A type is made from the parts of its shape. -/
theorem hasPart_iff (position : Position) : svc.model.HasPart name other ↔
    other ∈ svc.model.shapes.keys ∧ ∃ ref ∈ (svc.head position name).parts, ref.shape = other := by
  refine and_congr_right fun _ => ?_
  constructor
  · rintro ⟨shape, step, ref, hshape, href, rfl⟩
    refine ⟨ref, ?_, rfl⟩
    cases step with
    | item =>
        obtain ⟨hkind, hitem⟩ := Option.ite_none_right_eq_some.mp href
        simp [head, hshape, hkind, hitem, Head.parts]
    | key =>
        obtain ⟨hkind, hkey⟩ := Option.ite_none_right_eq_some.mp href
        simp [head, hshape, hkind, hkey, Head.parts]
    | value =>
        obtain ⟨hkind, hvalue⟩ := Option.ite_none_right_eq_some.mp href
        simp [head, hshape, hkind, hvalue, Head.parts]
  · rintro ⟨ref, href, rfl⟩
    cases hshape : svc.model.shapes.get? name with
    | none => simp [head, hshape, Head.parts] at href
    | some shape =>
        cases hkind : shape.kind with
        | list =>
            have hitem : shape.member = some ref := by
              simpa [head, hshape, hkind, Head.parts] using href
            exact ⟨shape, .item, ref, rfl, by simp [Schema.Shape.part?, hkind, hitem], rfl⟩
        | map =>
            have hpart : shape.key = some ref ∨ shape.value = some ref := by
              simpa [head, hshape, hkind, Head.parts] using href
            rcases hpart with hkey | hvalue
            · exact ⟨shape, .key, ref, rfl, by simp [Schema.Shape.part?, hkind, hkey], rfl⟩
            · exact ⟨shape, .value, ref, rfl, by simp [Schema.Shape.part?, hkind, hvalue], rfl⟩
        | record =>
            cases hempty : shape.members.isEmpty <;>
              simp [head, hshape, hkind, hempty, Head.parts] at href
        | _ => simp [head, hshape, hkind, Head.parts] at href

/-- The members of a record are translated for its dictionary. -/
theorem hasMember_iff (hhead : svc.head position name = .record shape) :
    svc.model.HasMember name other ↔ other ∈ svc.model.shapes.keys ∧
      ∃ m ∈ shape.members.entries, m.2.shape = other := by
  have hshape := head_eq_record_iff.mp hhead
  refine and_congr_right fun _ => ?_
  constructor
  · rintro ⟨first, m, hfirst, -, hm, hother⟩
    obtain rfl : shape = first := Option.some.inj (hshape.declared.symm.trans hfirst)
    exact ⟨m, hm, hother⟩
  · rintro ⟨m, hm, hother⟩
    exact ⟨shape, m, hshape.declared, hshape.record, hm, hother⟩

/-- The translation of a shape depends on its head. -/
theorem shapeTypeWith_eq (partType memberType : Position → String → SessionM TypeExpr) :
    svc.shapeTypeWith partType memberType position name =
      match svc.head position name with
      | .type a => pure a
      | .list item => do return .listOf (← svc.refType partType position item .any)
      | .map key value => do
        let key ← svc.refType partType position key .str
        let value ← svc.refType partType position value .any
        return .dictOf key value
      | .record shape => svc.recordType memberType position name shape := by
  unfold shapeTypeWith head
  cases svc.model.shapes.get? name with
  | none => rfl
  | some shape =>
      cases hkind : shape.kind with
      | record => cases hempty : shape.members.isEmpty <;> simp [hkind, hempty]
      | _ => simp [hkind]

/-! ## Dictionaries stay entered -/

mutual

/-- A translation takes no dictionary away. -/
theorem Resolves.kept {name s a t} {n : String} {r : DictRef} :
    svc.Resolves position name s a t → s.shapes.find? n = some r → t.shapes.find? n = some r
  | .type _, hr => hr
  | .list _ hitem, hr => hitem.kept hr
  | .map _ hkey hvalue, hr => hvalue.kept (hkey.kept hr)
  | .known _ _, hr => hr
  | .opened _ hnone hmembers, hr => hmembers.kept (Session.find?_opened_of_some hnone hr)

theorem ResolvesRef.kept {ref default s a t} {n : String} {r : DictRef} :
    svc.ResolvesRef position ref default s a t → s.shapes.find? n = some r →
      t.shapes.find? n = some r
  | .none, hr => hr
  | .undeclared _, hr => hr
  | .declared _ hshape, hr => hshape.kept hr

theorem ResolvesMembers.kept {shape ref ms s t} {n : String} {r : DictRef} :
    svc.ResolvesMembers position shape ref ms s t → s.shapes.find? n = some r →
      t.shapes.find? n = some r
  | .nil, hr => hr
  | .cons hm hms, hr => hms.kept (hm.kept hr)

end

/-! ## At most one translation -/

mutual

/-- **There is at most one translation.** -/
theorem Resolves.unique : ∀ {name s a t b u}, svc.Resolves position name s a t →
    svc.Resolves position name s b u → a = b ∧ t = u
  | _, _, _, _, _, _, .type hhead, h => by
      cases h with
      | type hhead' => exact ⟨Head.type.inj (hhead.symm.trans hhead'), rfl⟩
      | _ => simp_all
  | _, _, _, _, _, _, .list hhead hitem, h => by
      cases h with
      | list hhead' hitem' =>
          obtain rfl := Head.list.inj (hhead.symm.trans hhead')
          obtain ⟨rfl, rfl⟩ := hitem.unique hitem'
          exact ⟨rfl, rfl⟩
      | _ => simp_all
  | _, _, _, _, _, _, .map hhead hkey hvalue, h => by
      cases h with
      | map hhead' hkey' hvalue' =>
          obtain ⟨rfl, rfl⟩ := Head.map.inj (hhead.symm.trans hhead')
          obtain ⟨rfl, rfl⟩ := hkey.unique hkey'
          obtain ⟨rfl, rfl⟩ := hvalue.unique hvalue'
          exact ⟨rfl, rfl⟩
      | _ => simp_all
  | _, _, _, _, _, _, .known hhead hfind, h => by
      cases h with
      | known _ hfind' =>
          obtain rfl := Option.some.inj (hfind.symm.trans hfind')
          exact ⟨rfl, rfl⟩
      | _ => simp_all
  | _, _, _, _, _, _, .opened hhead hnone hmembers, h => by
      cases h with
      | opened hhead' _ hmembers' =>
          obtain rfl := Head.record.inj (hhead.symm.trans hhead')
          exact ⟨rfl, hmembers.unique hmembers'⟩
      | _ => simp_all

theorem ResolvesRef.unique : ∀ {ref default s a t b u},
    svc.ResolvesRef position ref default s a t → svc.ResolvesRef position ref default s b u →
      a = b ∧ t = u
  | _, _, _, _, _, _, _, .none, h => by
      cases h
      exact ⟨rfl, rfl⟩
  | _, _, _, _, _, _, _, .undeclared hnot, h => by
      cases h with
      | undeclared => exact ⟨rfl, rfl⟩
      | declared hdeclared => exact absurd hdeclared hnot
  | _, _, _, _, _, _, _, .declared hdeclared hshape, h => by
      cases h with
      | undeclared hnot => exact absurd hdeclared hnot
      | declared _ hshape' => exact hshape.unique hshape'

theorem ResolvesMembers.unique : ∀ {shape ref ms s t u},
    svc.ResolvesMembers position shape ref ms s t → svc.ResolvesMembers position shape ref ms s u →
      t = u
  | _, _, _, _, _, _, .nil, h => by
      cases h
      rfl
  | _, _, _, _, _, _, .cons hm hms, h => by
      cases h with
      | cons hm' hms' =>
          obtain ⟨rfl, rfl⟩ := hm.unique hm'
          exact hms.unique hms'

end

/-! ## There is a translation -/

variable (svc position) in
/-- The function translates shapes as the relation says, as long as fewer than `dicts`
names for dictionaries are free. -/
def Completes (dicts : Nat) (typeOf : Position → String → SessionM TypeExpr) : Prop :=
  ∀ name s, svc.unopened s < dicts →
    svc.Resolves position name s ((typeOf position name).val s) ((typeOf position name).state s)

section Recursion

variable {dicts : Nat} {typeOf partType memberType : Position → String → SessionM TypeExpr}

theorem resolvesRef_refType {ref : Option Schema.ShapeRef} {default : TypeExpr}
    (h : ∀ r, ref = some r → r.shape ∈ svc.model.shapes.keys →
      svc.Resolves position r.shape s ((typeOf position r.shape).val s)
        ((typeOf position r.shape).state s)) :
    svc.ResolvesRef position ref default s ((svc.refType typeOf position ref default).val s)
      ((svc.refType typeOf position ref default).state s) := by
  cases ref with
  | none => exact .none
  | some r =>
      simp only [refType, OrderedMap.contains_iff]
      split
      · next hdeclared => exact .declared hdeclared (h r rfl hdeclared)
      · next hnot => exact .undeclared hnot

/-- The members, one after the other: none of them frees a name. -/
theorem Completes.members (h : svc.Completes position dicts memberType) (shape : Schema.Shape)
    (ref : DictRef) (ms : List (String × Schema.ShapeRef)) (hfree : svc.unopened s < dicts) :
    svc.ResolvesMembers position shape ref ms s
      ((ms.forM (svc.addMember memberType position shape ref)).state s) := by
  induction ms generalizing s with
  | nil => exact .nil
  | cons m ms ih =>
      have hm : svc.ResolvesRef position (some m.2) .any s _ _ :=
        resolvesRef_refType fun r _ _ => h r.shape s hfree
      rw [SessionM.state_forM_cons]
      refine .cons hm (ih ?_)
      exact Nat.lt_of_le_of_lt (unopened_le fun n r hr => hm.kept hr) hfree

theorem Completes.recordType (h : svc.Completes position dicts memberType)
    (hhead : svc.head position name = .record shape) (hfree : svc.unopened s < dicts + 1) :
    svc.Resolves position name s ((svc.recordType memberType position name shape).val s)
      ((svc.recordType memberType position name shape).state s) := by
  cases hfind : s.shapes.find? (dictName name) with
  | some ref =>
      obtain ⟨hval, hstate⟩ : (svc.recordType memberType position name shape).val s = .dict ref ∧
          (svc.recordType memberType position name shape).state s = s := recordType_of_some hfind
      rw [hval, hstate]
      exact .known hhead hfind
  | none =>
      let d : TypedDict := ⟨dictName name, [], shape.documentation.map Text.plain⟩
      have hopen : svc.unopened (s.opened d) < svc.unopened s :=
        unopened_opened (head_eq_record_iff.mp hhead).declared hfind rfl
      have hmembers := h.members shape ⟨s.store.dicts.size, dictName name⟩ shape.members.entries
        (Nat.lt_of_lt_of_le hopen (Nat.le_of_lt_succ hfree))
      rw [← (recordType_of_none hfind).2] at hmembers
      rw [(recordType_of_none hfind).1]
      exact .opened hhead hfind hmembers

/-- The parts of lists and maps, by induction on how deep they are followed: a part leads
to fewer shapes than the whole. -/
theorem Completes.shapeTypeWithin (h : svc.Completes position dicts memberType)
    (hends : ∀ n, svc.model.Ends n) (depth : Nat) (name : String) (s : Session)
    (hdepth : svc.model.partCount name < depth) (hfree : svc.unopened s < dicts + 1) :
    svc.Resolves position name s ((svc.shapeTypeWithin memberType depth position name).val s)
      ((svc.shapeTypeWithin memberType depth position name).state s) := by
  induction depth generalizing name s with
  | zero => exact absurd hdepth (Nat.not_lt_zero _)
  | succ depth ih =>
      have hpart : ∀ r t, r ∈ (svc.head position name).parts → r.shape ∈ svc.model.shapes.keys →
          svc.unopened t < dicts + 1 →
          svc.Resolves position r.shape t
            ((svc.shapeTypeWithin memberType depth position r.shape).val t)
            ((svc.shapeTypeWithin memberType depth position r.shape).state t) := by
        intro r t hr hdeclared hfree
        have hlt := Schema.Model.partCount_lt (hends name) ((hasPart_iff position).mpr ⟨hdeclared, r, hr, rfl⟩)
        exact ih r.shape t (by omega) hfree
      simp only [Service.shapeTypeWithin, shapeTypeWith_eq]
      cases hhead : svc.head position name with
      | type a => exact .type hhead
      | list item =>
          simp only [hhead, Head.parts, Option.mem_toList] at hpart
          exact .list hhead (resolvesRef_refType fun r hr hdeclared => hpart r s hr hdeclared hfree)
      | map key value =>
          simp only [hhead, Head.parts, List.mem_append, Option.mem_toList] at hpart
          have hkey : svc.ResolvesRef position key .str s _ _ :=
            resolvesRef_refType fun r hr hdeclared => hpart r s (.inl hr) hdeclared hfree
          have hfree := Nat.lt_of_le_of_lt (unopened_le fun n r hr => hkey.kept hr) hfree
          exact .map hhead hkey
            (resolvesRef_refType fun r hr hdeclared => hpart r _ (.inr hr) hdeclared hfree)
      | record shape => exact h.recordType hhead hfree

end Recursion

/-- The members of dictionaries, by induction on how many names are free. -/
theorem completes_shapeTypeOpening (hends : ∀ n, svc.model.Ends n) (dicts : Nat) :
    svc.Completes position dicts (svc.shapeTypeOpening dicts) := by
  induction dicts with
  | zero => exact fun _ _ h => absurd h (Nat.not_lt_zero _)
  | succ dicts ih =>
      intro name s hfree
      refine ih.shapeTypeWithin hends svc.depthLimit name s ?_ hfree
      exact Nat.lt_succ_of_le (Schema.Model.partCount_le svc.model name)

/-- **The translation of a shape comes to an end from every session**, if every cycle of
references passes through a record, and then it is what the limits give. -/
theorem resolves_iff (h : svc.model.CyclesPassRecords) :
    svc.Resolves position name s a t ↔
      a = (svc.shapeType position name).val s ∧ t = (svc.shapeType position name).state s := by
  have hall : svc.Resolves position name s ((svc.shapeType position name).val s)
      ((svc.shapeType position name).state s) :=
    completes_shapeTypeOpening h.ends _ name s (svc.unopened_lt s)
  constructor
  · exact fun hres => hres.unique hall
  · rintro ⟨rfl, rfl⟩
    exact hall

end ServiceStubs.Service
