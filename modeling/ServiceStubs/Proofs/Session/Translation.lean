import ServiceStubs.Proofs.Session.Form

/-!
# The translation of shapes

The dictionary of a shape is entered before the types of its members are known,
so while a shape is translated the session holds dictionaries that are not
complete.  What the translation of one shape does to a session is therefore
stated as a relation between the sessions before and after it, `Extends`: the
dictionaries that were there stay as they are, complete or not, and every new
one is complete.

## Main definitions

* `Service.Extends` — what the translation of a shape does to a session.
* `Service.Makes` — a step that makes a known type of a form.
* `Service.Translates` — a function that makes the types of shapes, as long as
  few enough names for dictionaries are free.
* `Service.shapeType_spec` — the translation of a shape.
-/

namespace ServiceStubs

namespace Service

variable {svc : Service} {s t u : Session} {position : Position}

/-! ## Extensions of a session -/

variable (svc) in
/-- The session `t` is the session `s` with some new dictionaries of shapes, each
of them complete and translated in the given position. -/
structure Extends (position : Position) (s t : Session) : Prop where
  size_le : s.store.dicts.size ≤ t.store.dicts.size
  kept : ∀ r, s.store.InUse r → t.store.get r = s.store.get r
  shapes : ∀ n r, s.shapes.find? n = some r → t.shapes.find? n = some r
  fixed : t.fixed = s.fixed
  fresh : ∀ n r, t.shapes.find? n = some r →
    s.shapes.find? n = some r ∨ (¬ s.store.InUse r ∧ svc.Fresh t position n (t.store.get r))
  valid : s.Valid → t.Valid

namespace Extends

theorem refl (s : Session) : svc.Extends position s s where
  size_le := Nat.le_refl _
  kept _ _ := rfl
  shapes _ _ h := h
  fixed := rfl
  fresh _ _ h := .inl h
  valid h := h

theorem inUse (h : svc.Extends position s t) {r : DictRef} (hr : s.store.InUse r) :
    t.store.InUse r :=
  Nat.lt_of_lt_of_le hr h.size_le

theorem has (h : svc.Extends position s t) {r : DictRef} (hr : s.Has r) : t.Has r := by
  rcases hr with hr | hr
  · exact .inl (h.shapes _ _ hr)
  · exact .inr (h.fixed ▸ hr)

theorem trans (h : svc.Extends position s t) (h' : svc.Extends position t u) (hs : s.Valid) :
    svc.Extends position s u where
  size_le := Nat.le_trans h.size_le h'.size_le
  kept r hr := (h'.kept r (h.inUse hr)).trans (h.kept r hr)
  shapes n r hr := h'.shapes n r (h.shapes n r hr)
  fixed := h'.fixed.trans h.fixed
  fresh n r hr := by
    rcases h'.fresh n r hr with hr | ⟨hnew, hfresh⟩
    · refine (h.fresh n r hr).imp id fun ⟨hnew, hfresh⟩ => ⟨hnew, ?_⟩
      have huse : t.store.InUse r := ((h.valid hs).shapes n r hr).2
      rw [h'.kept r huse]
      exact hfresh.mono fun _ hr => h'.has hr
    · exact .inr ⟨fun huse => hnew (h.inUse huse), hfresh⟩
  valid hs := h'.valid (h.valid hs)

/-- A dictionary that was there before may get some fields on both sides. -/
theorem withFields (h : svc.Extends position s t) {ref : DictRef} (href : s.store.InUse ref)
    (fs : List Field) : svc.Extends position (s.withFields ref fs) (t.withFields ref fs) where
  size_le := by simpa using h.size_le
  kept r hr := by
    have hr : s.store.InUse r := by simpa using hr
    simp only [Session.store_withFields]
    by_cases hid : r.id = ref.id
    · rw [Store.get_congr (by simpa using h.inUse href) hid,
        Store.get_congr (by simpa using href) hid, Store.get_addFields (h.inUse href),
        Store.get_addFields href, h.kept ref href]
    · rw [Store.get_addFields_of_ne hid, Store.get_addFields_of_ne hid, h.kept r hr]
  shapes := h.shapes
  fixed := h.fixed
  fresh n r hr := by
    refine (h.fresh n r hr).imp id fun ⟨hnew, hfresh⟩ => ?_
    have hid : r.id ≠ ref.id := fun hid => hnew (by simpa [Store.InUse, hid] using href)
    refine ⟨by simpa using hnew, ?_⟩
    rw [Session.store_withFields, Store.get_addFields_of_ne hid]
    exact hfresh.mono fun _ hr => hr
  valid := by simpa using h.valid

/-- A new dictionary that is complete in the end makes no difference to the
others. -/
theorem of_opened {d : TypedDict} {fs : List Field} (hnone : s.shapes.find? d.name = none)
    (h : svc.Extends position ((s.opened d).withFields ⟨s.store.dicts.size, d.name⟩ fs) t)
    (hfresh : svc.Fresh t position d.name (t.store.get ⟨s.store.dicts.size, d.name⟩)) :
    svc.Extends position s t where
  size_le := by
    have hsize := h.size_le
    simp only [Session.store_withFields, Store.size_addFields, Session.opened,
      Store.size_add] at hsize
    omega
  kept r hr := by
    have hne : r.id ≠ s.store.dicts.size := Nat.ne_of_lt hr
    rw [h.kept r (by simpa [Session.opened] using hr.add d), Session.store_withFields,
      Store.get_addFields_of_ne hne]
    exact Store.get_add_of_inUse hr d
  shapes n r hr := h.shapes n r (Session.find?_opened_of_some hnone hr)
  fixed := h.fixed
  fresh n r hr := by
    rcases h.fresh n r hr with hold | ⟨hnew, hfresh⟩
    · rw [Session.shapes_withFields, Session.find?_opened] at hold
      split at hold
      · next hn =>
          subst hn
          obtain rfl := Option.some.inj hold
          exact .inr ⟨Nat.lt_irrefl _, hfresh⟩
      · exact .inl hold
    · refine .inr ⟨fun huse => hnew ?_, hfresh⟩
      simpa [Session.opened] using huse.add d
  valid hs := h.valid (by simpa using hs.opened d)

end Extends

/-! ## Making a type -/

variable (svc) in
/-- The step makes a known type of the given form, and otherwise only extends the
session, in the given position. -/
structure Makes (position : Position) (s : Session) (m : SessionM TypeExpr) (form : TypeExpr) :
    Prop where
  ext : svc.Extends position s (m.state s)
  known : svc.Known (m.state s) (m.val s)
  form : (m.val s).skeleton = form

theorem Makes.pure {a form : TypeExpr} (hknown : svc.Known s a) (hform : a.skeleton = form) :
    svc.Makes position s (Pure.pure a) form :=
  ⟨.refl s, hknown, hform⟩

variable (svc) in
/-- The number of shapes whose name for a dictionary is still free. -/
def unopened (s : Session) : Nat :=
  (svc.model.shapes.keys.filter fun n => (s.shapes.find? (dictName n)).isNone).length

variable (svc) in
theorem unopened_lt (s : Session) : svc.unopened s < svc.model.shapes.size + 1 := by
  have hle : svc.unopened s ≤ svc.model.shapes.keys.length := List.length_filter_le _ _
  have hsize : svc.model.shapes.keys.length = svc.model.shapes.size := List.length_map _
  omega

/-- Entered names stay entered. -/
theorem unopened_le (h : ∀ n r, s.shapes.find? n = some r → t.shapes.find? n = some r) :
    svc.unopened t ≤ svc.unopened s := by
  unfold unopened
  refine (List.monotone_filter_right _ ?_).length_le
  intro n hn
  cases hs : s.shapes.find? (dictName n) with
  | none => rfl
  | some r => simp [h _ r hs] at hn

/-- A new dictionary takes the name that its shape gives it. -/
theorem unopened_opened {name : String} {shape : Schema.Shape} {d : TypedDict}
    (hshape : svc.model.shapes.get? name = some shape)
    (hfree : s.shapes.find? (dictName name) = none) (hd : d.name = dictName name) :
    svc.unopened (s.opened d) < svc.unopened s := by
  refine length_filter_lt ?_ (OrderedMap.mem_keys_of_get? hshape) (by simp [hfree]) ?_
  · intro n
    rw [Session.find?_opened]
    split <;> simp
  · simp [Session.find?_opened, hd]

variable (svc) in
/-- The function makes the types of shapes, in their forms, in every session
where fewer than `dicts` names for dictionaries are free. -/
def Translates (dicts : Nat) (typeOf : Position → String → SessionM TypeExpr)
    (form : Position → String → TypeExpr) : Prop :=
  ∀ position name s, s.Valid → svc.unopened s < dicts →
    svc.Makes position s (typeOf position name) (form position name)

section Recursion

variable {dicts : Nat} {typeOf partType memberType : Position → String → SessionM TypeExpr}
  {form partForm : Position → String → TypeExpr}

theorem Translates.refType (h : svc.Translates dicts typeOf form) (hs : s.Valid)
    (hfree : svc.unopened s < dicts) (position : Position) (ref : Option Schema.ShapeRef)
    {default : TypeExpr} (hknown : svc.Known s default)
    (hform : default.skeleton = default) :
    svc.Makes position s (svc.refType typeOf position ref default)
      (svc.refForm form position ref default) := by
  unfold Service.refType refForm
  cases ref with
  | none => exact .pure hknown hform
  | some ref =>
      dsimp only
      split
      · exact h position ref.shape s hs hfree
      · exact .pure hknown hform

/-- The fields of a record shape: one for each member, in order. -/
theorem Translates.members (h : svc.Translates dicts memberType svc.shapeForm)
    (position : Position) (shape : Schema.Shape) {ref : DictRef}
    (members : List (String × Schema.ShapeRef)) {s : Session} (hs : s.Valid)
    (hfree : svc.unopened s < dicts) (href : s.store.InUse ref) :
    ∃ fs, List.Forall₂ (svc.FieldFor
          ((members.forM (svc.addMember memberType position shape ref)).state s) position shape)
        members fs ∧
      svc.Extends position (s.withFields ref fs)
        ((members.forM (svc.addMember memberType position shape ref)).state s) := by
  induction members generalizing s with
  | nil => exact ⟨[], .nil, .refl s⟩
  | cons m ms ih =>
      have hm := h.refType hs hfree position (some m.2) known_any rfl
      set a := (svc.refType memberType position (some m.2) .any).val s with ha
      set t := (svc.refType memberType position (some m.2) .any).state s with ht
      let f : Field := ⟨m.1, a, shape.isRequired m.1⟩
      have hstate : (svc.addMember memberType position shape ref m).state s
          = t.withFields ref [f] := rfl
      have hvalid : (t.withFields ref [f]).Valid := by simpa using hm.ext.valid hs
      have hle : svc.unopened (t.withFields ref [f]) ≤ svc.unopened s :=
        unopened_le hm.ext.shapes
      obtain ⟨fs, hfs, hext⟩ := ih hvalid (by omega) (by simpa using hm.ext.inUse href)
      rw [SessionM.state_forM_cons, hstate]
      refine ⟨f :: fs, .cons ⟨rfl, rfl, hm.form, ?_⟩ hfs, ?_⟩
      · exact hm.known.mono fun r hr => hext.has hr
      · exact (hm.ext.withFields href (f :: fs)).trans hext (by simpa using hs)

/-- A dictionary that is there already is not made again. -/
theorem recordType_of_some {name : String} {shape : Schema.Shape} {ref : DictRef}
    (h : s.shapes.find? (dictName name) = some ref) :
    (svc.recordType memberType position name shape).val s = .dict ref ∧
      (svc.recordType memberType position name shape).state s = s := by
  simp [recordType, h]

/-- A dictionary that is not there is opened, and then its members are added. -/
theorem recordType_of_none {name : String} {shape : Schema.Shape}
    (h : s.shapes.find? (dictName name) = none) :
    (svc.recordType memberType position name shape).val s =
        .dict ⟨s.store.dicts.size, dictName name⟩ ∧
      (svc.recordType memberType position name shape).state s =
        (shape.members.entries.forM (svc.addMember memberType position shape
          ⟨s.store.dicts.size, dictName name⟩)).state
            (s.opened ⟨dictName name, [], shape.documentation.map Text.plain⟩) := by
  simp only [recordType, SessionM.state_bind, SessionM.val_bind, SessionM.val_get,
    SessionM.state_get, h, Session.val_openDict h, Session.state_openDict h, SessionM.val_pure,
    SessionM.state_pure, and_self]

/-- A new dictionary of a shape has the fields for its members, in order. -/
theorem Translates.openRecord_spec (h : svc.Translates dicts memberType svc.shapeForm)
    (position : Position) {name : String} {shape : Schema.Shape} (hs : s.Valid)
    (hshape : svc.model.shapes.get? name = some shape)
    (hnone : s.shapes.find? (dictName name) = none) (hfree : svc.unopened s < dicts + 1) :
    let t := (svc.recordType memberType position name shape).state s
    let ref : DictRef := ⟨s.store.dicts.size, dictName name⟩
    ∃ fs, List.Forall₂ (svc.FieldFor t position shape) shape.members.entries fs ∧
      svc.Extends position ((s.opened ⟨dictName name, [], shape.documentation.map Text.plain⟩).withFields
        ref fs) t ∧
      t.shapes.find? (dictName name) = some ref ∧
      t.store.get ref = ⟨dictName name, fs, shape.documentation.map Text.plain⟩ := by
  let d : TypedDict := ⟨dictName name, [], shape.documentation.map Text.plain⟩
  intro t ref
  have hopen : svc.unopened (s.opened d) < dicts :=
    Nat.lt_of_lt_of_le (unopened_opened hshape hnone rfl) (Nat.le_of_lt_succ hfree)
  have href : (s.opened d).store.InUse ref := Store.inUse_add s.store d
  obtain ⟨fs, hfs, hext⟩ := h.members position shape shape.members.entries (hs.opened d) hopen href
  rw [← (recordType_of_none hnone).2] at hfs hext
  refine ⟨fs, hfs, hext, ?_, ?_⟩
  · exact hext.shapes _ _ (by simp [Session.find?_opened, d, ref])
  · have hempty : (s.opened d).store.get ref = d := Store.get_add s.store d
    rw [hext.kept ref (by simpa using href), Session.store_withFields, Store.get_addFields href,
      hempty]
    rfl

/-- **A new dictionary of a shape is complete once its members are translated.** -/
theorem Translates.openRecord (h : svc.Translates dicts memberType svc.shapeForm)
    (position : Position) {name : String} {shape : Schema.Shape} (hs : s.Valid)
    (hshape : svc.Describes name shape (dictName name))
    (hnone : s.shapes.find? (dictName name) = none) (hfree : svc.unopened s < dicts + 1) :
    svc.Makes position s (svc.recordType memberType position name shape)
      (.dict ⟨0, dictName name⟩) := by
  obtain ⟨fs, hfs, hext, hnew, hget⟩ :=
    h.openRecord_spec position hs hshape.declared hnone hfree
  have hval : (svc.recordType memberType position name shape).val s = .dict _ :=
    (recordType_of_none hnone).1
  refine ⟨?_, ?_, ?_⟩
  · refine .of_opened hnone hext ?_
    rw [hget]
    exact ⟨name, shape, hshape, rfl, rfl, hfs⟩
  · rw [hval]
    exact known_dict _ |>.mpr (.inl hnew)
  · rw [hval]
    rfl

theorem Translates.recordType (h : svc.Translates dicts memberType svc.shapeForm)
    (position : Position) {name : String} {shape : Schema.Shape} (hs : s.Valid)
    (hshape : svc.Describes name shape (dictName name)) (hfree : svc.unopened s < dicts + 1) :
    svc.Makes position s (svc.recordType memberType position name shape)
      (.dict ⟨0, dictName name⟩) := by
  cases hfind : s.shapes.find? (dictName name) with
  | none => exact h.openRecord position hs hshape hfind hfree
  | some ref =>
      have hname : ref.name = dictName name := (hs.shapes _ ref hfind).1
      obtain ⟨hval, hstate⟩ : (svc.recordType memberType position name shape).val s = .dict ref ∧
          (svc.recordType memberType position name shape).state s = s := recordType_of_some hfind
      refine ⟨?_, ?_, ?_⟩
      · rw [hstate]
        exact .refl s
      · rw [hstate, hval, known_dict]
        exact hs.has_shape hfind
      · rw [hval, TypeExpr.skeleton_dict, hname]

theorem Makes.listOf {m : SessionM TypeExpr} {a : TypeExpr} (h : svc.Makes position s m a) :
    svc.Makes position s (do return .listOf (← m)) (.listOf a) where
  ext := h.ext
  known := (known_listOf _).mpr h.known
  form := (TypeExpr.skeleton_listOf _).trans (congrArg _ h.form)

/-- The values of a map are translated after its keys. -/
theorem Makes.dictOf {m n : SessionM TypeExpr} {a b : TypeExpr} (h : svc.Makes position s m a)
    (h' : svc.Makes position (m.state s) n b) (hs : s.Valid) :
    svc.Makes position s (do return .dictOf (← m) (← n)) (.dictOf a b) where
  ext := h.ext.trans h'.ext hs
  known := (known_dictOf _ _).mpr ⟨h.known.mono fun _ hr => h'.ext.has hr, h'.known⟩
  form := by
    rw [← h.form, ← h'.form]
    rfl

theorem skeleton_unknownType (svc : Service) (name : String) :
    (svc.unknownType name).skeleton = svc.unknownType name := by
  unfold unknownType
  split <;> rfl

theorem skeleton_blobType (streaming : Bool) (position : Position) :
    (blobType streaming position).skeleton = blobType streaming position := by
  cases position with
  | input => rfl
  | output => cases streaming <;> rfl

theorem known_blobType (streaming : Bool) (position : Position) :
    svc.Known s (blobType streaming position) := by
  cases position with
  | input => exact known_blobInput
  | output => cases streaming <;> simp [blobType]

/-- One level of the translation. -/
theorem Translates.shapeTypeWith (hpart : svc.Translates (dicts + 1) partType partForm)
    (hmember : svc.Translates dicts memberType svc.shapeForm) :
    svc.Translates (dicts + 1) (svc.shapeTypeWith partType memberType)
      (svc.formWith partForm) := by
  intro position name s hs hfree
  unfold Service.shapeTypeWith formWith
  cases hshape : svc.model.shapes.get? name with
  | none => exact .pure (known_unknownType svc s name) (skeleton_unknownType svc name)
  | some shape =>
      dsimp only
      cases hkind : shape.kind with
      | integer | long => exact .pure known_int rfl
      | boolean => exact .pure known_bool rfl
      | double | float => exact .pure known_float rfl
      | timestamp => exact .pure known_datetime rfl
      | blob => exact .pure (known_blobType _ _) (skeleton_blobType _ _)
      | string =>
          refine .pure ?_ ?_
          · split <;> simp
          · split <;> rfl
      | list => exact (hpart.refType hs hfree position shape.member known_any rfl).listOf
      | map =>
          have hkey := hpart.refType hs hfree position shape.key known_str rfl
          refine hkey.dictOf (hpart.refType (hkey.ext.valid hs) ?_ position shape.value known_any
            rfl) hs
          exact Nat.lt_of_le_of_lt (unopened_le hkey.ext.shapes) hfree
      | record =>
          dsimp only
          split
          · exact .pure known_looseDict rfl
          · next hempty =>
              exact hmember.recordType position hs
                ⟨hshape, hkind, by simpa using hempty, rfl⟩ hfree
      | other tag => exact .pure (known_unknownType svc s tag) (skeleton_unknownType svc tag)

/-- The parts of lists and maps, by induction on how deep they are followed. -/
theorem Translates.shapeTypeWithin (hmember : svc.Translates dicts memberType svc.shapeForm)
    (depth : Nat) :
    svc.Translates (dicts + 1) (svc.shapeTypeWithin memberType depth) (svc.formWithin depth) := by
  induction depth with
  | zero => exact fun _ _ _ _ _ => .pure known_any rfl
  | succ depth ih => exact ih.shapeTypeWith hmember

end Recursion

/-- The members of dictionaries, by induction on how many of them may still be
made inside each other. -/
theorem translates_shapeTypeOpening (svc : Service) (dicts : Nat) :
    svc.Translates dicts (svc.shapeTypeOpening dicts) svc.shapeForm := by
  induction dicts with
  | zero => exact fun _ _ s _ h => absurd h (Nat.not_lt_zero _)
  | succ dicts ih => exact ih.shapeTypeWithin svc.depthLimit

/-- **The translation of a shape makes a known type of the form of the shape, and
every dictionary that it adds is complete.** -/
theorem shapeType_spec (svc : Service) (hs : s.Valid) (position : Position) (name : String) :
    svc.Makes position s (svc.shapeType position name) (svc.shapeForm position name) :=
  translates_shapeTypeOpening svc _ position name s hs (svc.unopened_lt s)

/-- The type of a record shape with members is its dictionary. -/
theorem shapeType_of_describes {name n : String} {shape : Schema.Shape}
    (h : svc.Describes name shape n) : svc.shapeType position name =
      svc.recordType (svc.shapeTypeOpening svc.model.shapes.size) position name shape := by
  change svc.shapeTypeWith _ _ position name = _
  simp [shapeTypeWith, h.declared, h.record, h.nonempty]

/-- A record shape whose name is free gets a dictionary with its own members. -/
theorem shapeType_of_free (svc : Service) (hs : s.Valid) (position : Position) {name : String}
    {shape : Schema.Shape} (hshape : svc.Describes name shape (dictName name))
    (hnone : s.shapes.find? (dictName name) = none) :
    let t := (svc.shapeType position name).state s
    ∃ ref, (svc.shapeType position name).val s = .dict ref ∧
      t.shapes.find? (dictName name) = some ref ∧
      List.Forall₂ (svc.FieldFor t position shape) shape.members.entries
        (t.store.get ref).fields := by
  rw [shapeType_of_describes hshape]
  obtain ⟨fs, hfs, -, hfind, hget⟩ :=
    (translates_shapeTypeOpening svc svc.model.shapes.size).openRecord_spec position hs
      hshape.declared hnone (svc.unopened_lt s)
  exact ⟨_, (recordType_of_none hnone).1, hfind, hget ▸ hfs⟩

theorem memberType_spec (svc : Service) (hs : s.Valid) (position : Position)
    (ref : Schema.ShapeRef) :
    svc.Makes position s (svc.memberType position ref) (svc.memberForm position ref) := by
  have h : svc.Translates (svc.unopened s + 1) svc.shapeType svc.shapeForm :=
    fun position name s hs _ => shapeType_spec svc hs position name
  exact h.refType hs (Nat.lt_succ_self _) position (some ref) known_any rfl

end Service

end ServiceStubs
