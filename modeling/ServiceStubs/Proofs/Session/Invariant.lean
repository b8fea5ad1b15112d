import ServiceStubs.Proofs.Session.Request

/-!
# What a session holds

Between requests every dictionary of a session is complete: it is the dictionary
of a record shape of its name, with one field for each member, and with the field
of responses at the end if some request took it as what an operation returns and
the shape has no such member itself.

## Main definitions

* `Service.Complete` — a dictionary with all its fields.
* `Service.Returned` — some request took a dictionary as what an operation
  returns.
* `Service.Consistent` — the invariant.
* `Service.consistent_performAll` — it holds after any requests.
-/

namespace ServiceStubs.Service

open Session (Request)

variable {svc : Service} {s t : Session} {n : String} {d : TypedDict}

/-! ## Dictionaries by the forms of shapes -/

theorem unknownType_ne_dict (svc : Service) (name : String) (ref : DictRef) :
    svc.unknownType name ≠ .dict ref := by
  unfold unknownType
  split <;> nofun

theorem blobType_ne_dict (streaming : Bool) (position : Position) (ref : DictRef) :
    blobType streaming position ≠ .dict ref := by
  cases position with
  | input => nofun
  | output => cases streaming <;> nofun

/-- Only record shapes have dictionaries. -/
theorem formWith_ne_dict {form : Position → String → TypeExpr} {position : Position}
    {name : String} {shape : Schema.Shape} (hshape : svc.model.shapes.get? name = some shape)
    (hkind : shape.kind ≠ .record) (ref : DictRef) :
    svc.formWith form position name ≠ .dict ref := by
  unfold formWith
  rw [hshape]
  dsimp only
  cases hk : shape.kind with
  | record => exact absurd hk hkind
  | other tag => exact unknownType_ne_dict svc tag ref
  | blob => exact blobType_ne_dict _ _ ref
  | string => dsimp only; split <;> nofun
  | _ => nofun

/-- The type of a shape is a dictionary exactly when the shape is a record with
members. -/
theorem shapeForm_eq_dict_iff {position : Position} {name : String} {ref : DictRef} :
    svc.shapeForm position name = .dict ref ↔
      ref = ⟨0, dictName name⟩ ∧ ∃ shape, svc.Describes name shape (dictName name) := by
  change svc.formWith _ position name = .dict ref ↔ _
  constructor
  · intro h
    cases hshape : svc.model.shapes.get? name with
    | none =>
        simp only [formWith, hshape] at h
        exact absurd h (unknownType_ne_dict svc name ref)
    | some shape =>
        by_cases hkind : shape.kind = .record
        · simp only [formWith, hshape, hkind] at h
          split at h
          · nomatch h
          · next hempty =>
              exact ⟨(TypeExpr.dict.inj h).symm, shape, hshape, hkind, by simpa using hempty, rfl⟩
        · exact absurd h (formWith_ne_dict hshape hkind ref)
  · rintro ⟨rfl, shape, hshape, hkind, hempty, -⟩
    simp [formWith, hshape, hkind, hempty]

/-! ## Complete dictionaries -/

/-- What stands after the fields for the members: the field of responses if it
was added, and else nothing. -/
def ExtraFields (s : Session) (added : Prop) (fs : List Field) : Prop :=
  (added ∧ ∃ ref, s.fixed.find? FixedDict.responseMetadata.name = some ref ∧
    fs = [responseField ref]) ∨ (¬ added ∧ fs = [])

variable (svc) in
/-- The dictionary of the name `n` has all its fields: those for the members of a
record shape of that name, in order, and the field of responses when the
dictionary is returned and the shape has no such member. -/
def Complete (s : Session) (returned : Prop) (n : String) (d : TypedDict) : Prop :=
  ∃ shapeName shape position own extra, svc.Describes shapeName shape n ∧ d.name = n ∧
    d.docstring = shape.documentation.map Text.plain ∧ d.fields = own ++ extra ∧
    List.Forall₂ (svc.FieldFor s position shape) shape.members.entries own ∧
    ExtraFields s (returned ∧ metadataField ∉ shape.members.keys) extra

theorem ExtraFields.mono {added added' : Prop} {fs : List Field} (h : ExtraFields s added fs)
    (hst : s.Grows t) (hadded : added ↔ added') : ExtraFields t added' fs := by
  rcases h with ⟨hyes, ref, href, rfl⟩ | ⟨hno, rfl⟩
  · exact .inl ⟨hadded.mp hyes, ref, hst.fixed _ _ href, rfl⟩
  · exact .inr ⟨fun h => hno (hadded.mpr h), rfl⟩

theorem Complete.mono {returned returned' : Prop} (h : svc.Complete s returned n d)
    (hst : s.Grows t) (hreturned : returned ↔ returned') : svc.Complete t returned' n d := by
  obtain ⟨shapeName, shape, position, own, extra, hshape, hname, hdoc, hfields, hown, hextra⟩ := h
  exact ⟨shapeName, shape, position, own, extra, hshape, hname, hdoc, hfields,
    hown.imp fun _ _ h => h.mono fun _ hr => hst.has hr,
    hextra.mono hst (and_congr_left' hreturned)⟩

/-- A dictionary that was just made is complete while nobody returns it. -/
theorem Fresh.complete {position : Position} {returned : Prop} (h : svc.Fresh s position n d)
    (hno : ¬ returned) : svc.Complete s returned n d := by
  obtain ⟨shapeName, shape, hshape, hname, hdoc, hfields⟩ := h
  exact ⟨shapeName, shape, position, d.fields, [], hshape, hname, hdoc,
    (List.append_nil _).symm, hfields, .inr ⟨fun h => hno h.1, rfl⟩⟩

/-- The names of the fields for the members are those of the members. -/
theorem map_name_of_fieldsFor {position : Position} {shape : Schema.Shape} {own : List Field}
    (h : List.Forall₂ (svc.FieldFor s position shape) shape.members.entries own) :
    own.map (·.name) = shape.members.keys :=
  map_eq_of_forall₂ (h.imp fun _ _ hf => hf.name)

theorem hasField_iff {name : String} : d.hasField name ↔ name ∈ d.fields.map (·.name) := by
  simp [TypedDict.hasField]

/-- A dictionary that has the field of responses already is complete also when it
is returned. -/
theorem Complete.of_hasField {returned : Prop} (h : svc.Complete s returned n d)
    (hfield : d.hasField metadataField) : svc.Complete s True n d := by
  obtain ⟨shapeName, shape, position, own, extra, hshape, hname, hdoc, hfields, hown, hextra⟩ := h
  refine ⟨shapeName, shape, position, own, extra, hshape, hname, hdoc, hfields, hown, ?_⟩
  rcases hextra with ⟨hadded, hextra⟩ | ⟨-, rfl⟩
  · exact .inl ⟨⟨trivial, hadded.2⟩, hextra⟩
  · refine .inr ⟨fun hadded => hadded.2 ?_, rfl⟩
    rw [hasField_iff, hfields, List.append_nil, map_name_of_fieldsFor hown] at hfield
    exact hfield

/-- The field of responses completes a dictionary that is returned and lacks
it. -/
theorem Complete.addResponse {returned : Prop} {ref : DictRef} (h : svc.Complete s returned n d)
    (hfield : d.hasField metadataField = false)
    (href : s.fixed.find? FixedDict.responseMetadata.name = some ref) :
    svc.Complete s True n { d with fields := d.fields ++ [responseField ref] } := by
  obtain ⟨shapeName, shape, position, own, extra, hshape, hname, hdoc, hfields, hown, hextra⟩ := h
  have hlacks : metadataField ∉ d.fields.map (·.name) := by
    rw [← hasField_iff, hfield]
    simp
  rcases hextra with ⟨-, metadata, -, rfl⟩ | ⟨-, rfl⟩
  · exact absurd (by simp [hfields, responseField]) hlacks
  · rw [hfields, List.append_nil, map_name_of_fieldsFor hown] at hlacks
    refine ⟨shapeName, shape, position, own, [responseField ref], hshape, hname, hdoc, ?_, hown,
      .inl ⟨⟨trivial, hlacks⟩, ref, href, rfl⟩⟩
    rw [hfields, List.append_nil]

/-! ## The invariant -/

variable (svc) in
/-- Every dictionary of the session is complete, where `returned` tells which of
them operations returned so far. -/
structure Consistent (returned : String → Prop) (s : Session) : Prop where
  valid : s.Valid
  shapes : ∀ n r, s.shapes.find? n = some r → svc.Complete s (returned n) n (s.store.get r)
  returned : ∀ n, returned n → ∃ r, s.shapes.find? n = some r
  fixed : ∀ n r, s.fixed.find? n = some r → ∃ d : FixedDict, d.name = n ∧ s.store.get r = d.dict

namespace Consistent

variable {returned returned' : String → Prop}

/-- A new session has no dictionaries, and nothing was returned. -/
theorem empty : svc.Consistent (fun _ => False) {} where
  valid := .empty
  shapes _ _ h := nomatch h
  returned _ h := h.elim
  fixed _ _ h := nomatch h

/-- No shape's dictionary has a reserved name. -/
theorem not_reserved (h : svc.Consistent returned s) {r : DictRef}
    (hr : s.shapes.find? n = some r) : isReserved n = false := by
  obtain ⟨shapeName, shape, -, -, -, hshape, -⟩ := h.shapes n r hr
  rw [← hshape.name]
  exact isReserved_dictName shapeName

/-- The dictionaries of shapes are not those that every service has. -/
theorem ne_fixed (h : svc.Consistent returned s) {m : String} {r r' : DictRef}
    (hr : s.shapes.find? n = some r) (hr' : s.fixed.find? m = some r') : r'.id ≠ r.id := by
  intro hid
  have heq := h.valid.injective r' r (h.valid.has_fixed hr') (h.valid.has_shape hr) hid
  have hnm : n = m := by rw [← (h.valid.shapes n r hr).1, ← (h.valid.fixed m r' hr').1, heq]
  obtain ⟨d, hd, -⟩ := h.fixed m r' hr'
  have hreserved : isReserved n := isReserved_iff.mpr ⟨d, hd.trans hnm.symm⟩
  simp [h.not_reserved hr] at hreserved

/-- The translation of a shape keeps the invariant. -/
theorem extend {position : Position} (h : svc.Consistent returned s)
    (hext : svc.Extends position s t) : svc.Consistent returned t where
  valid := hext.valid h.valid
  shapes n r hr := by
    rcases hext.fresh n r hr with hold | ⟨hnew, hfresh⟩
    · rw [hext.kept r (h.valid.shapes n r hold).2]
      exact (h.shapes n r hold).mono hext.grows .rfl
    · refine hfresh.complete fun hret => hnew ?_
      obtain ⟨r', hr'⟩ := h.returned n hret
      obtain rfl : r' = r := Option.some.inj ((hext.shapes n r' hr').symm.trans hr)
      exact (h.valid.shapes n r' hr').2
  returned n hret := (h.returned n hret).imp fun r hr => hext.shapes n r hr
  fixed n r hr := by
    rw [hext.fixed] at hr
    rw [hext.kept r (h.valid.fixed n r hr).2]
    exact h.fixed n r hr

/-- A dictionary that every service has makes no difference to the others. -/
theorem withFixed (h : svc.Consistent returned s) {d : FixedDict}
    (hnone : s.fixed.find? d.name = none) : svc.Consistent returned (s.withFixed d) where
  valid := h.valid.withFixed d
  shapes n r hr := by
    have hkept : (s.withFixed d).store.get r = s.store.get r :=
      Store.get_add_of_inUse (h.valid.shapes n r hr).2 d.dict
    rw [hkept]
    exact (h.shapes n r hr).mono (.withFixed hnone) .rfl
  returned := h.returned
  fixed n r hr := by
    rw [Session.find?_withFixed] at hr
    split at hr
    · next hn =>
        obtain rfl := Option.some.inj hr
        exact ⟨d, hn.symm, Store.get_add s.store d.dict⟩
    · have hkept : (s.withFixed d).store.get r = s.store.get r :=
        Store.get_add_of_inUse (h.valid.fixed n r hr).2 d.dict
      rw [hkept]
      exact h.fixed n r hr

theorem fixedDict (h : svc.Consistent returned s) (d : FixedDict) :
    svc.Consistent returned ((Session.fixedDict d).state s) := by
  obtain ⟨ref, -, ⟨-, hstate⟩ | ⟨hnone, -, hstate⟩⟩ := Session.fixedDict_spec d s <;> rw [hstate]
  · exact h
  · exact h.withFixed hnone

/-- The invariant for what was returned, when the dictionary of `n` has its field
of responses. -/
theorem returning (h : svc.Consistent returned s) {ref : DictRef}
    (href : s.shapes.find? n = some ref) (hcomplete : svc.Complete t True n (t.store.get ref))
    (hvalid : t.Valid) (hgrows : s.Grows t) (hshapes : t.shapes = s.shapes)
    (hfixed : ∀ m r, t.fixed.find? m = some r → ∃ d : FixedDict, d.name = m ∧
      t.store.get r = d.dict)
    (hkept : ∀ r, s.store.InUse r → r.id ≠ ref.id → t.store.get r = s.store.get r) :
    svc.Consistent (fun m => returned m ∨ m = n) t where
  valid := hvalid
  shapes m r hr := by
    rw [hshapes] at hr
    by_cases hm : m = n
    · subst hm
      obtain rfl : r = ref := Option.some.inj (hr.symm.trans href)
      exact hcomplete.mono (.refl t) (by simp)
    · have hid : r.id ≠ ref.id := by
        intro hid
        have heq := h.valid.injective r ref (h.valid.has_shape hr) (h.valid.has_shape href) hid
        exact hm (by rw [← (h.valid.shapes m r hr).1, ← (h.valid.shapes n ref href).1, heq])
      rw [hkept r (h.valid.shapes m r hr).2 hid]
      exact (h.shapes m r hr).mono hgrows (by simp [hm])
  returned m hm := by
    rw [hshapes]
    rcases hm with hm | rfl
    · exact h.returned m hm
    · exact ⟨ref, href⟩
  fixed := hfixed

/-- **The field of responses keeps the invariant.** -/
theorem addMetadata (h : svc.Consistent returned s) {ref : DictRef}
    (href : s.shapes.find? n = some ref) :
    svc.Consistent (fun m => returned m ∨ m = n) ((addMetadata ref).state s) := by
  have huse : s.store.InUse ref := (h.valid.shapes n ref href).2
  cases hfield : (s.store.get ref).hasField metadataField with
  | true =>
      rw [state_addMetadata_of_hasField hfield]
      exact h.returning href ((h.shapes n ref href).of_hasField hfield) h.valid (.refl s) rfl
        h.fixed fun _ _ _ => rfl
  | false =>
      obtain ⟨metadata, hmetadata, hstate⟩ := state_addMetadata hfield
      set u := (Session.fixedDict .responseMetadata).state s with hu
      have hgrows : s.Grows u := Session.grows_fixedDict _ s
      have hcons : svc.Consistent returned u := h.fixedDict _
      have hrefu : u.shapes.find? n = some ref := hgrows.shapes n ref href
      have huseu : u.store.InUse ref := hgrows.inUse huse
      have hget : (u.withFields ref [responseField metadata]).store.get ref =
          { u.store.get ref with fields := (u.store.get ref).fields ++ [responseField metadata] } :=
        Store.get_addFields huseu _
      have hfieldu : (u.store.get ref).hasField metadataField = false := by
        rw [hu, Session.get_fixedDict _ huse, hfield]
      rw [hstate]
      refine hcons.returning hrefu ?_ (by simpa using hcons.valid) (.withFields u huseu _) rfl ?_ ?_
      · rw [hget]
        exact ((hcons.shapes n ref hrefu).addResponse hfieldu hmetadata).mono
          (.withFields u huseu _) .rfl
      · intro m r hr
        have hr' : u.fixed.find? m = some r := hr
        rw [Session.store_withFields, Store.get_addFields_of_ne (hcons.ne_fixed hrefu hr')]
        exact hcons.fixed m r hr'
      · intro r _ hid
        exact Store.get_addFields_of_ne hid _

end Consistent

/-! ## Requests -/

variable (svc) in
/-- The request takes the dictionary of the name `n` as what an operation
returns. -/
def Returns : Request → String → Prop
  | .returned o, n => ∃ output shape, o.output = some output ∧ svc.Describes output.shape shape n
  | _, _ => False

variable (svc) in
/-- Some request took the dictionary of the name `n` as what an operation
returns. -/
def Returned (rs : List Request) (n : String) : Prop :=
  ∃ r ∈ rs, svc.Returns r n

variable {returned : String → Prop}

/-- A dictionary that is the type of a shape is the one of the name that the shape
gives. -/
theorem Consistent.find?_of_makes (h : svc.Consistent returned t) {position : Position}
    {name : String} {m : SessionM TypeExpr} {ref : DictRef}
    (hm : svc.Makes position s m (svc.shapeForm position name)) (hval : m.val s = .dict ref)
    (hstate : m.state s = t) :
    t.shapes.find? (dictName name) = some ref ∧
      ∃ shape, svc.Describes name shape (dictName name) := by
  have hform : svc.shapeForm position name = .dict ⟨0, ref.name⟩ := by
    rw [← hm.form, hval, TypeExpr.skeleton_dict]
  obtain ⟨hname, hshape⟩ := shapeForm_eq_dict_iff.mp hform
  have hname : ref.name = dictName name := congrArg DictRef.name hname
  have hhas : t.Has ref := by simpa [hval, hstate] using hm.known
  refine ⟨?_, hshape⟩
  rw [← hname]
  rcases hhas with hfind | hfind
  · exact hfind
  · obtain ⟨d, hd, -⟩ := h.fixed _ _ hfind
    have hreserved : isReserved (dictName name) := isReserved_iff.mpr ⟨d, hd.trans hname⟩
    simp [isReserved_dictName] at hreserved

/-- What is no dictionary of an operation's result leaves the account of results
as it is. -/
theorem Consistent.of_not_returns (h : svc.Consistent returned s) {r : Request}
    (hno : ∀ n, ¬ svc.Returns r n) :
    svc.Consistent (fun n => returned n ∨ svc.Returns r n) s := by
  simpa [hno] using h

/-- An operation returns the dictionary that its output names, if the output is a
record with members. -/
theorem returns_returned_iff {o : Schema.Operation} {output : Schema.ShapeRef} {n : String}
    (houtput : o.output = some output) :
    svc.Returns (.returned o) n ↔ ∃ shape, svc.Describes output.shape shape n := by
  simp [Returns, houtput]

/-- **The result of an operation keeps the invariant.** -/
theorem Consistent.returnType (h : svc.Consistent returned s) (o : Schema.Operation) :
    svc.Consistent (fun n => returned n ∨ svc.Returns (.returned o) n)
      ((svc.returnType o).state s) := by
  cases houtput : o.output with
  | none =>
      rw [(returnType_of_none svc houtput s).2]
      exact h.of_not_returns fun n hn => by simp [Returns, houtput] at hn
  | some output =>
      have hmakes := shapeType_spec svc h.valid .output output.shape
      have hcons := h.extend hmakes.ext
      obtain ⟨-, ⟨ref, hval, hstate⟩ | ⟨hval, hstate⟩⟩ := returnType_of_some svc houtput s
      · obtain ⟨hfind, shape, hshape⟩ := hcons.find?_of_makes hmakes hval rfl
        have hreturns : ∀ n, svc.Returns (.returned o) n ↔ n = dictName output.shape := by
          intro n
          rw [returns_returned_iff houtput]
          constructor
          · exact fun ⟨_, hshape'⟩ => hshape'.name.symm
          · rintro rfl
            exact ⟨shape, hshape⟩
        rw [hstate]
        simpa only [hreturns] using hcons.addMetadata hfind
      · rw [hstate]
        refine hcons.of_not_returns fun n hn => ?_
        obtain ⟨shape, hshape⟩ := (returns_returned_iff houtput).mp hn
        obtain ⟨ref, href⟩ := TypeExpr.exists_of_skeleton_eq_dict
          (hmakes.form.trans (shapeForm_eq_dict_iff.mpr
            ⟨rfl, shape, hshape.declared, hshape.record, hshape.nonempty, rfl⟩))
        exact hval ref href

/-- **Every request keeps the invariant.** -/
theorem Consistent.perform (h : svc.Consistent returned s) (r : Request) :
    svc.Consistent (fun n => returned n ∨ svc.Returns r n) (svc.perform s r) := by
  cases r with
  | shape position name =>
      have hext := (shapeType_spec svc h.valid position name).ext
      exact (h.extend hext).of_not_returns fun _ => id
  | fixed d => exact (h.fixedDict d).of_not_returns fun _ => id
  | returned o => exact h.returnType o

/-- **Requests keep the invariant.** -/
theorem Consistent.performAll (h : svc.Consistent returned s) (rs : List Request) :
    svc.Consistent (fun n => returned n ∨ svc.Returned rs n) (svc.performAll s rs) := by
  induction rs generalizing s returned with
  | nil => simpa [Returned, Service.performAll] using h
  | cons r rs ih => simpa [Returned, Service.performAll, or_assoc] using ih (h.perform r)

/-- The invariant holds after any requests to a new session. -/
theorem consistent_performAll (svc : Service) (rs : List Request) :
    svc.Consistent (svc.Returned rs) (svc.performAll {} rs) := by
  simpa using Consistent.empty.performAll rs

end ServiceStubs.Service
