import ServiceStubs.Proofs.Session.Translation

/-!
# Requests to a session

Whatever is made of a schema, its session is asked for three things only: the
type of a shape, a dictionary that every service has, and the type that an
operation returns.  A session that answers such requests grows: it gives up no
dictionary, and no field of one.

## Main definitions

* `Session.Grows` — nothing is given up.
* `Session.Request`, `Service.perform` — the requests, and the session after one.
* `Service.Leads` — some requests lead from one session to another.
* `Service.Leads.grows` — sessions grow.
-/

namespace ServiceStubs

variable {s t u : Session}

/-! ## Growth -/

/-- The session `t` has all that `s` has: every name has the dictionary that it
had, under its name and with its docstring, and new fields come after the
others. -/
structure Session.Grows (s t : Session) : Prop where
  size_le : s.store.dicts.size ≤ t.store.dicts.size
  shapes : ∀ n r, s.shapes.find? n = some r → t.shapes.find? n = some r
  fixed : ∀ n r, s.fixed.find? n = some r → t.fixed.find? n = some r
  name : ∀ r, s.store.InUse r → (t.store.get r).name = (s.store.get r).name
  docstring : ∀ r, s.store.InUse r → (t.store.get r).docstring = (s.store.get r).docstring
  fields : ∀ r, s.store.InUse r → (s.store.get r).fields <+: (t.store.get r).fields

namespace Session.Grows

theorem refl (s : Session) : s.Grows s where
  size_le := Nat.le_refl _
  shapes _ _ h := h
  fixed _ _ h := h
  name _ _ := rfl
  docstring _ _ := rfl
  fields _ _ := List.prefix_refl _

theorem inUse (h : s.Grows t) {r : DictRef} (hr : s.store.InUse r) : t.store.InUse r :=
  Nat.lt_of_lt_of_le hr h.size_le

theorem has (h : s.Grows t) {r : DictRef} (hr : s.Has r) : t.Has r :=
  hr.imp (h.shapes _ _) (h.fixed _ _)

theorem trans (h : s.Grows t) (h' : t.Grows u) : s.Grows u where
  size_le := Nat.le_trans h.size_le h'.size_le
  shapes n r hr := h'.shapes n r (h.shapes n r hr)
  fixed n r hr := h'.fixed n r (h.fixed n r hr)
  name r hr := (h'.name r (h.inUse hr)).trans (h.name r hr)
  docstring r hr := (h'.docstring r (h.inUse hr)).trans (h.docstring r hr)
  fields r hr := (h.fields r hr).trans (h'.fields r (h.inUse hr))

/-- Sessions grow when dictionaries stay as they are. -/
theorem of_kept (hsize : s.store.dicts.size ≤ t.store.dicts.size)
    (hshapes : ∀ n r, s.shapes.find? n = some r → t.shapes.find? n = some r)
    (hfixed : ∀ n r, s.fixed.find? n = some r → t.fixed.find? n = some r)
    (hkept : ∀ r, s.store.InUse r → t.store.get r = s.store.get r) : s.Grows t where
  size_le := hsize
  shapes := hshapes
  fixed := hfixed
  name r hr := by rw [hkept r hr]
  docstring r hr := by rw [hkept r hr]
  fields r hr := ⟨[], by rw [List.append_nil, hkept r hr]⟩

theorem withFixed {d : FixedDict} (h : s.fixed.find? d.name = none) :
    s.Grows (s.withFixed d) := by
  refine .of_kept ?_ (fun _ _ h => h) ?_ fun r hr => Store.get_add_of_inUse hr d.dict
  · simp [Session.withFixed]
  · intro n r hr
    have hne : n ≠ d.name := by
      rintro rfl
      simp [h] at hr
    rw [find?_withFixed, if_neg hne, hr]

theorem withFields (s : Session) {ref : DictRef} (href : s.store.InUse ref) (fs : List Field) :
    s.Grows (s.withFields ref fs) := by
  have hget : ∀ r, s.store.InUse r → (s.withFields ref fs).store.get r = s.store.get r ∨
      (s.withFields ref fs).store.get r =
        { s.store.get r with fields := (s.store.get r).fields ++ fs } := by
    intro r hr
    rw [store_withFields]
    by_cases hid : r.id = ref.id
    · rw [Store.get_congr (by simpa using href) hid, Store.get_addFields href,
        Store.get_congr href hid]
      exact .inr rfl
    · exact .inl (Store.get_addFields_of_ne hid fs)
  refine ⟨by simp, fun _ _ h => h, fun _ _ h => h, ?_, ?_, ?_⟩
  · intro r hr
    rcases hget r hr with h | h <;> rw [h]
  · intro r hr
    rcases hget r hr with h | h <;> rw [h]
  · intro r hr
    rcases hget r hr with h | h
    · exact ⟨[], by rw [List.append_nil, h]⟩
    · exact ⟨fs, by rw [h]⟩

end Session.Grows

namespace Service

variable {svc : Service}

theorem Extends.grows {position : Position} (h : svc.Extends position s t) : s.Grows t :=
  .of_kept h.size_le h.shapes (fun _ _ hr => h.fixed ▸ hr) h.kept

end Service

/-! ## Dictionaries that every service has -/

/-- A dictionary that every service has is there after it was asked for, and at
most this one is new. -/
theorem Session.fixedDict_spec (d : FixedDict) (s : Session) :
    ∃ ref, (fixedDict d).val s = .dict ref ∧
      ((s.fixed.find? d.name = some ref ∧ (fixedDict d).state s = s) ∨
        (s.fixed.find? d.name = none ∧ ref = ⟨s.store.dicts.size, d.name⟩ ∧
          (fixedDict d).state s = s.withFixed d)) := by
  cases h : s.fixed.find? d.name with
  | some ref => exact ⟨ref, (fixedDict_of_some h).1, .inl ⟨rfl, (fixedDict_of_some h).2⟩⟩
  | none => exact ⟨_, (fixedDict_of_none h).1, .inr ⟨rfl, rfl, (fixedDict_of_none h).2⟩⟩

/-- The dictionary that was asked for is entered. -/
theorem Session.find?_fixedDict (d : FixedDict) (s : Session) :
    ∃ ref, (fixedDict d).val s = .dict ref ∧
      ((fixedDict d).state s).fixed.find? d.name = some ref := by
  obtain ⟨ref, hval, ⟨hfind, hstate⟩ | ⟨-, rfl, hstate⟩⟩ := fixedDict_spec d s
  · exact ⟨ref, hval, by rw [hstate, hfind]⟩
  · exact ⟨_, hval, by rw [hstate, find?_withFixed, if_pos rfl]⟩

theorem Session.grows_fixedDict (d : FixedDict) (s : Session) :
    s.Grows ((fixedDict d).state s) := by
  obtain ⟨ref, -, ⟨-, hstate⟩ | ⟨hfind, -, hstate⟩⟩ := fixedDict_spec d s <;> rw [hstate]
  · exact .refl s
  · exact .withFixed hfind

/-- The other dictionaries stay as they are. -/
theorem Session.get_fixedDict (d : FixedDict) {r : DictRef} (hr : s.store.InUse r) :
    ((fixedDict d).state s).store.get r = s.store.get r := by
  obtain ⟨ref, -, ⟨-, hstate⟩ | ⟨-, -, hstate⟩⟩ := fixedDict_spec d s <;> rw [hstate]
  exact Store.get_add_of_inUse hr d.dict

theorem Session.Valid.fixedDict (h : s.Valid) (d : FixedDict) :
    ((Session.fixedDict d).state s).Valid := by
  obtain ⟨ref, -, ⟨-, hstate⟩ | ⟨-, -, hstate⟩⟩ := fixedDict_spec d s <;> rw [hstate]
  · exact h
  · exact h.withFixed d

namespace Service

variable {svc : Service}

/-! ## What operations return -/

/-- The field that every response gets, whose dictionary has the handle `ref`. -/
def responseField (ref : DictRef) : Field :=
  ⟨metadataField, .dict ref, true⟩

/-- A dictionary that has the field already stays as it is. -/
theorem state_addMetadata_of_hasField {ref : DictRef}
    (h : (s.store.get ref).hasField metadataField = true) : (addMetadata ref).state s = s := by
  simp [addMetadata, h]

/-- Otherwise the field comes last. -/
theorem state_addMetadata {ref : DictRef}
    (h : (s.store.get ref).hasField metadataField = false) :
    ∃ metadata, ((Session.fixedDict .responseMetadata).state s).fixed.find?
        FixedDict.responseMetadata.name = some metadata ∧
      (addMetadata ref).state s =
        ((Session.fixedDict .responseMetadata).state s).withFields ref [responseField metadata] := by
  obtain ⟨metadata, hval, hfind⟩ := Session.find?_fixedDict .responseMetadata s
  refine ⟨metadata, hfind, ?_⟩
  simp [addMetadata, h, hval, responseField]

theorem grows_addMetadata {ref : DictRef} (hs : s.store.InUse ref) :
    s.Grows ((addMetadata ref).state s) := by
  cases h : (s.store.get ref).hasField metadataField with
  | true => rw [state_addMetadata_of_hasField h]; exact .refl s
  | false =>
      obtain ⟨metadata, -, hstate⟩ := state_addMetadata h
      have hgrows := Session.grows_fixedDict .responseMetadata s
      rw [hstate]
      exact hgrows.trans (.withFields _ (hgrows.inUse hs) _)

theorem valid_addMetadata {ref : DictRef} (hs : s.Valid) : ((addMetadata ref).state s).Valid := by
  cases h : (s.store.get ref).hasField metadataField with
  | true => rwa [state_addMetadata_of_hasField h]
  | false =>
      obtain ⟨metadata, -, hstate⟩ := state_addMetadata h
      rw [hstate, Session.valid_withFields]
      exact hs.fixedDict _

theorem returnType_of_none (svc : Service) {o : Schema.Operation} (h : o.output = none) (s : Session) :
    (svc.returnType o).val s = .looseDict ∧ (svc.returnType o).state s = s := by
  simp [returnType, h]

/-- What an operation returns is the type of its output, which gets the field of
responses when it is a dictionary. -/
theorem returnType_of_some (svc : Service) {o : Schema.Operation} {output : Schema.ShapeRef}
    (h : o.output = some output) (s : Session) :
    (svc.returnType o).val s = (svc.shapeType .output output.shape).val s ∧
      ((∃ ref, (svc.shapeType .output output.shape).val s = .dict ref ∧
          (svc.returnType o).state s =
            (addMetadata ref).state ((svc.shapeType .output output.shape).state s)) ∨
        ((∀ ref, (svc.shapeType .output output.shape).val s ≠ .dict ref) ∧
          (svc.returnType o).state s = (svc.shapeType .output output.shape).state s)) := by
  cases htype : (svc.shapeType .output output.shape).val s with
  | dict ref =>
      refine ⟨?_, .inl ⟨ref, rfl, ?_⟩⟩ <;> simp [returnType, h, htype]
  | _ =>
      refine ⟨?_, .inr ⟨fun _ => nofun, ?_⟩⟩ <;> simp [returnType, h, htype]

/-! ## Requests -/

end Service

/-- What a session may be asked for. -/
inductive Session.Request
  /-- The type of a shape. -/
  | shape (position : Position) (name : String)
  /-- A dictionary that every service has. -/
  | fixed (d : FixedDict)
  /-- The type that an operation returns. -/
  | returned (o : Schema.Operation)

namespace Service

open Session (Request)

variable (svc : Service)

/-- The session after a request. -/
def perform (s : Session) : Request → Session
  | .shape position name => (svc.shapeType position name).state s
  | .fixed d => (Session.fixedDict d).state s
  | .returned o => (svc.returnType o).state s

/-- The session after some requests, one after the other. -/
def performAll (s : Session) (rs : List Request) : Session :=
  rs.foldl svc.perform s

/-- Some requests lead from one session to the other. -/
def Leads (s t : Session) : Prop :=
  ∃ rs, svc.performAll s rs = t

variable {svc}

theorem performAll_append (s : Session) (rs rs' : List Request) :
    svc.performAll s (rs ++ rs') = svc.performAll (svc.performAll s rs) rs' :=
  List.foldl_append

theorem Leads.refl (s : Session) : svc.Leads s s :=
  ⟨[], rfl⟩

theorem Leads.trans (h : svc.Leads s t) (h' : svc.Leads t u) : svc.Leads s u := by
  obtain ⟨rs, rfl⟩ := h
  obtain ⟨rs', rfl⟩ := h'
  exact ⟨rs ++ rs', performAll_append s rs rs'⟩

/-- One request keeps a session valid and gives nothing up. -/
theorem perform_spec (svc : Service) (hs : s.Valid) (r : Request) :
    (svc.perform s r).Valid ∧ s.Grows (svc.perform s r) := by
  cases r with
  | shape position name =>
      have h := shapeType_spec svc hs position name
      exact ⟨h.ext.valid hs, h.ext.grows⟩
  | fixed d => exact ⟨hs.fixedDict d, Session.grows_fixedDict d s⟩
  | returned o =>
      simp only [perform]
      cases houtput : o.output with
      | none =>
          rw [(returnType_of_none svc houtput s).2]
          exact ⟨hs, .refl s⟩
      | some output =>
          have h := shapeType_spec svc hs .output output.shape
          obtain ⟨-, ⟨ref, hval, hstate⟩ | ⟨-, hstate⟩⟩ := returnType_of_some svc houtput s
          · have hhas : ((svc.shapeType .output output.shape).state s).Has ref := by
              simpa [hval] using h.known
            have hvalid := h.ext.valid hs
            rw [hstate]
            exact ⟨valid_addMetadata hvalid,
              h.ext.grows.trans (grows_addMetadata (hvalid.inUse hhas))⟩
          · rw [hstate]
            exact ⟨h.ext.valid hs, h.ext.grows⟩

/-- **Requests keep a session valid and give nothing up.** -/
theorem performAll_spec (svc : Service) (hs : s.Valid) (rs : List Request) :
    (svc.performAll s rs).Valid ∧ s.Grows (svc.performAll s rs) := by
  induction rs generalizing s with
  | nil => exact ⟨hs, .refl s⟩
  | cons r rs ih =>
      obtain ⟨hvalid, hgrows⟩ := perform_spec svc hs r
      exact ⟨(ih hvalid).1, hgrows.trans (ih hvalid).2⟩

theorem Leads.valid (h : svc.Leads s t) (hs : s.Valid) : t.Valid := by
  obtain ⟨rs, rfl⟩ := h
  exact (performAll_spec svc hs rs).1

theorem Leads.grows (h : svc.Leads s t) (hs : s.Valid) : s.Grows t := by
  obtain ⟨rs, rfl⟩ := h
  exact (performAll_spec svc hs rs).2

end Service

end ServiceStubs
