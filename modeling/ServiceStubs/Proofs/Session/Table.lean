import ServiceStubs.Proofs.Collection.OrderedMap
import ServiceStubs.Proofs.Session.Execution
import ServiceStubs.Proofs.TypeExpr.Store
import ServiceStubs.Session.ShapeType

/-!
# Tables of dictionaries

A table only grows: a name that has a dictionary keeps it.  A dictionary that is
made takes the next number of the store and is entered under its own name, so in
every session that arises dictionaries stand under their own names and have
numbers of their own.

## Main definitions

* `Session.opened`, `Session.withFixed` — a session with one more dictionary.
* `Session.val_openDict`, `Session.state_openDict` — a shape's new dictionary.
* `Session.fixedDict_of_some`, `Session.fixedDict_of_none` — a dictionary that every service
  has, when it is there already and when it is not.
* `Session.Has`, `Session.Valid` — the entered dictionaries, and what holds of
  them in every session that arises.
-/

namespace ServiceStubs

/-! ## Entering -/

namespace DictTable

variable {t : DictTable} {ref : DictRef}

@[simp] theorem find?_empty (n : String) : (∅ : DictTable).find? n = none := rfl

theorem enter_of_none (h : t.find? ref.name = none) :
    t.enter ref = (ref, ⟨t.refs.insert ref.name ref⟩) := by
  simp [enter, h]

/-- A dictionary whose name is free is entered under its own name. -/
theorem find?_insert (t : DictTable) (ref : DictRef) (n : String) :
    (⟨t.refs.insert ref.name ref⟩ : DictTable).find? n =
      if n = ref.name then some ref else t.find? n :=
  OrderedMap.get?_insert t.refs ref.name n ref

end DictTable

/-! ## New dictionaries of a session -/

namespace Session

/-- A session with one more dictionary, entered in the table of shapes. -/
def opened (s : Session) (d : TypedDict) : Session :=
  { s with
    store := (s.store.add d).2
    shapes := ⟨s.shapes.refs.insert d.name (s.store.add d).1⟩ }

/-- A session with one more dictionary, entered in the table of those that every
service has. -/
def withFixed (s : Session) (d : FixedDict) : Session :=
  { s with
    store := (s.store.add d.dict).2
    fixed := ⟨s.fixed.refs.insert d.name (s.store.add d.dict).1⟩ }

variable {s : Session} {name : String} {docstring : Option String}

theorem val_openDict (h : s.shapes.find? name = none) :
    (openDict name docstring).val s = ⟨s.store.dicts.size, name⟩ := by
  have hnone : s.shapes.find? (s.store.add { name, docstring }).1.name = none := h
  simp only [openDict, SessionM.val_modifyGet, DictTable.enter_of_none hnone]
  rfl

theorem state_openDict (h : s.shapes.find? name = none) :
    (openDict name docstring).state s = s.opened { name, docstring } := by
  have hnone : s.shapes.find? (s.store.add { name, docstring }).1.name = none := h
  simp only [openDict, SessionM.state_modifyGet, DictTable.enter_of_none hnone]
  rfl

theorem find?_opened (s : Session) (d : TypedDict) (n : String) :
    (s.opened d).shapes.find? n =
      if n = d.name then some ⟨s.store.dicts.size, d.name⟩ else s.shapes.find? n :=
  DictTable.find?_insert s.shapes ⟨s.store.dicts.size, d.name⟩ n

/-- A new dictionary takes no name away. -/
theorem find?_opened_of_some {d : TypedDict} {n : String} {r : DictRef}
    (hnone : s.shapes.find? d.name = none) (hr : s.shapes.find? n = some r) :
    (s.opened d).shapes.find? n = some r := by
  have hne : n ≠ d.name := by
    rintro rfl
    simp [hnone] at hr
  rw [find?_opened, if_neg hne, hr]

theorem find?_withFixed (s : Session) (d : FixedDict) (n : String) :
    (s.withFixed d).fixed.find? n =
      if n = d.name then some ⟨s.store.dicts.size, d.name⟩ else s.fixed.find? n :=
  DictTable.find?_insert s.fixed ⟨s.store.dicts.size, d.name⟩ n

/-- A dictionary that is there already is not made again. -/
theorem fixedDict_of_some {d : FixedDict} {ref : DictRef} (h : s.fixed.find? d.name = some ref) :
    (fixedDict d).val s = .dict ref ∧ (fixedDict d).state s = s := by
  simp [fixedDict, DictTable.fixed, DictTable.findOrMake, h]

theorem fixedDict_of_none {d : FixedDict} (h : s.fixed.find? d.name = none) :
    (fixedDict d).val s = .dict ⟨s.store.dicts.size, d.name⟩ ∧
      (fixedDict d).state s = s.withFixed d := by
  have hnone : s.fixed.find? (s.store.add d.dict).1.name = none := h
  simp only [fixedDict, DictTable.fixed, DictTable.findOrMake, h, SessionM.val_modifyGet,
    SessionM.state_modifyGet, DictTable.enter_of_none hnone]
  exact ⟨rfl, rfl⟩

/-- A session in which a dictionary has some more fields. -/
def withFields (s : Session) (ref : DictRef) (fs : List Field) : Session :=
  { s with store := s.store.addFields ref fs }

@[simp] theorem shapes_withFields (s : Session) (ref : DictRef) (fs : List Field) :
    (s.withFields ref fs).shapes = s.shapes := rfl
@[simp] theorem store_withFields (s : Session) (ref : DictRef) (fs : List Field) :
    (s.withFields ref fs).store = s.store.addFields ref fs := rfl

@[simp] theorem state_addField (ref : DictRef) (f : Field) (s : Session) :
    (addField ref f).state s = s.withFields ref [f] := rfl

/-! ## Valid sessions -/

/-- The dictionary is entered under its name. -/
def Has (s : Session) (ref : DictRef) : Prop :=
  s.shapes.find? ref.name = some ref ∨ s.fixed.find? ref.name = some ref

/-- Dictionaries stand under their own names, are in the store, and have numbers
of their own. -/
structure Valid (s : Session) : Prop where
  shapes : ∀ n r, s.shapes.find? n = some r → r.name = n ∧ s.store.InUse r
  fixed : ∀ n r, s.fixed.find? n = some r → r.name = n ∧ s.store.InUse r
  injective : ∀ r r', s.Has r → s.Has r' → r.id = r'.id → r = r'

namespace Valid

/-- A new session has no dictionaries. -/
theorem empty : Valid {} where
  shapes _ _ h := nomatch h
  fixed _ _ h := nomatch h
  injective _ _ h := by rcases h with h | h <;> nomatch h

theorem has_shape (h : s.Valid) {n : String} {r : DictRef} (hr : s.shapes.find? n = some r) :
    s.Has r :=
  .inl ((h.shapes n r hr).1 ▸ hr)

theorem has_fixed (h : s.Valid) {n : String} {r : DictRef} (hr : s.fixed.find? n = some r) :
    s.Has r :=
  .inr ((h.fixed n r hr).1 ▸ hr)

theorem inUse (h : s.Valid) {r : DictRef} (hr : s.Has r) : s.store.InUse r := by
  rcases hr with hr | hr
  · exact (h.shapes _ r hr).2
  · exact (h.fixed _ r hr).2

end Valid

/-- A session that has one more dictionary, with the next number, is valid
again. -/
theorem Valid.of_add {t : Session} (h : s.Valid) {d : TypedDict}
    (hstore : t.store = (s.store.add d).2)
    (hshapes : ∀ n r, t.shapes.find? n = some r →
      s.shapes.find? n = some r ∨ (n = d.name ∧ r = (s.store.add d).1))
    (hfixed : ∀ n r, t.fixed.find? n = some r →
      s.fixed.find? n = some r ∨ (n = d.name ∧ r = (s.store.add d).1)) : t.Valid := by
  have hnew : t.store.InUse (s.store.add d).1 := hstore ▸ Store.inUse_add s.store d
  have hold : ∀ r, s.store.InUse r → t.store.InUse r := fun r hr => hstore ▸ hr.add d
  have hhas : ∀ r, t.Has r → s.Has r ∨ r = (s.store.add d).1 := by
    rintro r (hr | hr)
    · exact (hshapes _ r hr).imp .inl And.right
    · exact (hfixed _ r hr).imp .inr And.right
  refine ⟨?_, ?_, ?_⟩
  · intro n r hr
    rcases hshapes n r hr with hr | ⟨rfl, rfl⟩
    · exact ⟨(h.shapes n r hr).1, hold r (h.shapes n r hr).2⟩
    · exact ⟨rfl, hnew⟩
  · intro n r hr
    rcases hfixed n r hr with hr | ⟨rfl, rfl⟩
    · exact ⟨(h.fixed n r hr).1, hold r (h.fixed n r hr).2⟩
    · exact ⟨rfl, hnew⟩
  · intro r r' hr hr' hid
    rcases hhas r hr with hr | rfl <;> rcases hhas r' hr' with hr' | rfl
    · exact h.injective r r' hr hr' hid
    · exact absurd hid (Nat.ne_of_lt (h.inUse hr))
    · exact absurd hid.symm (Nat.ne_of_lt (h.inUse hr'))
    · rfl

theorem Valid.opened (h : s.Valid) (d : TypedDict) : (s.opened d).Valid := by
  refine h.of_add (d := d) rfl ?_ fun n r hr => .inl hr
  intro n r hr
  rw [find?_opened] at hr
  split at hr
  · next hn => exact .inr ⟨hn, (Option.some.inj hr).symm⟩
  · exact .inl hr

theorem Valid.withFixed (h : s.Valid) (d : FixedDict) : (s.withFixed d).Valid := by
  refine h.of_add (d := d.dict) rfl (fun n r hr => .inl hr) ?_
  intro n r hr
  rw [find?_withFixed] at hr
  split at hr
  · next hn => exact .inr ⟨hn, (Option.some.inj hr).symm⟩
  · exact .inl hr

/-- New fields concern neither names nor numbers. -/
@[simp] theorem valid_withFields {ref : DictRef} {fs : List Field} :
    (s.withFields ref fs).Valid ↔ s.Valid := by
  constructor
  · intro h
    exact ⟨fun n r hr => by simpa using h.shapes n r hr, fun n r hr => by
      simpa using h.fixed n r hr, h.injective⟩
  · intro h
    exact ⟨fun n r hr => by simpa using h.shapes n r hr, fun n r hr => by
      simpa using h.fixed n r hr, h.injective⟩

end Session

end ServiceStubs
