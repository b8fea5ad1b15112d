import ServiceStubs.Proofs.Declaration.Typed
import ServiceStubs.Proofs.Import.Group
import ServiceStubs.Proofs.Session.Invariant
import ServiceStubs.Proofs.TypeExpr.Closure

/-!
# Dictionaries are told apart by their names

The names of dictionaries have an ending of their own.  No built-in type, no type
with parameters, no class that stubs use by themselves and no class of an entity
is written with that ending, so a dictionary can be taken for another type only
where a resource or a class of the documentation is called like it.  When there is
no such resource or class, the dictionaries of a session are closed under what
their fields refer to, and each is the only type that is written like it.

## Main definitions

* `lastChar` — the last character of a text.
* `Service.Distinct` — no resource and no documented class is called like a
  dictionary.
* `Service.Consistent.closed` — the dictionaries of a session are closed.
* `Service.Typed.among` — what is annotated refers to them only.
-/

namespace ServiceStubs

/-! ## Endings -/

/-- The last character of a text. -/
def lastChar (s : String) : Option Char :=
  s.toList.getLast?

theorem ne_empty_of_lastChar {s : String} {c : Char} (h : lastChar s = some c) : s ≠ "" := by
  rintro rfl
  nomatch h

theorem lastChar_append {t : String} (s : String) (ht : t ≠ "") :
    lastChar (s ++ t) = lastChar t := by
  have hne : t.toList ≠ [] := fun h => ht (String.toList_eq_nil_iff.mp h)
  rw [lastChar, String.toList_append, List.getLast?_append_of_ne_nil _ hne, lastChar]

/-- Shapes give their dictionaries names with the ending of dictionaries. -/
theorem lastChar_dictName (shape : String) : lastChar (dictName shape) = some 'f' := by
  unfold dictName
  split <;> rw [lastChar_append _ (by decide)] <;> rfl

theorem FixedDict.lastChar_name (d : FixedDict) : lastChar d.name = some 'f' := by
  cases d <;> decide

theorem lastChar_text_scalar (c : Scalar) : lastChar c.text ≠ some 'f' := by
  cases c <;> decide

theorem lastChar_text_literal (values : List String) :
    lastChar (TypeExpr.literal values).text = some ']' := by
  rw [TypeExpr.text, lastChar_append _ (by decide)]
  rfl

theorem lastChar_text_subscript (g : Generic) (args : List TypeExpr) :
    lastChar (TypeExpr.subscript g args).text ≠ some 'f' := by
  rw [TypeExpr.text]
  split
  · cases g <;> decide
  · rw [lastChar_append _ (by decide)]
    decide

theorem lastChar_libraryNames : ∀ e ∈ libraryNames, lastChar e.2 ≠ some 'f' := by
  decide

namespace Service

variable {svc : Service} {s : Session} {returned : String → Prop} {r r' : DictRef}
  {t : TypeExpr} {own : List TypeExpr}

/-! ## Names of dictionaries -/

theorem Consistent.lastChar_name (h : svc.Consistent returned s) (hr : s.Has r) :
    lastChar r.name = some 'f' := by
  rcases hr with hr | hr
  · obtain ⟨shapeName, shape, -, -, -, hshape, -⟩ := h.shapes _ r hr
    rw [← hshape.name]
    exact lastChar_dictName shapeName
  · obtain ⟨d, hd, -⟩ := h.fixed _ r hr
    rw [← hd]
    exact d.lastChar_name

/-- A dictionary carries the name of its handle. -/
theorem Consistent.get_name (h : svc.Consistent returned s) (hr : s.Has r) :
    (s.store.get r).name = r.name := by
  rcases hr with hr | hr
  · obtain ⟨shapeName, shape, -, -, -, -, hname, -⟩ := h.shapes _ r hr
    exact hname
  · obtain ⟨d, hd, hget⟩ := h.fixed _ r hr
    rw [hget]
    exact hd

/-- **No two dictionaries have one name.** -/
theorem Consistent.eq_of_name (h : svc.Consistent returned s) (hr : s.Has r) (hr' : s.Has r')
    (hname : r.name = r'.name) : r = r' := by
  have hapart : ∀ {a b : DictRef}, s.shapes.find? a.name = some a →
      s.fixed.find? b.name = some b → a.name ≠ b.name := by
    intro a b ha hb hab
    obtain ⟨d, hd, -⟩ := h.fixed _ b hb
    have hreserved : isReserved a.name := isReserved_iff.mpr ⟨d, hd.trans hab.symm⟩
    simp [h.not_reserved ha] at hreserved
  rcases hr with hr | hr <;> rcases hr' with hr' | hr'
  · exact Option.some.inj (hr.symm.trans (hname ▸ hr'))
  · exact absurd hname (hapart hr hr')
  · exact absurd hname.symm (hapart hr' hr)
  · exact Option.some.inj (hr.symm.trans (hname ▸ hr'))

/-- **The fields of dictionaries have known types.** -/
theorem Consistent.known_field (h : svc.Consistent returned s) (hr : s.Has r) {f : Field}
    (hf : f ∈ (s.store.get r).fields) : svc.Known s f.type := by
  rcases hr with hr | hr
  · obtain ⟨shapeName, shape, position, fields, extra, -, -, -, hfields, hown, hextra⟩ :=
      h.shapes _ r hr
    rw [hfields, List.mem_append] at hf
    rcases hf with hf | hf
    · obtain ⟨member, -, hfield⟩ := exists_of_mem_forall₂ hown hf
      exact hfield.known
    · rcases hextra with ⟨-, metadata, hmetadata, rfl⟩ | ⟨-, rfl⟩
      · rw [List.mem_singleton.mp hf]
        exact (known_dict metadata).mpr (h.valid.has_fixed hmetadata)
      · nomatch hf
  · obtain ⟨d, -, hget⟩ := h.fixed _ r hr
    rw [hget] at hf
    have hplain : ∀ f ∈ d.fields, svc.Known s f.type := by
      cases d <;> simp [FixedDict.fields]
    exact hplain f hf

/-- What is reached from known heads is known. -/
theorem Consistent.knownHead_of_reaches (h : svc.Consistent returned s) {a b : TypeExpr}
    (ha : svc.KnownHead s a) (hab : s.store.Reaches a b) : svc.KnownHead s b := by
  induction hab with
  | refl => exact ha
  | @tail c b _ hfield ih =>
      cases c with
      | dict r =>
          obtain ⟨f, hf, hb⟩ := List.mem_flatMap.mp hfield
          exact h.known_field ih hf b hb
      | _ => nomatch hfield

/-! ## Distinct names -/

variable (svc) in
/-- No resource, and no class that the documentation names, is called like a
dictionary of the session. -/
structure Distinct (s : Session) : Prop where
  resources : ∀ r, s.Has r → r.name ∉ svc.resourceNames
  hints : ∀ r, s.Has r → ∀ source, ¬ svc.schema.Names source r.name

/-- What is written with another ending is no dictionary. -/
theorem Consistent.among_of_lastChar (h : svc.Consistent returned s) (hnot : ∀ r, t ≠ .dict r)
    (hlast : lastChar t.text ≠ some 'f') : t.Among s.Has := by
  refine .inr ⟨hnot, fun r hr htext => hlast ?_⟩
  rw [htext, h.lastChar_name hr]

theorem KnownHead.among (hknown : svc.KnownHead s t) (h : svc.Consistent returned s)
    (hdistinct : svc.Distinct s) : t.Among s.Has := by
  cases t with
  | scalar c => exact h.among_of_lastChar nofun (lastChar_text_scalar c)
  | literal values =>
      exact h.among_of_lastChar nofun (by rw [lastChar_text_literal]; decide)
  | subscript g args => exact h.among_of_lastChar nofun (lastChar_text_subscript g args)
  | dict r => exact .inl ⟨r, hknown, rfl⟩
  | external source name asName =>
      obtain ⟨rfl, hlibrary | hnames⟩ := hknown
      · exact h.among_of_lastChar nofun (lastChar_libraryNames _ hlibrary)
      · refine .inr ⟨nofun, fun r hr htext => hdistinct.hints r hr source.path ?_⟩
        rwa [← show name = r.name from htext]
  | internal name module =>
      refine .inr ⟨nofun, fun r hr htext => hdistinct.resources r hr ?_⟩
      rw [← show name = r.name from htext]
      exact hknown.2

theorem KnownHead.unaliased (hknown : svc.KnownHead s t) : t.headImport.asName = none := by
  cases t with
  | scalar c => cases c <;> rfl
  | external source name asName => exact hknown.1
  | internal name module => cases module <;> rfl
  | _ => rfl

/-- **The dictionaries of a session are closed.** -/
theorem Consistent.closed (h : svc.Consistent returned s) (hdistinct : svc.Distinct s) :
    s.store.Closed s.Has where
  inUse _ hr := h.valid.inUse hr
  name _ hr := h.get_name hr
  injective _ _ hr hr' hname := h.eq_of_name hr hr' hname
  fields r hr t ht := by
    obtain ⟨f, hf, ht⟩ := List.mem_flatMap.mp ht
    exact (h.known_field hr hf t ht).among h hdistinct

/-! ## Annotations -/

/-- The expression is a class of the package, whose name has an ending other than
that of dictionaries. -/
def IsClass (a : TypeExpr) : Prop :=
  ∃ name module c, a = .internal name module ∧ lastChar name = some c ∧ c ≠ 'f' ∧
    ∀ m, module = some m → m.isRelative

theorem isClass_append {ending : String} {module : Option ModulePath} {c : Char}
    (hlast : lastChar ending = some c) (hc : c ≠ 'f')
    (hmodule : ∀ m, module = some m → m.isRelative) (stem : String) :
    IsClass (.internal (stem ++ ending) module) :=
  ⟨_, _, c, rfl, (lastChar_append _ (ne_empty_of_lastChar hlast)).trans hlast, hc, hmodule⟩

theorem IsClass.mem_nodes {a : TypeExpr} (ha : IsClass a) (ht : t ∈ a.nodes) : t = a := by
  obtain ⟨name, module, c, rfl, -⟩ := ha
  exact List.mem_singleton.mp ht

/-- Every part of an annotation is known, or one of the package's own classes. -/
theorem Typed.head {α : Type} [Annotated α] {x : α} (hx : svc.Typed s own x)
    (hown : ∀ a ∈ own, IsClass a) {a : TypeExpr} (ha : a ∈ Annotated.annotations x)
    (ht : t ∈ a.nodes) : t ∈ own ∨ svc.KnownHead s t := by
  rcases hx a ha with hmem | hknown
  · rw [(hown a hmem).mem_nodes ht]
    exact .inl hmem
  · exact .inr (hknown t ht)

/-- What is annotated has no aliases. -/
theorem Typed.unaliased {α : Type} [Annotated α] {x : α} (hx : svc.Typed s own x)
    (hown : ∀ a ∈ own, IsClass a) : ∀ a ∈ Annotated.annotations x, a.Unaliased := by
  intro a ha t ht
  rcases hx.head hown ha ht with hmem | hknown
  · obtain ⟨name, module, c, rfl, -⟩ := hown t hmem
    cases module <;> rfl
  · exact hknown.unaliased

/-- **What is annotated refers to dictionaries of the session only.** -/
theorem Typed.among {α : Type} [Annotated α] {x : α} (hx : svc.Typed s own x)
    (hown : ∀ a ∈ own, IsClass a) (h : svc.Consistent returned s) (hdistinct : svc.Distinct s) :
    ∀ a ∈ Annotated.annotations x, ∀ t ∈ a.nodes, t.Among s.Has := by
  intro a ha t ht
  rcases hx.head hown ha ht with hmem | hknown
  · obtain ⟨name, module, c, rfl, hlast, hc, -⟩ := hown t hmem
    refine h.among_of_lastChar nofun ?_
    rw [show lastChar (TypeExpr.internal name module).text = some c from hlast]
    simpa using hc
  · exact hknown.among h hdistinct

end Service

end ServiceStubs
