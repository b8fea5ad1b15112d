import Mathlib.Data.Set.Function
import ServiceStubs.Proofs.Session.Position
import ServiceStubs.Proofs.Session.Resolution

/-!
# The dictionaries that a translation enters

A translation looks no further than to a dictionary that is there.  It need not: of a
dictionary that is there, all that its members refer to is there as well once the
translation that entered it has come to an end.  So after a translation from such a
session the names are those of before and those of all records that references lead to.

## Main definitions

* `Service.Covered` — the dictionaries that a type itself consists of are entered.
* `Service.Closed` — the dictionaries that are entered refer to entered ones only.
* `Service.Collects` — what the translation of some shapes does to the names, with
  `Service.Resolves.collects`.
* `Service.Collects.mem_names_iff` — the names after a translation.
* `Service.closed_performAll` — requests enter all that is referred to.
-/

open Relation (ReflTransGen)

namespace ServiceStubs

/-! ## Names -/

theorem DictTable.mem_names_iff {t : DictTable} {n : String} :
    n ∈ t.names ↔ ∃ r, t.find? n = some r := by
  rw [names, List.mem_mergeSort, ← OrderedMap.isSome_get?_iff, Option.isSome_iff_exists]
  rfl

theorem Session.mem_names_opened {s : Session} {d : TypedDict} {n : String} :
    n ∈ (s.opened d).shapes.names ↔ n = d.name ∨ n ∈ s.shapes.names := by
  simp only [DictTable.mem_names_iff, find?_opened]
  by_cases h : n = d.name <;> simp [h]

namespace Service

variable {svc : Service} {position : Position} {name other n : String} {s t u : DictTable}
  {P Q : String → Prop}

/-! ## Types and their dictionaries -/

variable (svc) in
/-- The dictionaries that the type of the shape consists of are entered: that of the
shape, if it is a record, and those of its parts. -/
def Covered (t : DictTable) (name : String) : Prop :=
  ∀ part, ReflTransGen svc.model.HasPart name part → svc.model.HasFields part →
    dictName part ∈ t.names

theorem Covered.mono (h : svc.Covered s name) (hst : ∀ n ∈ s.names, n ∈ t.names) :
    svc.Covered t name :=
  fun part hpart hfields => hst _ (h part hpart hfields)

theorem Covered.of_hasPart (h : svc.Covered t name) (hpart : svc.model.HasPart name other) :
    svc.Covered t other :=
  fun part hrest => h part (.head hpart hrest)

/-- A shape that is no record is made of its parts. -/
theorem covered_of_parts (hno : ¬ svc.model.HasFields name)
    (h : ∀ part, svc.model.HasPart name part → svc.Covered t part) : svc.Covered t name := by
  intro part hpart hfields
  rcases hpart.cases_head with rfl | ⟨first, hfirst, hrest⟩
  · exact absurd hfields hno
  · exact h first hfirst part hrest hfields

/-- A record is made of its dictionary. -/
theorem covered_of_mem_names (hfields : svc.model.HasFields name) (h : dictName name ∈ t.names) :
    svc.Covered t name := by
  intro part hpart _
  rcases hpart.cases_head with rfl | ⟨first, hfirst, -⟩
  · exact h
  · exact absurd hfields hfirst.not_hasFields

variable (svc) in
/-- What the members of a dictionary refer to is entered when the dictionary is. -/
def Closed (t : DictTable) : Prop :=
  ∀ name other, svc.model.HasMember name other → dictName name ∈ t.names → svc.Covered t other

/-- **All that references lead to is entered.** -/
theorem Closed.covered (h : svc.Closed t) (hroot : svc.Covered t name)
    (hrefers : ReflTransGen svc.model.Refers name other) : svc.Covered t other := by
  induction hrefers with
  | refl => exact hroot
  | @tail mid last _ hlast ih =>
      rcases hlast with hpart | hmember
      · exact ih.of_hasPart hpart
      · exact h mid last hmember (ih mid .refl hmember.hasFields)

/-! ## What a translation enters -/

variable (svc) in
/-- The names of `t` are those of `s` with some more: only those of records that
references lead to from the roots, among them all that the types of the roots consist
of, and with each of the new ones all that its members refer to. -/
structure Collects (roots : String → Prop) (s t : DictTable) : Prop where
  kept : ∀ n ∈ s.names, n ∈ t.names
  origin : ∀ n ∈ t.names, n ∈ s.names ∨ ∃ root name, roots root ∧
    ReflTransGen svc.model.Refers root name ∧ svc.model.HasFields name ∧ dictName name = n
  covered : ∀ root, roots root → svc.Covered t root
  closed : ∀ name other, svc.model.HasMember name other → dictName name ∈ t.names →
    dictName name ∈ s.names ∨ svc.Covered t other

namespace Collects

theorem refl (hP : ∀ n, ¬ P n) (s : DictTable) : svc.Collects P s s where
  kept _ h := h
  origin _ h := .inl h
  covered root h := absurd h (hP root)
  closed _ _ _ h := .inl h

/-- The roots of two translations, one after the other. -/
theorem trans (h : svc.Collects P s t) (h' : svc.Collects Q t u) :
    svc.Collects (fun n => P n ∨ Q n) s u where
  kept n hn := h'.kept n (h.kept n hn)
  origin n hn := by
    rcases h'.origin n hn with hn | ⟨root, name, hroot, hname⟩
    · exact (h.origin n hn).imp id fun ⟨root, name, hroot, hname⟩ =>
        ⟨root, name, .inl hroot, hname⟩
    · exact .inr ⟨root, name, .inr hroot, hname⟩
  covered root hroot := hroot.elim (fun hP => (h.covered root hP).mono h'.kept) (h'.covered root)
  closed name other hmember hn := by
    rcases h'.closed name other hmember hn with hn | hcovered
    · exact (h.closed name other hmember hn).imp id fun hcovered => hcovered.mono h'.kept
    · exact .inr hcovered

theorem congr (h : svc.Collects P s t) (hPQ : ∀ n, P n ↔ Q n) : svc.Collects Q s t := by
  obtain rfl : P = Q := funext fun n => propext (hPQ n)
  exact h

/-- References lead to the parts of a shape. -/
theorem of_parts (h : svc.Collects (svc.model.HasPart name) s t)
    (hno : ¬ svc.model.HasFields name) : svc.Collects (· = name) s t where
  kept := h.kept
  origin n hn := by
    refine (h.origin n hn).imp id fun ⟨root, last, hroot, hlast, hrest⟩ => ?_
    exact ⟨name, last, rfl, .head (.inl hroot) hlast, hrest⟩
  covered := by
    rintro _ rfl
    exact covered_of_parts hno h.covered
  closed := h.closed

/-- Nothing is entered for a record whose dictionary is there. -/
theorem of_mem_names (hfields : svc.model.HasFields name) (h : dictName name ∈ s.names) :
    svc.Collects (· = name) s s where
  kept _ h := h
  origin _ h := .inl h
  covered := by
    rintro _ rfl
    exact covered_of_mem_names hfields h
  closed _ _ _ h := .inl h

/-- A new dictionary is entered, and then what its members refer to.  No other shape gives
its dictionary that name. -/
theorem of_opened {s : Session} {d : TypedDict} (hd : d.name = dictName name)
    (hnames : Set.InjOn dictName {n | svc.model.HasFields n})
    (hfields : svc.model.HasFields name)
    (h : svc.Collects (svc.model.HasMember name) (s.opened d).shapes t) :
    svc.Collects (· = name) s.shapes t where
  kept n hn := h.kept n (Session.mem_names_opened.mpr (.inr hn))
  origin n hn := by
    rcases h.origin n hn with hn | ⟨root, last, hroot, hlast, hrest⟩
    · rcases Session.mem_names_opened.mp hn with rfl | hn
      · exact .inr ⟨name, name, rfl, .refl, hfields, hd.symm⟩
      · exact .inl hn
    · exact .inr ⟨name, last, rfl, .head (.inr hroot) hlast, hrest⟩
  covered := by
    rintro _ rfl
    exact covered_of_mem_names hfields
      (h.kept _ (Session.mem_names_opened.mpr (.inl hd.symm)))
  closed first other hmember hn := by
    rcases h.closed first other hmember hn with hn | hcovered
    · rcases Session.mem_names_opened.mp hn with hname | hn
      · obtain rfl : first = name := hnames hmember.hasFields hfields (hname.trans hd)
        exact .inr (h.covered other hmember)
      · exact .inl hn
    · exact .inr hcovered

theorem closed_of_closed (h : svc.Collects P s t) (hs : svc.Closed s) : svc.Closed t := by
  intro name other hmember hn
  rcases h.closed name other hmember hn with hold | hcovered
  · exact (hs name other hmember hold).mono h.kept
  · exact hcovered

/-- **The names after a translation**: those of before, and those of the records that
references lead to. -/
theorem mem_names_iff (h : svc.Collects (· = name) s t) (hs : svc.Closed s) :
    n ∈ t.names ↔ n ∈ s.names ∨ ∃ other, ReflTransGen svc.model.Refers name other ∧
      svc.model.HasFields other ∧ dictName other = n := by
  constructor
  · intro hn
    refine (h.origin n hn).imp id fun ⟨root, other, hroot, hother⟩ => ?_
    exact ⟨other, hroot ▸ hother⟩
  · rintro (hn | ⟨other, hrefers, hfields, rfl⟩)
    · exact h.kept n hn
    · exact (h.closed_of_closed hs).covered (h.covered name rfl) hrefers other .refl hfields

end Collects

section Resolution

variable {s t : Session} {a : TypeExpr}

mutual

/-- **A translation enters records that references lead to**, by induction on the
translation. -/
theorem Resolves.collects (hnames : Set.InjOn dictName {n | svc.model.HasFields n}) :
    ∀ {name s a t}, svc.Resolves position name s a t → svc.Collects (· = name) s.shapes t.shapes
  | _, s, _, _, .type hhead => by
      refine .of_parts (.refl (fun n => ?_) s.shapes) ?_
      · simp [hasPart_iff position, hhead, Head.parts]
      · simp [hasFields_iff position, hhead]
  | _, _, _, _, .list hhead hitem => by
      refine .of_parts ((hitem.collects hnames).congr fun n => ?_) ?_
      · simp [hasPart_iff position, hhead, Head.parts]
      · simp [hasFields_iff position, hhead]
  | _, _, _, _, .map hhead hkey hvalue => by
      refine .of_parts (((hkey.collects hnames).trans (hvalue.collects hnames)).congr fun n => ?_) ?_
      · simp [hasPart_iff position, hhead, Head.parts]
        grind
      · simp [hasFields_iff position, hhead]
  | _, _, _, _, .known hhead hfind =>
      .of_mem_names ((hasFields_iff position).mpr ⟨_, hhead⟩) (DictTable.mem_names_iff.mpr ⟨_, hfind⟩)
  | _, _, _, _, .opened hhead _ hmembers =>
      .of_opened rfl hnames ((hasFields_iff position).mpr ⟨_, hhead⟩)
        ((hmembers.collects hnames).congr fun _ => (hasMember_iff hhead).symm)

theorem ResolvesRef.collects (hnames : Set.InjOn dictName {n | svc.model.HasFields n}) :
    ∀ {ref default s a t}, svc.ResolvesRef position ref default s a t →
      svc.Collects (fun n => n ∈ svc.model.shapes.keys ∧ ∃ r ∈ ref, r.shape = n) s.shapes t.shapes
  | _, _, _, _, _, .none => .refl (by simp) _
  | _, _, _, _, _, .undeclared hnot => .refl (fun n => by grind) _
  | _, _, _, _, _, .declared hdeclared hshape =>
      (hshape.collects hnames).congr fun n => by grind

theorem ResolvesMembers.collects (hnames : Set.InjOn dictName {n | svc.model.HasFields n}) :
    ∀ {shape ref ms s t}, svc.ResolvesMembers position shape ref ms s t →
      svc.Collects (fun n => n ∈ svc.model.shapes.keys ∧ ∃ m ∈ ms, m.2.shape = n) s.shapes t.shapes
  | _, _, _, _, _, .nil => .refl (by simp) _
  | _, _, _, _, _, .cons hm hms =>
      ((hm.collects hnames).trans (hms.collects hnames)).congr fun n => by grind

end

/-! ## Requests -/

/-- Requests enter dictionaries of shapes only when they ask for a shape. -/
theorem shapes_perform (svc : Service) (s : Session) (q : Session.Request) :
    (svc.perform s q).shapes = s.shapes ∨ ∃ position name,
      (svc.perform s q).shapes = ((svc.shapeType position name).state s).shapes := by
  cases q with
  | shape position name => exact .inr ⟨position, name, rfl⟩
  | fixed d => exact .inl (shapes_fixedDict d s)
  | returned o =>
      cases houtput : o.output with
      | none => exact .inl (congrArg Session.shapes (returnType_of_none svc houtput s).2)
      | some output =>
          refine .inr ⟨.output, output.shape, ?_⟩
          obtain ⟨-, ⟨ref, -, hstate⟩ | ⟨-, hstate⟩⟩ := returnType_of_some svc houtput s
          · rw [perform, hstate, shapes_addMetadata]
          · rw [perform, hstate]

theorem collects_shapeType (hcycles : svc.model.CyclesPassRecords)
    (hnames : Set.InjOn dictName {n | svc.model.HasFields n}) (position : Position) (name : String)
    (s : Session) :
    svc.Collects (· = name) s.shapes ((svc.shapeType position name).state s).shapes :=
  ((resolves_iff hcycles).mpr ⟨rfl, rfl⟩).collects hnames

/-- **Requests enter all that is referred to.** -/
theorem closed_performAll (hcycles : svc.model.CyclesPassRecords)
    (hnames : Set.InjOn dictName {n | svc.model.HasFields n}) (hs : svc.Closed s.shapes)
    (qs : List Session.Request) : svc.Closed (svc.performAll s qs).shapes := by
  induction qs generalizing s with
  | nil => exact hs
  | cons q qs ih =>
      refine ih ?_
      rcases shapes_perform svc s q with heq | ⟨position, name, heq⟩ <;> rw [heq]
      · exact hs
      · exact (collects_shapeType hcycles hnames position name s).closed_of_closed hs

end Resolution

end Service

end ServiceStubs
