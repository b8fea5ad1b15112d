import ServiceStubs.Proofs.Collection.OrderedMap
import ServiceStubs.Schema.Correction

/-!
# Corrected shapes

A correction is made to the shape that an operation refers to, so a shape gets the
edits of all operations that refer to it, in the order of the list.  An edit takes a
member away and may give another one for it, and it applies while the former is there
and the latter is not.

An edit that was made does not apply any more, and it applies again only after an edit
that gives what it takes, or takes what it gives.  No two of the known corrections are
like that, so after one pass none of them applies.

## Main definitions

* `Edit.taken`, `Edit.given`, `Edit.Applies` — what an edit does, and when it does it.
* `Edit.Keeps` — an edit does not make another one apply again.
* `Model.editsOf`, `Model.corrected_eq` — the corrected model, shape by shape.
* `Model.get?_corrected_eq_iff` — the shapes that stay as they are.
* `Model.corrected_corrected` — correcting a model again changes nothing.
-/

namespace ServiceStubs.Schema

/-! ## Edits -/

namespace Edit

/-- The name of the member that an edit takes away. -/
def taken : Edit → String
  | .remove name => name
  | .rename old _ => old

/-- The name that an edit gives a member, if it gives one. -/
def given : Edit → Option String
  | .remove _ => none
  | .rename _ new => some new

/-- The edit changes the shape: what it takes is there, and what it gives is not. -/
def Applies (e : Edit) (s : Shape) : Prop :=
  e.taken ∈ s.members.keys ∧ ∀ name ∈ e.given, name ∉ s.members.keys

instance (e : Edit) (s : Shape) : Decidable (e.Applies s) :=
  inferInstanceAs (Decidable (_ ∧ _))

/-- The edit `f` does not make the edit `e` apply: it neither gives what `e` takes nor
takes what `e` gives. -/
def Keeps (e f : Edit) : Prop :=
  e.taken ∉ f.given ∧ f.taken ∉ e.given

instance (e f : Edit) : Decidable (e.Keeps f) :=
  inferInstanceAs (Decidable (_ ∧ _))

end Edit

variable {s : Shape} {e f : Edit} {es : List Edit}

/-- There is nothing to take where there are no members. -/
theorem Edit.not_applies_of_isEmpty (h : s.members.isEmpty = true) : ¬ e.Applies s := by
  rintro ⟨htaken, -⟩
  simp only [OrderedMap.isEmpty, List.isEmpty_iff] at h
  simp [OrderedMap.keys, h] at htaken

theorem Shape.edited_of_not_applies (h : ¬ e.Applies s) : s.edited e = s := by
  cases e with
  | remove name =>
      have hname : ¬ s.members.contains name := by
        intro hmem
        exact h ⟨OrderedMap.contains_iff.mp hmem, nofun⟩
      simp [Shape.edited, hname]
  | rename old new =>
      by_cases hnew : s.members.contains new
      · simp [Shape.edited, hnew]
      · have hold : ¬ s.members.contains old := by
          intro hmem
          refine h ⟨OrderedMap.contains_iff.mp hmem, ?_⟩
          rintro name ⟨⟩
          simpa using hnew
        simp [Shape.edited, hnew, hold]

/-- An edit that applies puts the member that it gives in the place of the one that it
takes. -/
theorem Shape.mem_keys_edited (h : e.Applies s) (k : String) :
    k ∈ (s.edited e).members.keys ↔ (k ∈ s.members.keys ∧ k ≠ e.taken) ∨ k ∈ e.given := by
  cases e with
  | remove name =>
      have hname : s.members.contains name := OrderedMap.contains_iff.mpr h.1
      simp [Shape.edited, hname, OrderedMap.mem_keys_erase, Edit.taken, Edit.given]
  | rename old new =>
      have hold : old ∈ s.members.keys := h.1
      have hnew : new ∉ s.members.keys := h.2 new rfl
      have hedited : (s.edited (.rename old new)).members = s.members.rename old new := by
        simp [Shape.edited, hold, hnew]
      rw [hedited, OrderedMap.mem_keys_rename hold hnew]
      simp [Edit.taken, Edit.given, eq_comm]

/-- An edit that was made does not apply any more. -/
theorem Edit.not_applies_edited (e : Edit) (s : Shape) : ¬ e.Applies (s.edited e) := by
  by_cases h : e.Applies s
  · intro hagain
    obtain ⟨htaken, hgiven⟩ := hagain
    rw [Shape.mem_keys_edited h] at htaken
    rcases htaken with ⟨-, hne⟩ | hmem
    · exact hne rfl
    · exact hgiven _ hmem ((Shape.mem_keys_edited h _).mpr (.inr hmem))
  · rwa [Shape.edited_of_not_applies h]

theorem Edit.Keeps.not_applies_edited (hkeeps : e.Keeps f) (h : ¬ e.Applies s) :
    ¬ e.Applies (s.edited f) := by
  by_cases hf : f.Applies s
  · rintro ⟨htaken, hgiven⟩
    refine h ⟨?_, ?_⟩
    · rcases (Shape.mem_keys_edited hf _).mp htaken with ⟨hmem, -⟩ | hmem
      · exact hmem
      · exact absurd hmem hkeeps.1
    · intro name hname hmem
      refine hgiven name hname ((Shape.mem_keys_edited hf _).mpr (.inl ⟨hmem, ?_⟩))
      rintro rfl
      exact hkeeps.2 hname
  · rwa [Shape.edited_of_not_applies hf]

/-! ## Several edits -/

/-- A shape with some edits, one after the other. -/
def Shape.editedBy (s : Shape) (es : List Edit) : Shape :=
  es.foldl Shape.edited s

theorem Shape.editedBy_of_not_applies (h : ∀ e ∈ es, ¬ e.Applies s) : s.editedBy es = s := by
  induction es with
  | nil => rfl
  | cons e es ih =>
      have hhead : s.edited e = s := Shape.edited_of_not_applies (h e List.mem_cons_self)
      rw [Shape.editedBy, List.foldl_cons, hhead]
      exact ih fun e he => h e (List.mem_cons_of_mem _ he)

theorem Edit.not_applies_editedBy_of_keeps (hkeeps : ∀ f ∈ es, e.Keeps f) (h : ¬ e.Applies s) :
    ¬ e.Applies (s.editedBy es) := by
  induction es generalizing s with
  | nil => exact h
  | cons f es ih =>
      apply ih
      · exact fun g hg => hkeeps g (List.mem_cons_of_mem _ hg)
      · exact (hkeeps f List.mem_cons_self).not_applies_edited h

/-- **After all edits none of them applies**, if none makes another one apply again. -/
theorem Edit.not_applies_editedBy (hkeeps : ∀ e ∈ es, ∀ f ∈ es, e.Keeps f) (he : e ∈ es) :
    ¬ e.Applies (s.editedBy es) := by
  induction es generalizing s with
  | nil => nomatch he
  | cons f es ih =>
      rcases List.mem_cons.mp he with rfl | he
      · have hlater : ∀ g ∈ es, e.Keeps g := fun g hg =>
          hkeeps e List.mem_cons_self g (List.mem_cons_of_mem _ hg)
        change ¬ e.Applies ((s.edited e).editedBy es)
        exact Edit.not_applies_editedBy_of_keeps hlater (e.not_applies_edited s)
      · exact ih (fun g hg g' hg' => hkeeps g (List.mem_cons_of_mem _ hg) g'
          (List.mem_cons_of_mem _ hg')) he

/-- The shape stays as it is exactly if none of the edits applies. -/
theorem Shape.editedBy_eq_self_iff (hkeeps : ∀ e ∈ es, ∀ f ∈ es, e.Keeps f) :
    s.editedBy es = s ↔ ∀ e ∈ es, ¬ e.Applies s := by
  constructor
  · intro h e he
    rw [← h]
    exact Edit.not_applies_editedBy hkeeps he
  · exact Shape.editedBy_of_not_applies

/-- Edits change members and what is required of them, and nothing else. -/
theorem Shape.exists_edited_eq (s : Shape) (e : Edit) :
    ∃ members required, s.edited e = { s with members, required } := by
  by_cases h : e.Applies s
  · cases e with
    | remove name =>
        have hname : s.members.contains name := OrderedMap.contains_iff.mpr h.1
        exact ⟨_, _, if_pos hname⟩
    | rename old new =>
        have hold : s.members.contains old := OrderedMap.contains_iff.mpr h.1
        have hnew : ¬ s.members.contains new := by simpa using h.2 new rfl
        exact ⟨_, _, (if_neg hnew).trans (if_pos hold)⟩
  · exact ⟨s.members, s.required, Shape.edited_of_not_applies h⟩

theorem Shape.exists_editedBy_eq (s : Shape) (es : List Edit) :
    ∃ members required, s.editedBy es = { s with members, required } := by
  induction es generalizing s with
  | nil => exact ⟨s.members, s.required, rfl⟩
  | cons e es ih =>
      obtain ⟨members, required, hedited⟩ := s.exists_edited_eq e
      obtain ⟨members', required', hrest⟩ := ih (s.edited e)
      refine ⟨members', required', ?_⟩
      rw [Shape.editedBy, List.foldl_cons]
      exact hrest.trans (by rw [hedited])

/-! ## Corrected models -/

namespace Model

/-- The correction is about the shape of this name: its operation refers to the shape, on
the side that the correction says. -/
def Concerns (m : Model) (c : Correction) (name : String) : Prop :=
  ((m.operations.get? c.operation).bind (·.side c.side)).map (·.shape) = some name

instance (m : Model) (c : Correction) (name : String) : Decidable (m.Concerns c name) :=
  inferInstanceAs (Decidable (_ = _))

/-- The edits that some corrections make to the shape of a name. -/
def editsBy (m : Model) (corrections : List Correction) (name : String) : List Edit :=
  (corrections.filter (m.Concerns · name)).map (·.edit)

/-- The edits that are made to the shape of a name in the model of a service. -/
def editsOf (m : Model) (service name : String) : List Edit :=
  m.editsBy (shipped.filter (·.service = service)) name

theorem mem_editsOf_iff {m : Model} {service name : String} :
    e ∈ m.editsOf service name ↔
      ∃ c ∈ shipped, c.service = service ∧ m.Concerns c name ∧ c.edit = e := by
  simp [editsOf, editsBy, and_assoc, and_left_comm]

/-- Which shapes are edited depends on the operations only. -/
theorem editsBy_congr {m n : Model} (h : m.operations = n.operations) :
    m.editsBy = n.editsBy := by
  funext corrections name
  have hconcerns : ∀ c, m.Concerns c name ↔ n.Concerns c name := by
    intro c
    rw [Concerns, Concerns, h]
  simp only [editsBy, hconcerns]

theorem editsOf_congr {m n : Model} (h : m.operations = n.operations) :
    m.editsOf = n.editsOf := by
  funext service name
  rw [editsOf, editsOf, editsBy_congr h]

theorem correctedAt_eq (m : Model) (c : Correction) :
    m.correctedAt c =
      { m with
        shapes := m.shapes.mapValues fun name s =>
          if m.Concerns c name then s.edited c.edit else s } := by
  cases h : (m.operations.get? c.operation).bind (·.side c.side) with
  | none => simp [correctedAt, Concerns, h]
  | some ref => simp [correctedAt, Concerns, h, OrderedMap.update, eq_comm]

theorem foldl_correctedAt (corrections : List Correction) (m : Model) :
    corrections.foldl correctedAt m =
      { m with shapes := m.shapes.mapValues fun name s => s.editedBy (m.editsBy corrections name) } := by
  induction corrections generalizing m with
  | nil => simp [editsBy, Shape.editedBy]
  | cons c cs ih =>
      have hcs : (m.correctedAt c).editsBy cs = m.editsBy cs :=
        congrFun (editsBy_congr (by rw [correctedAt_eq])) cs
      rw [List.foldl_cons, ih, hcs, correctedAt_eq, OrderedMap.mapValues_mapValues]
      congr 2
      funext name s
      by_cases h : m.Concerns c name
      · simp [editsBy, Shape.editedBy, h]
      · simp [editsBy, Shape.editedBy, h]

/-- **The corrected model, shape by shape**: every shape gets the edits that are about
it, and nothing else changes. -/
theorem corrected_eq (m : Model) (service : String) :
    m.corrected service =
      { m with shapes := m.shapes.mapValues fun name s => s.editedBy (m.editsOf service name) } :=
  foldl_correctedAt _ m

/-- Corrections leave the operations alone. -/
@[simp] theorem operations_corrected (m : Model) (service : String) :
    (m.corrected service).operations = m.operations := by
  rw [corrected_eq]

theorem get?_corrected (m : Model) (service name : String) :
    (m.corrected service).shapes.get? name =
      (m.shapes.get? name).map (·.editedBy (m.editsOf service name)) := by
  rw [corrected_eq]
  exact OrderedMap.get?_mapValues _ _ _

/-! ## The known corrections -/

/-- No known correction makes another one apply again. -/
theorem keeps_shipped : ∀ c ∈ shipped, ∀ d ∈ shipped, c.edit.Keeps d.edit := by
  decide +kernel

theorem keeps_editsOf {m : Model} {service name : String} :
    ∀ e ∈ m.editsOf service name, ∀ f ∈ m.editsOf service name, e.Keeps f := by
  intro e he f hf
  obtain ⟨c, hc, -, -, rfl⟩ := mem_editsOf_iff.mp he
  obtain ⟨d, hd, -, -, rfl⟩ := mem_editsOf_iff.mp hf
  exact keeps_shipped c hc d hd

/-- Some known correction of the service is about the shape of this name, and applies to
it. -/
def Edited (m : Model) (service name : String) : Prop :=
  ∃ c ∈ shipped, c.service = service ∧ m.Concerns c name ∧
    ∃ s ∈ m.shapes.get? name, c.edit.Applies s

instance (m : Model) (service name : String) : Decidable (m.Edited service name) :=
  decidable_of_iff
    (∃ c ∈ shipped, c.service = service ∧ m.Concerns c name ∧
      (m.shapes.get? name).any fun s => c.edit.Applies s)
    (by simp [Edited, Option.any_eq_true])

/-- A shape stays as it is exactly if no correction that is about it applies. -/
theorem get?_corrected_eq_iff {m : Model} {service name : String} :
    (m.corrected service).shapes.get? name = m.shapes.get? name ↔ ¬ m.Edited service name := by
  rw [get?_corrected, Edited]
  cases hs : m.shapes.get? name with
  | none => simp
  | some s =>
      rw [Option.map_some, Option.some_inj, Shape.editedBy_eq_self_iff keeps_editsOf]
      constructor
      · rintro h ⟨c, hc, hservice, hconcerns, first, hfirst, happlies⟩
        obtain rfl : s = first := Option.some.inj hfirst
        exact h _ (mem_editsOf_iff.mpr ⟨c, hc, hservice, hconcerns, rfl⟩) happlies
      · intro h e he happlies
        obtain ⟨c, hc, hservice, hconcerns, rfl⟩ := mem_editsOf_iff.mp he
        exact h ⟨c, hc, hservice, hconcerns, s, rfl, happlies⟩

/-- **Correcting a model again changes nothing**: neither shapes nor operations, nor the
order of any names. -/
theorem corrected_corrected (m : Model) (service : String) :
    (m.corrected service).corrected service = m.corrected service := by
  have hedits : (m.corrected service).editsOf service = m.editsOf service :=
    congrFun (editsOf_congr (operations_corrected m service)) service
  have hshapes : ((m.corrected service).shapes.mapValues fun name s =>
      s.editedBy (m.editsOf service name)) = (m.corrected service).shapes := by
    refine OrderedMap.mapValues_eq_self fun name s hs => ?_
    rw [get?_corrected] at hs
    obtain ⟨first, -, rfl⟩ := Option.map_eq_some_iff.mp hs
    exact Shape.editedBy_of_not_applies fun e he => Edit.not_applies_editedBy keeps_editsOf he
  rw [corrected_eq (m.corrected service), hedits, hshapes]

end Model

end ServiceStubs.Schema
