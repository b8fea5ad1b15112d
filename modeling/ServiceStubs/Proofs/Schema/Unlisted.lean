import ServiceStubs.Proofs.Schema.Correction

/-!
# Operations that no correction names

A correction names an operation, but it is made to a shape, and other operations may
refer to this shape too.  So an operation that no correction names has other members
than the schema says exactly if it shares a shape with an operation that a correction
names, and the correction applies to the shape.

To compare with what is not corrected, the operations that corrections name are left
out of a model: then there is nothing to correct, and the other operations and all
shapes are there as the schema has them.

## Main definitions

* `Unlisted` — no correction names the operation.
* `Model.membersOf` — the members of an operation, with
  `Model.membersOf_corrected_eq_iff`.
* `Model.uncorrected` — the model without the operations that corrections name.
* `Model.Emptied` — the corrections take the last member of a shape.
-/

namespace ServiceStubs.Schema

/-- No known correction of the service names the operation. -/
def Unlisted (service operation : String) : Prop :=
  ∀ c ∈ shipped, c.service = service → c.operation ≠ operation

instance (service operation : String) : Decidable (Unlisted service operation) :=
  inferInstanceAs (Decidable (∀ c ∈ shipped, _))

namespace Model

/-- The members of an operation on one side, in order, each with its reference and with
whether it must be given. -/
def membersOf (m : Model) (o : Operation) (side : Side) : List (String × ShapeRef × Bool) :=
  match (o.side side).bind fun ref => m.shapes.get? ref.shape with
  | some s => s.members.entries.map fun (name, ref) => (name, ref, s.isRequired name)
  | none => []

theorem membersOf_of_get? {m : Model} {o : Operation} {side : Side} {ref : ShapeRef} {s : Shape}
    (href : o.side side = some ref) (hs : m.shapes.get? ref.shape = some s) :
    m.membersOf o side = s.members.entries.map fun (name, ref) => (name, ref, s.isRequired name) := by
  simp [membersOf, href, hs]

/-- **The members of an operation stay as they are exactly if no correction applies to
its shape**, whichever operation the correction names. -/
theorem membersOf_corrected_eq_iff {m : Model} {service : String} {o : Operation} {side : Side} :
    (m.corrected service).membersOf o side = m.membersOf o side ↔
      ∀ ref ∈ o.side side, ¬ m.Edited service ref.shape := by
  constructor
  · rintro h ref href ⟨c, hc, hservice, hconcerns, s, hs, happlies⟩
    have hedited := get?_corrected m service ref.shape
    rw [hs, Option.map_some] at hedited
    rw [membersOf_of_get? href hedited, membersOf_of_get? href hs] at h
    have hkeys : (s.editedBy (m.editsOf service ref.shape)).members.keys = s.members.keys := by
      simpa [OrderedMap.keys, Function.comp_def] using congrArg (List.map Prod.fst) h
    have hedit := mem_editsOf_iff.mpr ⟨c, hc, hservice, hconcerns, rfl⟩
    apply Edit.not_applies_editedBy (s := s) keeps_editsOf hedit
    rwa [Edit.Applies, hkeys]
  · intro h
    unfold membersOf
    cases href : o.side side with
    | none => rfl
    | some ref =>
        have hsame := get?_corrected_eq_iff.mpr (h ref href)
        simp only [Option.bind_some, hsame]

/-- The model without the operations that corrections of the service name. -/
def uncorrected (m : Model) (service : String) : Model :=
  { m with operations := m.operations.keep fun name => Unlisted service name }

theorem get?_uncorrected {m : Model} {service name : String} (h : Unlisted service name) :
    (m.uncorrected service).operations.get? name = m.operations.get? name := by
  simp [uncorrected, OrderedMap.get?_keep, h]

/-- There is nothing to correct in it. -/
theorem corrected_uncorrected (m : Model) (service : String) :
    (m.uncorrected service).corrected service = m.uncorrected service := by
  have hnone : ∀ name, ¬ (m.uncorrected service).Edited service name := by
    rintro name ⟨c, hc, hservice, hconcerns, -⟩
    have hlisted : ¬ Unlisted service c.operation := fun h => h c hc hservice rfl
    simp [Concerns, uncorrected, OrderedMap.get?_keep, hlisted] at hconcerns
  rw [corrected_eq]
  have hshapes : ((m.uncorrected service).shapes.mapValues fun name s =>
      s.editedBy ((m.uncorrected service).editsOf service name)) =
        (m.uncorrected service).shapes := by
    refine OrderedMap.mapValues_eq_self fun name s hs => ?_
    have hsame := get?_corrected_eq_iff.mpr (hnone name)
    rwa [get?_corrected, hs, Option.map_some, Option.some_inj] at hsame
  rw [hshapes]

/-! ## Shapes that lose their last member -/

/-- The corrections take the last member of the shape of this name. -/
def Emptied (m : Model) (service name : String) : Prop :=
  ∃ s ∈ m.shapes.get? name, s.members.isEmpty = false ∧
    (s.editedBy (m.editsOf service name)).members.isEmpty = true

end Model

end ServiceStubs.Schema
