import Mathlib.Logic.Relation
import ServiceStubs.Proofs.Collection.OrderedMap
import ServiceStubs.Proofs.TypeExpr.Store
import ServiceStubs.Schema.Basic

/-!
# Parts of lists and maps

A list has items, a map has keys and values, and these may be lists and maps
again.  A type that lists and maps are followed for is finite only if the parts
come to an end.  Then the shapes on the way from a shape to a part of it differ,
so there are no more of them than there are shapes.

## Main definitions

* `Schema.PartStep`, `Shape.part?`, `Model.partAt?` — the ways down to parts.
* `Model.HasPart`, `Model.Ends` — a shape has a part; the parts come to an end.
* `Model.partCount` — the number of shapes that parts lead to, with
  `Model.partCount_lt`.
-/

namespace ServiceStubs.Schema

/-- A step from a list or a map to one of its parts. -/
inductive PartStep
  | item
  | key
  | value
  deriving DecidableEq

/-- The reference to a part of a shape. -/
def Shape.part? (shape : Shape) : PartStep → Option ShapeRef
  | .item => if shape.kind = .list then shape.member else none
  | .key => if shape.kind = .map then shape.key else none
  | .value => if shape.kind = .map then shape.value else none

namespace Model

/-- The shape that some steps lead to. -/
def partAt? (m : Model) : List PartStep → String → Option Shape
  | [], name => m.shapes.get? name
  | step :: path, name =>
    ((m.shapes.get? name).bind (·.part? step)).bind fun ref => m.partAt? path ref.shape

/-- The shape `name` has the declared shape `part` as a part. -/
def HasPart (m : Model) (name part : String) : Prop :=
  part ∈ m.shapes.keys ∧
    ∃ shape step ref, m.shapes.get? name = some shape ∧ shape.part? step = some ref ∧
      ref.shape = part

/-- The parts of the shape, and the parts of these, come to an end: none of them
contains itself. -/
def Ends (m : Model) (name : String) : Prop :=
  ∀ part, Relation.ReflTransGen m.HasPart name part → ¬ Relation.TransGen m.HasPart part part

variable {m : Model} {name part : String}

theorem Ends.of_hasPart (h : m.Ends name) (hpart : m.HasPart name part) : m.Ends part :=
  fun n hn => h n (.head hpart hn)

theorem HasPart.declared (h : m.HasPart name part) : name ∈ m.shapes.keys := by
  obtain ⟨-, shape, step, ref, hshape, -⟩ := h
  exact OrderedMap.mem_keys_of_get? hshape

/-- Steps lead somewhere from declared shapes only. -/
theorem mem_keys_of_partAt? {path : List PartStep} {shape : Shape}
    (h : m.partAt? path name = some shape) : name ∈ m.shapes.keys := by
  cases path with
  | nil => exact OrderedMap.mem_keys_of_get? h
  | cons step path =>
      obtain ⟨ref, href, -⟩ := Option.bind_eq_some_iff.mp h
      obtain ⟨first, hfirst, -⟩ := Option.bind_eq_some_iff.mp href
      exact OrderedMap.mem_keys_of_get? hfirst

/-- What a step leads to is a part. -/
theorem hasPart_of_part? {shape : Shape} {step : PartStep} {ref : ShapeRef}
    (hshape : m.shapes.get? name = some shape) (href : shape.part? step = some ref)
    (hdeclared : ref.shape ∈ m.shapes.keys) : m.HasPart name ref.shape :=
  ⟨hdeclared, shape, step, ref, hshape, href, rfl⟩

/-! ## Counting parts -/

open Classical in
/-- The number of declared shapes that are the shape or a part of it. -/
noncomputable def partCount (m : Model) (name : String) : Nat :=
  (m.shapes.keys.filter fun part => Relation.ReflTransGen m.HasPart name part).length

theorem partCount_le (m : Model) (name : String) : m.partCount name ≤ m.shapes.size := by
  have hsize : m.shapes.keys.length = m.shapes.size := List.length_map _
  rw [← hsize]
  exact List.length_filter_le _ _

/-- **A part leads to fewer shapes**, as it does not lead back. -/
theorem partCount_lt (h : m.Ends name) (hpart : m.HasPart name part) :
    m.partCount part < m.partCount name := by
  refine length_filter_lt ?_ hpart.declared ?_ ?_
  · intro n hn
    simp only [decide_eq_true_eq] at hn ⊢
    exact .head hpart hn
  · simp only [decide_eq_true_eq]
    exact .refl
  · simp only [decide_eq_false_iff_not]
    intro hback
    exact h name .refl (.head' hpart hback)

end Model

end ServiceStubs.Schema
