import Mathlib.Data.List.Chain
import ServiceStubs.Proofs.Schema.Parts

/-!
# References between shapes

A list refers to its items, a map to its keys and values, and a record to its members.
Shapes may refer to each other in circles.  A circle of lists and maps only has no
finite type, but a record is not followed for its type, so a circle through a record is
harmless.  A record that refers to something has members.

## Main definitions

* `Model.HasMember`, `Model.Refers` — references of records, and of all shapes.
* `Model.HasFields` — a record with members.
* `Model.CyclesPassRecords` — every cycle passes through a record with members, with
  `Model.cyclesPassRecords_iff`.
-/

open Relation (TransGen)

namespace ServiceStubs.Schema.Model

variable {m : Model} {name other : String}

/-- The record shape `name` has a member of the declared shape `other`. -/
def HasMember (m : Model) (name other : String) : Prop :=
  other ∈ m.shapes.keys ∧ ∃ shape member, m.shapes.get? name = some shape ∧
    shape.kind = .record ∧ member ∈ shape.members.entries ∧ member.2.shape = other

/-- The shape `name` refers to the declared shape `other`, as its kind does: a list by its
items, a map by its keys and values, a record by its members. -/
def Refers (m : Model) (name other : String) : Prop :=
  m.HasPart name other ∨ m.HasMember name other

/-- The shape of this name is a record with members. -/
def HasFields (m : Model) (name : String) : Prop :=
  ∃ shape, m.shapes.get? name = some shape ∧ shape.kind = .record ∧
    shape.members.isEmpty = false

/-- Every cycle of references passes through a record with members. -/
def CyclesPassRecords (m : Model) : Prop :=
  ∀ name path, List.IsChain m.Refers (name :: path ++ [name]) → ∃ n ∈ name :: path, m.HasFields n

theorem HasMember.hasFields (h : m.HasMember name other) : m.HasFields name := by
  obtain ⟨-, shape, member, hshape, hkind, hmember, -⟩ := h
  refine ⟨shape, hshape, hkind, ?_⟩
  simpa [OrderedMap.isEmpty] using List.ne_nil_of_mem hmember

/-- Only lists and maps have parts. -/
theorem HasPart.not_hasFields (h : m.HasPart name other) : ¬ m.HasFields name := by
  obtain ⟨-, shape, step, ref, hshape, href, -⟩ := h
  rintro ⟨first, hfirst, hkind, -⟩
  obtain rfl : shape = first := Option.some.inj (hshape.symm.trans hfirst)
  cases step <;> simp [Shape.part?, hkind] at href

/-- A way along references, as the list of the shapes on it. -/
theorem exists_chain_of_transGen {r : String → String → Prop} {a b : String}
    (h : TransGen r a b) : ∃ path, List.IsChain r (a :: path ++ [b]) := by
  induction h using TransGen.head_induction_on with
  | single hab => exact ⟨[], by simpa using hab⟩
  | @head a c hac _ ih =>
      obtain ⟨path, hpath⟩ := ih
      exact ⟨c :: path, List.isChain_cons_cons.mpr ⟨hac, hpath⟩⟩

/-- Every shape on a way, the last one apart, refers to another one. -/
theorem exists_of_mem_chain {r : String → String → Prop} {a b n : String} {path : List String}
    (h : List.IsChain r (a :: path ++ [b])) (hn : n ∈ a :: path) : ∃ c, r n c := by
  induction path generalizing a with
  | nil =>
      obtain rfl := List.mem_singleton.mp hn
      exact ⟨b, by simpa using h⟩
  | cons c path ih =>
      obtain ⟨hac, hrest⟩ := List.isChain_cons_cons.mp h
      rcases List.mem_cons.mp hn with rfl | hn
      · exact ⟨c, hac⟩
      · exact ih hrest hn

/-- A way on which every shape takes a step of another kind, too. -/
theorem transGen_of_chain {r r' : String → String → Prop} {a b : String} {path : List String}
    (h : List.IsChain r (a :: path ++ [b])) (hr : ∀ n ∈ a :: path, ∀ c, r n c → r' n c) :
    TransGen r' a b := by
  induction path generalizing a with
  | nil => exact .single (hr a List.mem_cons_self b (by simpa using h))
  | cons c path ih =>
      obtain ⟨hac, hrest⟩ := List.isChain_cons_cons.mp h
      exact .head (hr a List.mem_cons_self c hac)
        (ih hrest fun n hn => hr n (List.mem_cons_of_mem a hn))

theorem CyclesPassRecords.ends (h : m.CyclesPassRecords) (name : String) : m.Ends name := by
  intro part _ hcycle
  obtain ⟨path, hpath⟩ := exists_chain_of_transGen hcycle
  obtain ⟨n, hn, hfields⟩ := h part path (hpath.imp fun _ _ hstep => .inl hstep)
  obtain ⟨c, hstep⟩ := exists_of_mem_chain hpath hn
  exact hstep.not_hasFields hfields

/-- **Every cycle passes through a record just when the parts of all shapes come to an
end**: a cycle without a record is one of parts. -/
theorem cyclesPassRecords_iff : m.CyclesPassRecords ↔ ∀ name, m.Ends name := by
  refine ⟨fun h => h.ends, fun h name path hpath => ?_⟩
  by_contra hno
  refine h name name .refl (transGen_of_chain hpath fun n hn c hstep => ?_)
  exact hstep.resolve_right fun hmember => hno ⟨n, hn, hmember.hasFields⟩

/-- So it is if no part of a shape has parts itself. -/
theorem ends_of_flat (h : ∀ name part other, m.HasPart name part → ¬ m.HasPart part other)
    (name : String) : m.Ends name := by
  intro part _ hcycle
  obtain ⟨next, hnext, hback⟩ := TransGen.head'_iff.mp hcycle
  rcases hback.cases_head with rfl | ⟨other, hother, -⟩
  · exact h next next next hnext hnext
  · exact h part next other hnext hother

end ServiceStubs.Schema.Model
