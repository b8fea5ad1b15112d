import ServiceStubs.TypeExpr.Store

/-!
# Handles and their dictionaries

A handle is in use when its number has been given out.  Making a dictionary uses
the next number and leaves those in use alone; changing a dictionary leaves the
others alone.

## Main definitions

* `Store.InUse` — handles whose number has been given out.
* `Store.get_add`, `Store.get_modify` and their kin — the dictionary of a handle
  after each operation.
-/

namespace ServiceStubs

/-! ## Counting -/

/-- A condition that fails for one more element leaves fewer of them. -/
theorem length_filter_lt {α : Type} {p q : α → Bool} {xs : List α} {x : α}
    (hpq : ∀ y, q y → p y) (hx : x ∈ xs) (hp : p x) (hq : q x = false) :
    (xs.filter q).length < (xs.filter p).length := by
  have hsub : xs.filter q = (xs.filter p).filter q := by
    rw [List.filter_filter]
    refine List.filter_congr fun y _ => ?_
    cases hy : q y with
    | true => simp [hpq y hy]
    | false => rfl
  rw [hsub, List.length_filter_lt_length_iff_exists]
  exact ⟨x, List.mem_filter.mpr ⟨hx, hp⟩, by simp [hq]⟩

namespace Store

/-! ## Handles in use -/

/-- The number of the handle has been given out. -/
def InUse (s : Store) (ref : DictRef) : Prop :=
  ref.id < s.dicts.size

variable {s : Store} {ref r : DictRef}

/-- The number of a handle in use tells its dictionary. -/
theorem get_congr (h : s.InUse ref) (hid : r.id = ref.id) : s.get r = s.get ref := by
  simp only [InUse] at h
  simp [get, hid, h]

/-! ## Making a dictionary -/

@[simp] theorem add_fst (s : Store) (d : TypedDict) : (s.add d).1 = ⟨s.dicts.size, d.name⟩ := rfl

@[simp] theorem size_add (s : Store) (d : TypedDict) :
    (s.add d).2.dicts.size = s.dicts.size + 1 := by
  simp [add]

theorem inUse_add (s : Store) (d : TypedDict) : (s.add d).2.InUse (s.add d).1 := by
  simp [InUse]

theorem InUse.add (h : s.InUse r) (d : TypedDict) : (s.add d).2.InUse r := by
  simp only [InUse, size_add] at h ⊢
  omega

@[simp] theorem get_add (s : Store) (d : TypedDict) : (s.add d).2.get (s.add d).1 = d := by
  simp [get, add]

theorem get_add_of_inUse (h : s.InUse r) (d : TypedDict) : (s.add d).2.get r = s.get r := by
  simp only [InUse] at h
  have hne : r.id ≠ s.dicts.size := by omega
  simp [get, add, Array.getElem?_push, hne]

/-! ## Changing a dictionary -/

@[simp] theorem size_modify (s : Store) (ref : DictRef) (f : TypedDict → TypedDict) :
    (s.modify ref f).dicts.size = s.dicts.size := by
  simp [modify]

theorem get_modify (h : s.InUse ref) (f : TypedDict → TypedDict) :
    (s.modify ref f).get ref = f (s.get ref) := by
  simp only [InUse] at h
  simp [get, modify, Array.getElem_modify, h]

theorem get_modify_of_ne (h : r.id ≠ ref.id) (f : TypedDict → TypedDict) :
    (s.modify ref f).get r = s.get r := by
  simp [get, modify, Array.getElem?_modify, h.symm]

/-- A new field comes after the others. -/
theorem get_addField (h : s.InUse ref) (f : Field) :
    (s.addField ref f).get ref = { s.get ref with fields := (s.get ref).fields ++ [f] } :=
  get_modify h _

theorem get_addField_of_ne (h : r.id ≠ ref.id) (f : Field) :
    (s.addField ref f).get r = s.get r :=
  get_modify_of_ne h _

@[simp] theorem size_addField (s : Store) (ref : DictRef) (f : Field) :
    (s.addField ref f).dicts.size = s.dicts.size :=
  size_modify s ref _

@[simp] theorem inUse_addField {f : Field} : (s.addField ref f).InUse r ↔ s.InUse r := by
  simp [InUse]

/-! ## Adding several fields -/

/-- The store in which a dictionary has some more fields. -/
def addFields (s : Store) (ref : DictRef) (fs : List Field) : Store :=
  fs.foldl (fun s f => s.addField ref f) s

@[simp] theorem size_addFields (s : Store) (ref : DictRef) (fs : List Field) :
    (s.addFields ref fs).dicts.size = s.dicts.size := by
  induction fs generalizing s with
  | nil => rfl
  | cons f fs ih => exact (ih (s.addField ref f)).trans (size_addField s ref f)

@[simp] theorem inUse_addFields {fs : List Field} : (s.addFields ref fs).InUse r ↔ s.InUse r := by
  simp [InUse]

/-- The new fields come after the others, in order. -/
theorem get_addFields (h : s.InUse ref) (fs : List Field) :
    (s.addFields ref fs).get ref = { s.get ref with fields := (s.get ref).fields ++ fs } := by
  induction fs generalizing s with
  | nil => simp [addFields]
  | cons f fs ih =>
      have hf : (s.addField ref f).InUse ref := inUse_addField.mpr h
      exact (ih hf).trans (by rw [get_addField h]; simp)

theorem get_addFields_of_ne (h : r.id ≠ ref.id) (fs : List Field) :
    (s.addFields ref fs).get r = s.get r := by
  induction fs generalizing s with
  | nil => rfl
  | cons f fs ih => exact ih.trans (get_addField_of_ne h f)

end Store

end ServiceStubs
