import ServiceStubs.Declaration.Function
import ServiceStubs.Import.Group
import ServiceStubs.Proofs.Collection.KeyedSet
import ServiceStubs.Proofs.TypeExpr.Nodes

/-!
# Imports of sets and of statements

No import that a stub needs has an alias, so an import is told by its module and
its name, and a set of imports holds exactly those that were added.  Writing
imports as statements loses none of them, and each statement is about one module.

## Main definitions

* `ImportSet.mem_addAll`, `ImportSet.mem_ofList` — the imports of a set.
* `TypeExpr.mem_imports`, `mem_requiredImports` — the imports of what uses
  annotations: those of the heads of their parts.
* `flatMap_groupImports`, `exists_mem_groupImports` — the imports of statements.
* `groupImports_induction` — what holds of every statement.
-/

namespace ServiceStubs

namespace ModulePath

@[simp] theorem isRelative_inPackage (module : String) : (inPackage module).isRelative := by
  simp [isRelative, inPackage, List.isPrefixOf]

theorem inPackage_injective {module module' : String} (h : inPackage module = inPackage module') :
    module = module' :=
  (String.append_right_inj _).mp (ModulePath.mk.inj h)

end ModulePath

/-- Imports without alias are told by their modules and names. -/
theorem Import.eq_of_key {i j : Import} (hi : i.asName = none) (hj : j.asName = none)
    (h : i.key = j.key) : i = j := by
  obtain ⟨⟨path⟩, name, asName⟩ := i
  obtain ⟨⟨path'⟩, name', asName'⟩ := j
  obtain ⟨hpath, hname⟩ := ImportKey.mk.inj h
  dsimp only at hi hj hpath hname
  rw [hi, hj, hpath, hname]

/-! ## Sets of imports -/

namespace ImportSet

variable {s : ImportSet} {is : List Import} {i : Import}

theorem addAll_induction {P : ImportSet → Prop} (hs : P s)
    (hstep : ∀ u, P u → ∀ i ∈ is, P (u.add i)) : P (s.addAll is) :=
  List.foldlRecOn is _ hs hstep

/-- A list is added from its end. -/
theorem ofList_eq_addAll (is : List Import) : ofList is = addAll ∅ is.reverse := by
  rw [ofList, addAll, List.foldl_reverse]

theorem keyedBy_addAll (hs : s.KeyedBy Import.key) (is : List Import) :
    (s.addAll is).KeyedBy Import.key :=
  addAll_induction (P := KeyedSet.KeyedBy Import.key) hs fun _ hu i _ => hu.insert i

theorem mem_of_mem_addAll (h : i ∈ (s.addAll is).toList) : i ∈ s.toList ∨ i ∈ is := by
  revert i
  refine addAll_induction (P := fun u => ∀ {i}, i ∈ u.toList → i ∈ s.toList ∨ i ∈ is) .inl ?_
  intro u hu j hj i hi
  rcases KeyedSet.mem_toList_insert hi with rfl | hi
  · exact .inr hj
  · exact hu hi

theorem key_mem_addAll (h : i ∈ is) : i.key ∈ (s.addAll is).keys := by
  induction is generalizing s with
  | nil => nomatch h
  | cons j is ih =>
      rcases List.mem_cons.mp h with rfl | h
      · have hself : i.key ∈ (s.add i).keys := KeyedSet.mem_keys_insert.mpr (.inl rfl)
        exact addAll_induction (s := s.add i) (P := fun u => i.key ∈ u.keys) hself fun u hu j _ =>
          KeyedSet.mem_keys_insert.mpr (.inr hu)
      · exact ih h

/-- **A set holds exactly the imports that were added to it,** if none of them has
an alias. -/
theorem mem_addAll (his : ∀ i ∈ is, i.asName = none) :
    i ∈ (addAll ∅ is).toList ↔ i ∈ is := by
  have hsound : ∀ {j : Import}, j ∈ (addAll ∅ is).toList → j ∈ is :=
    fun h => (mem_of_mem_addAll h).resolve_left (by simp)
  constructor
  · exact hsound
  · intro h
    obtain ⟨j, hj, hkey⟩ := (keyedBy_addAll .empty is).mem_keys.mp (key_mem_addAll h)
    rwa [Import.eq_of_key (his j (hsound hj)) (his i h) hkey] at hj

theorem mem_ofList (his : ∀ i ∈ is, i.asName = none) : i ∈ (ofList is).toList ↔ i ∈ is := by
  rw [ofList_eq_addAll, mem_addAll (by simpa using his), List.mem_reverse]

end ImportSet

/-! ## Imports of annotations -/

/-- No part of the expression has an alias. -/
def TypeExpr.Unaliased (a : TypeExpr) : Prop :=
  ∀ t ∈ a.nodes, t.headImport.asName = Option.none

theorem TypeExpr.mem_imports {a : TypeExpr} (ha : a.Unaliased) {i : Import} :
    i ∈ a.imports.toList ↔ ∃ t ∈ a.nodes, t.headImport = i := by
  have hnames : ∀ i ∈ a.nodes.map headImport, i.asName = Option.none := by
    intro i hi
    obtain ⟨t, ht, rfl⟩ := List.mem_map.mp hi
    exact ha t ht
  rw [imports, ImportSet.mem_addAll hnames, List.mem_map]

/-- What must be imported for annotations: the imports of the heads of their
parts, apart from those of built-in names. -/
theorem mem_requiredImports {α : Type} [Annotated α] {x : α}
    (hx : ∀ a ∈ Annotated.annotations x, a.Unaliased) {i : Import} :
    i ∈ (requiredImports x).toList ↔
      (∃ a ∈ Annotated.annotations x, ∃ t ∈ a.nodes, t.headImport = i) ∧
        i.isBuiltins = false := by
  have hmem : ∀ j, j ∈ ((Annotated.annotations x).flatMap (·.imports.toList)).filter
      (!·.isBuiltins) ↔ (∃ a ∈ Annotated.annotations x, ∃ t ∈ a.nodes, t.headImport = j) ∧
        j.isBuiltins = false := by
    intro j
    rw [List.mem_filter, List.mem_flatMap, Bool.not_eq_true']
    refine and_congr_left' (exists_congr fun a => and_congr_right fun ha => ?_)
    exact TypeExpr.mem_imports (hx a ha)
  rw [requiredImports, ImportSet.mem_ofList, hmem]
  intro j hj
  obtain ⟨⟨a, ha, t, ht, rfl⟩, -⟩ := (hmem j).mp hj
  exact hx a ha t ht

/-! ## Statements -/

/-- All imports of the statement are from its module. -/
def ImportGroup.Uniform (g : ImportGroup) : Prop :=
  ∀ i ∈ g.imports, i.source = g.source

theorem ImportGroup.uniform_single (i : Import) : (single i).Uniform := by
  intro j hj
  rw [List.mem_singleton.mp hj]
  rfl

theorem ImportGroup.Uniform.push {g : ImportGroup} {i : Import} (h : g.Uniform)
    (hadmits : g.admits i) : (g.push i).Uniform := by
  simp only [admits, Bool.and_eq_true, decide_eq_true_eq] at hadmits
  intro j hj
  rcases List.mem_append.mp hj with hj | hj
  · exact h j hj
  · rw [List.mem_singleton.mp hj]
    exact hadmits.1.1.symm

variable {g g' : ImportGroup} {is : List Import} {i : Import}

/-- **Grouping keeps every import, in order.** -/
theorem flatMap_groupSorted (g : ImportGroup) (is : List Import) :
    (groupSorted g is).flatMap (·.imports) = g.imports ++ is := by
  induction is generalizing g with
  | nil => simp [groupSorted]
  | cons i is ih =>
      rw [groupSorted]
      split
      · rw [ih, ImportGroup.push, List.append_assoc, List.singleton_append]
      · rw [List.flatMap_cons, ih, ImportGroup.single, List.singleton_append]

/-- What holds of single imports, and what joining keeps, holds of every statement. -/
theorem groupSorted_induction {P : ImportGroup → Prop} (hsingle : ∀ i, P (.single i))
    (hpush : ∀ g i, P g → g.admits i → P (g.push i)) (hg : P g) (h : g' ∈ groupSorted g is) :
    P g' := by
  induction is generalizing g with
  | nil => exact List.mem_singleton.mp h ▸ hg
  | cons i is ih =>
      rw [groupSorted] at h
      split at h
      · next hadmits => exact ih (hpush g i hg hadmits) h
      · rcases List.mem_cons.mp h with rfl | h
        · exact hg
        · exact ih (hsingle i) h

theorem groupImports_induction {P : ImportGroup → Prop} (hsingle : ∀ i, P (.single i))
    (hpush : ∀ g i, P g → g.admits i → P (g.push i)) (h : g ∈ groupImports is) : P g := by
  unfold groupImports at h
  split at h
  · nomatch h
  · exact groupSorted_induction hsingle hpush (hsingle _) h

theorem uniform_of_mem_groupImports (h : g ∈ groupImports is) : g.Uniform :=
  groupImports_induction ImportGroup.uniform_single (fun _ _ hg => hg.push) h

/-- **One after the other, the statements have the sorted imports.** -/
theorem flatMap_groupImports (is : List Import) :
    (groupImports is).flatMap (·.imports) = is.mergeSort Import.le := by
  unfold groupImports
  split
  · next hnil => rw [hnil, List.flatMap_nil]
  · next j js hcons =>
      rw [hcons, flatMap_groupSorted, ImportGroup.single, List.singleton_append]

/-- **The statements for some imports have just these imports.** -/
theorem exists_mem_groupImports : (∃ g ∈ groupImports is, i ∈ g.imports) ↔ i ∈ is := by
  rw [← List.mem_flatMap, flatMap_groupImports, List.mem_mergeSort]

end ServiceStubs
