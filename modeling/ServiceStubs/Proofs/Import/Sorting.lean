import Mathlib.Data.List.Sort
import Mathlib.Data.Prod.Lex
import Mathlib.Data.String.Basic
import ServiceStubs.Proofs.Import.Group

/-!
# Statements of sorted imports

Imports are sorted by module and name, and only neighbours are written in one statement.
That is enough: what is imported of one module stands together, and an empty name comes
before all others, so the import of the whole module stands in front of the names that are
imported of it.  When a statement of names is left, no more names of its module follow.

## Main definitions

* `SortedStably` — a list in order, in which what has one key keeps its order.
* `SortedStably.unique` — there is just one such list.
* `ImportGroup.Proper`, `Grouped` — what holds of one statement, and of all of them.
* `grouped_groupImports` — the statements for any imports, and for those of the statements.
-/

namespace ServiceStubs

namespace Import

/-! ## The order of imports -/

/-- The module and the name of an import, compared one after the other. -/
def place (i : Import) : String ×ₗ String :=
  toLex (i.source.path, i.name)

variable {i j k : Import}

theorem key_eq_iff : i.key = j.key ↔ i.place = j.place := by
  simp [key, place]

theorem key_lt_iff : i.key < j.key ↔ i.place < j.place := by
  rw [place, place, Prod.Lex.toLex_lt_toLex]
  rfl

theorem le_iff : i.le j ↔ i.place ≤ j.place := by
  rw [le, Bool.not_eq_true', decide_eq_false_iff_not, key_lt_iff]
  exact not_lt

theorem le_trans (i j k : Import) (hij : i.le j) (hjk : j.le k) : i.le k :=
  le_iff.mpr ((le_iff.mp hij).trans (le_iff.mp hjk))

theorem le_total (i j : Import) : (i.le j || j.le i) = true := by
  rw [Bool.or_eq_true, le_iff, le_iff]
  exact LinearOrder.le_total _ _

/-- Between imports of one module there are only imports of this module. -/
theorem source_eq_of_between (hij : i.le j) (hjk : j.le k) (hik : i.source = k.source) :
    i.source = j.source := by
  have hpath : ∀ {i j : Import}, i.le j → i.source.path ≤ j.source.path := by
    intro i j h
    rcases Prod.Lex.toLex_le_toLex.mp (le_iff.mp h) with hlt | ⟨heq, -⟩
    · exact le_of_lt hlt
    · exact le_of_eq heq
  have hback : j.source.path ≤ i.source.path := hik ▸ hpath hjk
  exact congrArg ModulePath.mk (le_antisymm (hpath hij) hback)

/-- Behind a name that is not empty there is no empty name of the same module. -/
theorem name_ne_of_le (hij : i.le j) (hsource : i.source = j.source) (hname : i.name ≠ "") :
    j.name ≠ "" := by
  rcases Prod.Lex.toLex_le_toLex.mp (le_iff.mp hij) with hlt | ⟨-, hle⟩
  · exact absurd (congrArg ModulePath.path hsource) (ne_of_lt hlt)
  · rintro hempty
    have hlt : "" < i.name := by
      obtain ⟨c, cs, hcs⟩ := List.exists_cons_of_ne_nil (mt String.toList_eq_nil_iff.mp hname)
      rw [String.lt_iff_toList_lt, hcs]
      exact List.nil_lt_cons c cs
    exact absurd (hempty ▸ hle : i.name ≤ "") (not_le.mpr hlt)

end Import

/-! ## Stable sorting -/

/-- The list `js` is `is` in the order of modules and names, where imports that agree in
both keep their order. -/
structure SortedStably (is js : List Import) : Prop where
  sorted : js.Pairwise fun i j => ¬ j.key < i.key
  stable : ∀ k, js.filter (·.key = k) = is.filter (·.key = k)

theorem pairwise_le_iff {is : List Import} :
    (is.Pairwise fun i j => ¬ j.key < i.key) ↔ is.Pairwise fun i j => i.le j := by
  simp [Import.le]

namespace SortedStably

variable {is js ks : List Import}

/-- Lists that agree for each key have the same imports, each as often. -/
theorem perm_of_filter_eq (h : ∀ k, js.filter (·.key = k) = ks.filter (·.key = k)) :
    js.Perm ks := by
  refine List.perm_iff_count.mpr fun i => ?_
  rw [← List.count_filter (p := (·.key = i.key)) (by simp), h, List.count_filter (by simp)]

/-- Lists in order that agree for each key agree. -/
theorem eq_of_filter_eq (hjs : js.Pairwise fun i j => i.le j) (hks : ks.Pairwise fun i j => i.le j)
    (h : ∀ k, js.filter (·.key = k) = ks.filter (·.key = k)) : js = ks := by
  induction js generalizing ks with
  | nil => exact (perm_of_filter_eq h).nil_eq
  | cons j js ih =>
      cases ks with
      | nil => exact absurd (perm_of_filter_eq h).symm.nil_eq (by simp)
      | cons k ks =>
          have hmem : ∀ i, i ∈ j :: js ↔ i ∈ k :: ks := fun i => (perm_of_filter_eq h).mem_iff
          rw [List.pairwise_cons] at hjs hks
          -- each of the two heads stands in both lists, so neither comes before the other
          have hjk : j.place ≤ k.place := by
            rcases List.mem_cons.mp ((hmem k).mpr List.mem_cons_self) with rfl | hk
            · exact le_rfl
            · exact Import.le_iff.mp (hjs.1 k hk)
          have hkj : k.place ≤ j.place := by
            rcases List.mem_cons.mp ((hmem j).mp List.mem_cons_self) with rfl | hj
            · exact le_rfl
            · exact Import.le_iff.mp (hks.1 j hj)
          have hkey : j.key = k.key := Import.key_eq_iff.mpr (le_antisymm hjk hkj)
          have hhead := h j.key
          simp only [hkey, decide_true, List.filter_cons_of_pos, List.cons.injEq] at hhead
          obtain ⟨rfl, -⟩ := hhead
          have htail : ∀ key, js.filter (·.key = key) = ks.filter (·.key = key) := by
            intro key
            have hcons := h key
            by_cases hj : j.key = key
            · simpa [hj] using hcons
            · simpa [hj] using hcons
          rw [ih hjs.2 hks.2 htail]

/-- There is just one list in which imports are sorted stably. -/
theorem unique (hjs : SortedStably is js) (hks : SortedStably is ks) : js = ks :=
  eq_of_filter_eq (pairwise_le_iff.mp hjs.sorted) (pairwise_le_iff.mp hks.sorted) fun k =>
    (hjs.stable k).trans (hks.stable k).symm

end SortedStably

/-- Merging sorted halves sorts imports. -/
theorem Import.pairwise_mergeSort (is : List Import) :
    (is.mergeSort Import.le).Pairwise fun i j => i.le j :=
  List.pairwise_mergeSort Import.le_trans Import.le_total is

/-- Imports that agree in module and name keep their order, as they are in order already. -/
theorem Import.filter_mergeSort (is : List Import) (k : ImportKey) :
    (is.mergeSort Import.le).filter (·.key = k) = is.filter (·.key = k) := by
  have hequal : (is.filter (·.key = k)).Pairwise fun i j => i.le j := by
    refine List.pairwise_of_forall_mem_list fun i hi j hj => ?_
    have hij : i.key = j.key := by simp_all
    exact Import.le_iff.mpr (le_of_eq (Import.key_eq_iff.mp hij))
  have hsub := List.sublist_mergeSort Import.le_trans Import.le_total hequal List.filter_sublist
  have hsub := hsub.filter (·.key = k)
  rw [List.filter_filter] at hsub
  have hperm := (List.mergeSort_perm is Import.le).filter (·.key = k)
  refine (List.Sublist.eq_of_length ?_ hperm.length_eq.symm).symm
  simpa using hsub

theorem sortedStably_mergeSort (is : List Import) : SortedStably is (is.mergeSort Import.le) :=
  ⟨pairwise_le_iff.mpr (Import.pairwise_mergeSort is), Import.filter_mergeSort is⟩

/-! ## Statements -/

namespace ImportGroup

/-- The statement is about one module, which it imports as a whole or by some of its
names. -/
structure Proper (g : ImportGroup) : Prop where
  uniform : g.Uniform
  imports_ne : g.imports ≠ []
  alone : ∀ i ∈ g.imports, i.name = "" → g.imports = [i]

/-- The statement imports names. -/
def Named (g : ImportGroup) : Prop :=
  ∃ i ∈ g.imports, i.name ≠ ""

variable {g : ImportGroup} {i : Import}

theorem proper_single (i : Import) : (single i).Proper where
  uniform := uniform_single i
  imports_ne := List.cons_ne_nil i []
  alone j hj _ := by rw [List.mem_singleton.mp hj, single]

/-- The first import tells whether a statement imports names. -/
theorem Proper.admits_iff (hg : g.Proper) :
    g.admits i ↔ g.source = i.source ∧ g.Named ∧ i.name ≠ "" := by
  have hhead : (g.imports.head?.any (·.name ≠ "")) ↔ g.Named := by
    obtain ⟨first, rest, hcons⟩ := List.exists_cons_of_ne_nil hg.imports_ne
    simp only [hcons, List.head?_cons, Option.any_some, decide_eq_true_eq]
    constructor
    · exact fun hname => ⟨first, by simp [hcons], hname⟩
    · rintro ⟨j, hj, hname⟩ hempty
      rw [hg.alone first (by simp [hcons]) hempty, List.mem_singleton] at hj
      exact hname (hj ▸ hempty)
  rw [admits, Bool.and_eq_true, Bool.and_eq_true, hhead, decide_eq_true_eq, decide_eq_true_eq,
    and_assoc]

theorem Proper.push (hg : g.Proper) (hadmits : g.admits i) : (g.push i).Proper where
  uniform := hg.uniform.push hadmits
  imports_ne := by simp [ImportGroup.push]
  alone j hj hname := by
    obtain ⟨-, ⟨k, hk, hknown⟩, hi⟩ := hg.admits_iff.mp hadmits
    rcases List.mem_append.mp hj with hj | hj
    · rw [hg.alone j hj hname, List.mem_singleton] at hk
      exact absurd (hk ▸ hname) hknown
    · exact absurd (List.mem_singleton.mp hj ▸ hname) hi

end ImportGroup

variable {g : ImportGroup} {is : List Import}

theorem proper_of_mem_groupImports (h : g ∈ groupImports is) : g.Proper :=
  groupImports_induction ImportGroup.proper_single (fun _ _ hg => hg.push) h

/-- **Behind a statement of names there is none of the same module.**  While a statement is
being filled, it and the imports that are left are in order. -/
theorem pairwise_groupSorted (hg : g.Proper)
    (hsorted : (g.imports ++ is).Pairwise fun i j => i.le j) :
    (groupSorted g is).Pairwise fun g h => g.source = h.source → ¬ g.Named := by
  induction is generalizing g with
  | nil => exact List.pairwise_singleton _ _
  | cons i is ih =>
      rw [groupSorted]
      split
      · next hadmits =>
          apply ih (hg.push hadmits)
          rwa [ImportGroup.push, List.append_assoc, List.singleton_append]
      · next hadmits =>
          have hrest : (i :: is).Pairwise fun i j => i.le j := hsorted.sublist (by simp)
          refine List.pairwise_cons.mpr ⟨?_, ih (ImportGroup.proper_single i) hrest⟩
          rintro h hmem hsource ⟨k, hk, hname⟩
          -- some import `j` that is left is of the module, so `i` is, and it joins the names
          have hproper : h.Proper :=
            groupSorted_induction ImportGroup.proper_single (fun _ _ hg => hg.push)
              (ImportGroup.proper_single i) hmem
          obtain ⟨j, hj⟩ := List.exists_mem_of_ne_nil _ hproper.imports_ne
          have hleft : j ∈ i :: is := by
            have hflat := flatMap_groupSorted (.single i) is
            rw [ImportGroup.single, List.singleton_append] at hflat
            exact hflat ▸ List.mem_flatMap.mpr ⟨h, hmem, hj⟩
          have hki : k.le i := (List.pairwise_append.mp hsorted).2.2 k hk i List.mem_cons_self
          have hij : i.le j := by
            rcases List.mem_cons.mp hleft with rfl | hj
            · exact Import.le_iff.mpr le_rfl
            · exact (List.pairwise_cons.mp hrest).1 j hj
          have hkj : k.source = j.source :=
            (hg.uniform k hk).trans (hsource.trans (hproper.uniform j hj).symm)
          have hi : k.source = i.source := Import.source_eq_of_between hki hij hkj
          refine hadmits (hg.admits_iff.mpr ⟨?_, ⟨k, hk, hname⟩, ?_⟩)
          · exact (hg.uniform k hk).symm.trans hi
          · exact Import.name_ne_of_le hki hi hname

theorem pairwise_groupImports (is : List Import) :
    (groupImports is).Pairwise fun g h => g.source = h.source → ¬ g.Named := by
  have hsorted := Import.pairwise_mergeSort is
  unfold groupImports
  split
  · exact .nil
  · next i is hcons =>
      rw [hcons] at hsorted
      exact pairwise_groupSorted (ImportGroup.proper_single i) hsorted

/-- The statements `gs` have the imports `is`. -/
structure Grouped (is : List Import) (gs : List ImportGroup) : Prop where
  /-- They have the imports with their aliases, and each as often as it is there. -/
  perm : (gs.flatMap (·.imports)).Perm is
  /-- One after the other, they have the only list in which the imports are sorted stably. -/
  sorted : ∀ js, SortedStably is js ↔ js = gs.flatMap (·.imports)
  nonempty : ∀ g ∈ gs, g.imports ≠ []
  source : ∀ g ∈ gs, ∀ i ∈ g.imports, i.source = g.source
  names : ∀ g ∈ gs, 1 < g.imports.length → ∀ i ∈ g.imports, i.name ≠ ""
  alone : ∀ g ∈ gs, ∀ i ∈ g.imports, i.name = "" → g.imports = [i]
  /-- No whole module is imported behind names of it. -/
  precedes : gs.Pairwise fun g h => g.Named → ¬ h.Named → g.source ≠ h.source
  once : gs.Pairwise fun g h => g.Named → h.Named → g.source ≠ h.source

/-- **Grouping sorts imports stably and loses none of them**: what is imported of a module
by name is in one statement, behind those of the whole module, each of which stands alone;
and the imports of all statements are grouped the same way again. -/
theorem grouped_groupImports (is : List Import) :
    Grouped is (groupImports is) ∧
      groupImports ((groupImports is).flatMap (·.imports)) = groupImports is := by
  constructor
  · exact {
      perm := flatMap_groupImports is ▸ List.mergeSort_perm is Import.le
      sorted := by
        intro js
        rw [flatMap_groupImports]
        constructor
        · exact fun hjs => hjs.unique (sortedStably_mergeSort is)
        · exact fun heq => heq ▸ sortedStably_mergeSort is
      nonempty := fun g hg => (proper_of_mem_groupImports hg).imports_ne
      source := fun g hg => (proper_of_mem_groupImports hg).uniform
      names := by
        intro g hg hlength i hi hname
        rw [(proper_of_mem_groupImports hg).alone i hi hname] at hlength
        exact absurd hlength (Nat.lt_irrefl 1)
      alone := fun g hg => (proper_of_mem_groupImports hg).alone
      precedes := (pairwise_groupImports is).imp fun h hnamed _ heq => h heq hnamed
      once := (pairwise_groupImports is).imp fun h hnamed _ heq => h heq hnamed }
  · have hagain : (is.mergeSort Import.le).mergeSort Import.le = is.mergeSort Import.le :=
      List.mergeSort_of_pairwise (Import.pairwise_mergeSort is)
    rw [flatMap_groupImports, groupImports, hagain, ← groupImports]

end ServiceStubs
