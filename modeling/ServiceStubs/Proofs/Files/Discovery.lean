import Mathlib.Data.List.Sort
import Mathlib.Data.String.Basic
import ServiceStubs.Files.Discovery
import ServiceStubs.Proofs.Collection.OrderedMap
import ServiceStubs.Proofs.Files.Tree

/-!
# What a search finds

A search comes to the files below a directory in the order of a depth-first walk that
visits the entries of each directory by name: where the ways to two files part, the
smaller name comes first.  It comes to each file once.  A directory whose path is too
long ends the way like a file.

## Main definitions

* `IsSchemaName` — a name of a schema file that a filter lets pass.
* `FileTree.WellNamed` — a tree in which each directory has entries of different names.
* `Precedes` — the order in which a walk by name comes to things.
* `FileTree.EndsAt` — the places at which a search ends.
* `Enumerates` — some names are, in order, those of the schema files that are found.
* `exists_enumerates` — there are such names for each tree.
-/

namespace ServiceStubs

open Text

variable {filter : Option (List String)} {path name : String} {names : List String}

/-! ## Names of schema files -/

/-- Whether a name is that of a schema file, and the filter lets it pass. -/
def IsSchemaName (filter : Option (List String)) (name : String) : Prop :=
  ∃ stem, stem ≠ "" ∧ name = stem ++ ".json" ∧ ∀ stems ∈ filter, stem ∈ stems

theorem stemAndExtension_append {stem ext : String} (hstem : stem ≠ "") (hext : '.' ∉ ext.toList) :
    stemAndExtension (stem ++ "." ++ ext) = (stem, some ext) := by
  obtain ⟨c, cs, hcs⟩ := List.exists_cons_of_ne_nil (mt String.toList_eq_nil_iff.mp hstem)
  have hname : (stem ++ "." ++ ext).toList = stem.toList ++ '.' :: ext.toList := by simp
  rw [stemAndExtension, hname, splitLast_append hext, hcs]
  dsimp only
  rw [← hcs, String.ofList_toList, String.ofList_toList]

theorem eq_append_of_extension? {ext : String} (h : extension? name = some ext) :
    stem name ≠ "" ∧ name = stem name ++ "." ++ ext := by
  by_cases hdot : '.' ∈ name.toList
  · obtain ⟨front, last, hname, hlast⟩ := exists_last hdot
    have hsplit : splitLast '.' name.toList = (some front, last) := by
      rw [hname, splitLast_append hlast]
    cases front with
    | nil => simp [extension?, stemAndExtension, hsplit] at h
    | cons c cs =>
        simp only [extension?, stemAndExtension, hsplit, Option.some.injEq] at h
        simp only [stem, stemAndExtension, hsplit, ← h]
        refine ⟨mt String.ofList_eq_empty_iff.mp (List.cons_ne_nil c cs), ?_⟩
        rw [← String.toList_inj, hname]
        simp
  · simp [extension?, stemAndExtension, splitLast_of_notMem hdot] at h

theorem isSchemaName_iff :
    IsSchemaName filter name ↔
      extension? name = some schemaExtension ∧ filter.all (·.contains (stem name)) := by
  have hpasses (s : String) :
      filter.all (·.contains s) ↔ ∀ stems ∈ filter, s ∈ stems := by
    cases filter <;> simp
  constructor
  · rintro ⟨s, hs, rfl, hfilter⟩
    have hparts : stemAndExtension (s ++ ".json") = (s, some schemaExtension) := by
      rw [← stemAndExtension_append hs (by decide), String.append_assoc]
      rfl
    rw [extension?, stem, hparts, hpasses]
    exact ⟨rfl, hfilter⟩
  · rintro ⟨hextension, hfilter⟩
    obtain ⟨hstem, hname⟩ := eq_append_of_extension? hextension
    exact ⟨stem name, hstem, hname.trans (String.append_assoc ..), (hpasses _).mp hfilter⟩

instance : Decidable (IsSchemaName filter name) :=
  decidable_of_iff _ isSchemaName_iff.symm

/-- At the path of a file this path is found, if it is that of a schema. -/
theorem filterMap_findingAt (filter : Option (List String)) (path : String) :
    (findingAt filter path).filterMap Finding.kept?
      = if IsSchemaName filter (fileName path) then [path] else [] := by
  simp only [isSchemaName_iff]
  by_cases hextension : extension? (fileName path) = some schemaExtension
  · rw [findingAt, if_neg (not_not.mpr hextension), passes]
    by_cases hfilter : filter.all (·.contains (stem (fileName path))) = true
    · rw [if_pos hfilter, if_pos ⟨hextension, hfilter⟩]
      rfl
    · rw [if_neg hfilter, if_neg fun h => hfilter h.2]
      rfl
  · rw [findingAt, if_pos hextension, if_neg fun h => hextension h.1]
    rfl

/-! ## Entries by name -/

section SortByName

variable {α β : Type} {entries : List (String × α)}

theorem mem_sortByName {e : String × α} : e ∈ sortByName entries ↔ e ∈ entries :=
  List.mem_mergeSort

/-- Entries with different names ascend when they are sorted. -/
theorem pairwise_sortByName (h : (entries.map Prod.fst).Nodup) :
    (sortByName entries).Pairwise fun a b => a.1 < b.1 := by
  have hle (a b : String × α) : !(decide (b.1 < a.1)) ↔ a.1 ≤ b.1 := by
    rw [Bool.not_eq_true', decide_eq_false_iff_not, not_lt]
  have hsorted : (sortByName entries).Pairwise fun a b => !(decide (b.1 < a.1)) := by
    refine List.pairwise_mergeSort (fun a b c => ?_) (fun a b => ?_) entries
    · rw [hle, hle, hle]
      exact le_trans
    · rw [Bool.or_eq_true, hle, hle]
      exact le_total a.1 b.1
  have hne : (sortByName entries).Pairwise fun a b => a.1 ≠ b.1 :=
    List.pairwise_map.mp (((List.mergeSort_perm entries _).map Prod.fst).nodup_iff.mpr h)
  exact (hsorted.and hne).imp fun ⟨hab, hne⟩ => lt_of_le_of_ne ((hle _ _).mp hab) hne

theorem sortByName_map (f : String × α → β) (entries : List (String × α)) :
    sortByName (entries.map fun e => (e.1, f e)) = (sortByName entries).map fun e => (e.1, f e) := by
  refine (List.map_mergeSort fun _ _ _ _ => ?_).symm
  rfl

end SortByName

/-! ## The way through a tree -/

theorem findingsOf_eq_map (filter : Option (List String)) (path : String)
    (entries : List (String × FileTree)) :
    findingsOf filter path entries
      = entries.map fun e => (e.1, findings filter (joinPath path e.1) e.2) := by
  induction entries with
  | nil => rfl
  | cons e entries ih => rw [findingsOf, ih, List.map_cons]

/-- Below a directory that can be followed is found what is found below its entries, by
name. -/
theorem discovered_directory (h : isTooLong path = false) (filter : Option (List String))
    (entries : List (String × FileTree)) :
    discovered filter path (.directory entries)
      = (sortByName entries).flatMap fun e => discovered filter (joinPath path e.1) e.2 := by
  rw [discovered, findings, if_neg (by simp [h]), findingsOf_eq_map,
    sortByName_map fun e => findings filter (joinPath path e.1) e.2, List.flatMap_map,
    List.filterMap_flatMap]
  rfl

namespace FileTree

/-- Each directory of the tree has entries with names of entries, no two of them the same. -/
inductive WellNamed : FileTree → Prop
  | file {content} : WellNamed (.file content)
  | directory {entries : List (String × FileTree)} (hnodup : (entries.map Prod.fst).Nodup)
      (hnames : ∀ e ∈ entries, IsEntryName e.1) (h : ∀ e ∈ entries, WellNamed e.2) :
      WellNamed (.directory entries)

theorem entry?_eq_some_iff {entries : List (String × FileTree)}
    (hnodup : (entries.map Prod.fst).Nodup) {e : FileTree} :
    entry? name (directory entries) = some e ↔ (name, e) ∈ entries :=
  OrderedMap.get?_eq_some_iff (m := ⟨entries, hnodup⟩)

theorem exists_entry?_of_get? {t found : FileTree} (h : t.get? (name :: names) = some found) :
    ∃ e, entry? name t = some e ∧ e.get? names = some found := by
  rw [get?_cons] at h
  exact Option.bind_eq_some_iff.mp h

/-- Names that lead somewhere are names of entries. -/
theorem WellNamed.isEntryName {t found : FileTree} (ht : t.WellNamed)
    (h : t.get? names = some found) : ∀ name ∈ names, IsEntryName name := by
  induction names generalizing t with
  | nil => exact List.forall_mem_nil _
  | cons name names ih =>
      obtain ⟨e, hentry, hrest⟩ := exists_entry?_of_get? h
      cases ht with
      | file => exact nomatch hentry
      | @directory entries hnodup hnames hbelow =>
          have hmem := (entry?_eq_some_iff hnodup).mp hentry
          exact List.forall_mem_cons.mpr ⟨hnames _ hmem, ih (hbelow _ hmem) hrest⟩

/-- Whether a search below a path ends at some names: the way there leads through
directories whose paths can be followed, to a file or to a directory whose path cannot. -/
structure EndsAt (t : FileTree) (path : String) (names : List String) : Prop where
  onWay : ∀ init name rest, names = init ++ name :: rest → isTooLong (pathTo path init) = false
  last : (∃ content, t.get? names = some (file content)) ∨
    isTooLong (pathTo path names) ∧ ∃ entries, t.get? names = some (directory entries)

variable {t : FileTree}

theorem EndsAt.exists_get? (h : t.EndsAt path names) : ∃ found, t.get? names = some found := by
  rcases h.last with ⟨_, hget⟩ | ⟨-, _, hget⟩ <;> exact ⟨_, hget⟩

theorem endsAt_nil : t.EndsAt path [] ↔
    (∃ content, t = file content) ∨ isTooLong path ∧ ∃ entries, t = directory entries := by
  have hget : t.get? [] = some t := rfl
  constructor
  · exact fun h => by simpa [hget] using h.last
  · exact fun h => ⟨fun init name rest hnil => by simp at hnil, by simpa [hget] using h⟩

theorem endsAt_cons : t.EndsAt path (name :: names) ↔
    isTooLong path = false ∧
      ∃ e, entry? name t = some e ∧ e.EndsAt (joinPath path name) names := by
  constructor
  · intro h
    obtain ⟨found, hget⟩ := h.exists_get?
    obtain ⟨e, hentry, -⟩ := exists_entry?_of_get? hget
    refine ⟨h.onWay [] name names rfl, e, hentry, fun init m rest hnames => ?_, ?_⟩
    · exact h.onWay (name :: init) m rest (by rw [hnames, List.cons_append])
    · simpa [get?_cons, hentry] using h.last
  · rintro ⟨hpath, e, hentry, honWay, hlast⟩
    refine ⟨fun init m rest hnames => ?_, by simpa [get?_cons, hentry] using hlast⟩
    cases init with
    | nil => exact hpath
    | cons m' init =>
        obtain ⟨rfl, hrest⟩ := List.cons.inj hnames
        exact honWay init m rest hrest

/-- If the paths of all directories can be followed, a search ends at the files. -/
theorem endsAt_iff_file (h : ∀ names entries, t.get? names = some (directory entries) →
      isTooLong (pathTo path names) = false) :
    t.EndsAt path names ↔ ∃ content, t.get? names = some (file content) := by
  constructor
  · intro hends
    rcases hends.last with hfile | ⟨hlong, entries, hdirectory⟩
    · exact hfile
    · exact absurd hlong (by simp [h names entries hdirectory])
  · rintro ⟨content, hfile⟩
    refine ⟨fun init name rest hnames => ?_, .inl ⟨content, hfile⟩⟩
    -- What has an entry on the way is a directory.
    rw [hnames, get?_append] at hfile
    obtain ⟨d, hinit, hrest⟩ := Option.bind_eq_some_iff.mp hfile
    obtain ⟨e, hentry, -⟩ := exists_entry?_of_get? hrest
    cases d with
    | file => exact nomatch hentry
    | directory entries => exact h init entries hinit

end FileTree

/-- Where a search ends, at most the path to there is found. -/
theorem discovered_of_endsAt {t : FileTree} (h : t.EndsAt path []) :
    discovered filter path t = if IsSchemaName filter (fileName path) then [path] else [] := by
  rw [← filterMap_findingAt, discovered]
  rcases FileTree.endsAt_nil.mp h with ⟨content, rfl⟩ | ⟨hlong, entries, rfl⟩
  · rw [findings]
  · rw [findings, if_pos hlong]

/-- The last of the names at which a search in a directory ends says whether its path is
that of a schema file. -/
theorem isSchemaName_fileName_iff {entries : List (String × FileTree)}
    (hpath : isTooLong path = false) (ht : (FileTree.directory entries).WellNamed)
    (hends : (FileTree.directory entries).EndsAt path names) :
    IsSchemaName filter (fileName (pathTo path names)) ↔
      ∃ way name, names = way ++ [name] ∧ IsSchemaName filter name := by
  obtain ⟨found, hget⟩ := hends.exists_get?
  rcases List.eq_nil_or_concat' names with rfl | ⟨way, name, rfl⟩
  · exact absurd (FileTree.endsAt_nil.mp hends) (by simp [hpath])
  · have hname : IsEntryName name := ht.isEntryName hget name (by simp)
    rw [pathTo_concat, fileName_joinPath hname]
    constructor
    · exact fun h => ⟨way, name, rfl, h⟩
    · rintro ⟨way', name', heq, h⟩
      obtain rfl : name = name' := by simpa using congrArg List.getLast? heq
      exact h

/-! ## The order of a walk -/

/-- Whether a depth-first walk that visits the entries of each directory by name comes to
some names before others: where the ways part, it goes to the smaller name first. -/
def Precedes (names others : List String) : Prop :=
  ∃ way a b rest rest', a < b ∧ names = way ++ a :: rest ∧ others = way ++ b :: rest'

theorem Precedes.cons {others : List String} (h : Precedes names others) (name : String) :
    Precedes (name :: names) (name :: others) :=
  have ⟨way, a, b, rest, rest', hab, hnames, hothers⟩ := h
  ⟨name :: way, a, b, rest, rest', hab, congrArg _ hnames, congrArg _ hothers⟩

theorem precedes_of_lt {a b : String} (h : a < b) (rest rest' : List String) :
    Precedes (a :: rest) (b :: rest') :=
  ⟨[], a, b, rest, rest', h, rfl, rfl⟩

theorem Precedes.ne {others : List String} (h : Precedes names others) : names ≠ others := by
  obtain ⟨way, a, b, rest, rest', hab, rfl, rfl⟩ := h
  intro heq
  exact hab.ne (List.cons.inj (List.append_cancel_left heq)).1

/-! ## What is found -/

/-- Some names are, in the order of a walk, those of the schema files that are found below
a path. -/
structure Enumerates (filter : Option (List String)) (path : String) (t : FileTree)
    (found : List (List String)) : Prop where
  paths : discovered filter path t = found.map (pathTo path)
  ordered : found.Pairwise Precedes
  mem_iff : ∀ names, names ∈ found ↔
    t.EndsAt path names ∧ IsSchemaName filter (fileName (pathTo path names))

namespace Enumerates

variable {t : FileTree} {found : List (List String)}

/-- Where a search ends, it has found nothing but the path to there. -/
theorem of_endsAt (h : t.EndsAt path []) : Enumerates filter path t
    (if IsSchemaName filter (fileName path) then [[]] else []) where
  paths := by
    rw [discovered_of_endsAt h]
    split <;> rfl
  ordered := by
    split
    · exact List.pairwise_singleton _ _
    · exact List.Pairwise.nil
  mem_iff names := by
    have hend : t.EndsAt path names ↔ names = [] := by
      refine ⟨fun hnames => ?_, fun hnil => hnil ▸ h⟩
      cases names with
      | nil => rfl
      | cons name names =>
          obtain ⟨hpath, e, hentry, -⟩ := FileTree.endsAt_cons.mp hnames
          rcases FileTree.endsAt_nil.mp h with ⟨content, rfl⟩ | ⟨hlong, -⟩
          · exact nomatch hentry
          · exact absurd hlong (by simp [hpath])
    rw [hend]
    split <;> simp_all

/-- What is found below the entries of a directory, each time behind the name of the entry
and entry by entry in the order of their names, is found below the directory. -/
theorem directory {entries : List (String × FileTree)} (hpath : isTooLong path = false)
    (hnodup : (entries.map Prod.fst).Nodup) {below : String × FileTree → List (List String)}
    (h : ∀ e ∈ entries, Enumerates filter (joinPath path e.1) e.2 (below e)) :
    Enumerates filter path (.directory entries)
      ((sortByName entries).flatMap fun e => (below e).map (e.1 :: ·)) where
  paths := by
    rw [discovered_directory hpath, List.map_flatMap]
    refine List.flatMap_congr fun e he => ?_
    rw [(h e (mem_sortByName.mp he)).paths, List.map_map]
    rfl
  ordered := by
    -- Below one entry the ways part later, below two entries they part at their names.
    rw [List.pairwise_flatMap]
    refine ⟨fun e he => ?_, (pairwise_sortByName hnodup).imp fun hab x hx y hy => ?_⟩
    · exact List.pairwise_map.mpr
        ((h e (mem_sortByName.mp he)).ordered.imp fun hnames => hnames.cons e.1)
    · obtain ⟨x, -, rfl⟩ := List.mem_map.mp hx
      obtain ⟨y, -, rfl⟩ := List.mem_map.mp hy
      exact precedes_of_lt hab x y
  mem_iff names := by
    simp only [List.mem_flatMap, mem_sortByName, List.mem_map]
    cases names with
    | nil => simp [FileTree.endsAt_nil, hpath]
    | cons name names =>
        rw [FileTree.endsAt_cons]
        constructor
        · rintro ⟨⟨m, e⟩, he, rest, hrest, heq⟩
          obtain ⟨rfl, rfl⟩ := List.cons.inj heq
          obtain ⟨hends, hschema⟩ := ((h _ he).mem_iff rest).mp hrest
          exact ⟨⟨hpath, e, (FileTree.entry?_eq_some_iff hnodup).mpr he, hends⟩, hschema⟩
        · rintro ⟨⟨-, e, hentry, hends⟩, hschema⟩
          have he := (FileTree.entry?_eq_some_iff hnodup).mp hentry
          exact ⟨(name, e), he, names, ((h _ he).mem_iff names).mpr ⟨hends, hschema⟩, rfl⟩

/-- No path is found twice. -/
theorem nodup_paths (h : Enumerates filter path t found) (ht : t.WellNamed) :
    (found.map (pathTo path)).Nodup := by
  refine List.pairwise_map.mpr (h.ordered.imp_of_mem fun {names others} hnames hothers hbefore => ?_)
  obtain ⟨_, hget⟩ := ((h.mem_iff names).mp hnames).1.exists_get?
  obtain ⟨_, hget'⟩ := ((h.mem_iff others).mp hothers).1.exists_get?
  exact mt (pathTo_inj (ht.isEntryName hget) (ht.isEntryName hget')).mp hbefore.ne

end Enumerates

/-- **Whatever the tree, what is found below a path are the schema files below it**, in
the order of a walk by name. -/
theorem exists_enumerates {t : FileTree} (ht : t.WellNamed) (filter : Option (List String))
    (path : String) : ∃ found, Enumerates filter path t found := by
  -- The path grows on the way down, so the induction on the tree is for all paths.
  induction ht generalizing path with
  | @file content => exact ⟨_, .of_endsAt (FileTree.endsAt_nil.mpr (.inl ⟨content, rfl⟩))⟩
  | @directory entries hnodup _ _ ih =>
      cases hpath : isTooLong path with
      | true => exact ⟨_, .of_endsAt (FileTree.endsAt_nil.mpr (.inr ⟨hpath, entries, rfl⟩))⟩
      | false =>
          choose! below hbelow using ih
          exact ⟨_, .directory hpath hnodup fun e he => hbelow e he (joinPath path e.1)⟩

end ServiceStubs
