import ServiceStubs.Command.Run
import ServiceStubs.Proofs.Files.Discovery

/-!
# The search of a run

A run that is given a directory searches it before anything is generated.  The search
finds all schema files below the directory, each once and nothing else, in the order of
a walk that visits the entries of each directory by name.  It asks only whether a path
leads to a directory, and the path of a directory that is too long does not: such a
directory counts as a file, and what is in it is missed.

## Main definitions

* `discover_walks` — what a search finds, and in which order.
* `schema_missed` — a schema that is missed, because the path to its directory is too
  long.
-/

namespace ServiceStubs

/-- What is searched is a directory, and its path can be followed. -/
theorem FileTree.directory?_eq_some {disk t : FileTree} {path : String}
    (h : disk.directory? path = some t) :
    isTooLong path = false ∧ ∃ entries, t = directory entries := by
  rw [directory?] at h
  cases hlookup : disk.lookup path with
  | error e => simp [hlookup] at h
  | ok found =>
      obtain ⟨names, hlocate, -⟩ := lookup_eq_ok_iff.mp hlookup
      obtain ⟨ss, hsteps, -⟩ := bind_eq_ok_iff.mp hlocate
      refine ⟨isTooLong_of_steps hsteps, ?_⟩
      cases found with
      | file content => simp [hlookup, isDirectory] at h
      | directory entries =>
          obtain rfl : directory entries = t := by simpa [hlookup, isDirectory] using h
          exact ⟨entries, rfl⟩

namespace Command

variable {disk t : FileTree} {s : Selection} {path : String}

/-- A search leaves the files as they are. -/
theorem run_discover (hpath : s.directory = some path) (hdisk : disk.directory? path = some t) :
    (discover Disk.ofTree s).run disk = (.ok (some (findings s.filter path t)), disk) := by
  have hrun : (Disk.ofTree.directory? path).run disk = (disk.directory? path, disk) := rfl
  rw [discover, hpath]
  dsimp only
  rw [StateT.run_bind, hrun, hdisk]
  rfl

/-- **A search finds just the schema files below a directory that the filter lets pass**,
each once, in the order of a walk by name.  A directory whose path is too long counts as
a file; if there is none, what is found are files. -/
theorem discover_walks (hpath : s.directory = some path) (hdisk : disk.directory? path = some t)
    (ht : t.WellNamed) :
    (discover Disk.ofTree s).run disk = (.ok (some (findings s.filter path t)), disk) ∧
    ∃ found : List (List String),
      discovered s.filter path t = found.map (pathTo path) ∧
      (found.map (pathTo path)).Nodup ∧
      found.Pairwise Precedes ∧
      (∀ names, names ∈ found ↔
        t.EndsAt path names ∧ ∃ way name, names = way ++ [name] ∧ IsSchemaName s.filter name) ∧
      ((∀ names entries, t.get? names = some (.directory entries) →
          isTooLong (pathTo path names) = false) →
        ∀ names, names ∈ found ↔
          (∃ content, t.get? names = some (.file content)) ∧
            ∃ way name, names = way ++ [name] ∧ IsSchemaName s.filter name) := by
  obtain ⟨hshort, entries, rfl⟩ := FileTree.directory?_eq_some hdisk
  obtain ⟨found, hfound⟩ := exists_enumerates ht s.filter path
  have hmem (names : List String) := (hfound.mem_iff names).trans
    (and_congr_right (isSchemaName_fileName_iff hshort ht))
  refine ⟨run_discover hpath hdisk, found, hfound.paths, hfound.nodup_paths ht, hfound.ordered,
    hmem, fun hfollowed names => ?_⟩
  rw [hmem, FileTree.endsAt_iff_file hfollowed]

/-- A directory with two schemas, and with another one below a directory that is named like
a schema. -/
def cupboard : FileTree :=
  .directory [("lid.json", .file ""), ("box.json", .directory [("lid.json", .file "")]),
    ("tray.json", .file "")]

theorem wellNamed_cupboard : cupboard.WellNamed := by
  refine .directory (by decide) (by decide) fun e he => ?_
  simp only [List.mem_cons, List.not_mem_nil, or_false] at he
  rcases he with rfl | rfl | rfl
  · exact .file
  · exact .directory (by decide) (by decide) fun e he => List.mem_singleton.mp he ▸ .file
  · exact .file

/-- The search of the cupboard for lids and boxes. -/
def cupboardSearch : Selection where
  schemas := []
  directory := some "cupboard"
  filter := some ["lid", "box"]
  output := "out"
  config := none

/-- In the cupboard are found two lids, but neither the directory of the one nor the tray. -/
theorem cupboard_walked :
    cupboardSearch.directory = some "cupboard" ∧
    (FileTree.directory [("cupboard", cupboard)]).directory? "cupboard" = some cupboard ∧
    cupboard.WellNamed ∧
    ∃ found : List (List String),
      discovered cupboardSearch.filter "cupboard" cupboard = found.map (pathTo "cupboard") ∧
      found.Pairwise Precedes ∧
      ["box.json", "lid.json"] ∈ found ∧ ["lid.json"] ∈ found ∧
      ["box.json"] ∉ found ∧ ["tray.json"] ∉ found := by
  have hpath : cupboardSearch.directory = some "cupboard" := rfl
  have hdisk : (FileTree.directory [("cupboard", cupboard)]).directory? "cupboard"
      = some cupboard := rfl
  obtain ⟨-, found, hpaths, -, hordered, hmem, -⟩ := discover_walks hpath hdisk wellNamed_cupboard
  have hlid : IsSchemaName cupboardSearch.filter "lid.json" := by decide
  refine ⟨hpath, hdisk, wellNamed_cupboard, found, hpaths, hordered, ?_, ?_, fun h => ?_,
    fun h => ?_⟩
  · refine (hmem _).mpr ⟨?_, ["box.json"], "lid.json", rfl, hlid⟩
    refine FileTree.endsAt_cons.mpr ⟨by decide, _, rfl, FileTree.endsAt_cons.mpr ?_⟩
    exact ⟨by decide, _, rfl, FileTree.endsAt_nil.mpr (.inl ⟨_, rfl⟩)⟩
  · refine (hmem _).mpr ⟨?_, [], "lid.json", rfl, hlid⟩
    exact FileTree.endsAt_cons.mpr ⟨by decide, _, rfl, FileTree.endsAt_nil.mpr (.inl ⟨_, rfl⟩)⟩
  · obtain ⟨-, e, hentry, hends⟩ := FileTree.endsAt_cons.mp ((hmem _).mp h).1
    obtain rfl := Option.some.inj hentry
    rcases FileTree.endsAt_nil.mp hends with ⟨_, hfile⟩ | ⟨hlong, -⟩
    · exact nomatch hfile
    · exact absurd hlong (by decide)
  · obtain ⟨-, way, name, hnames, hname⟩ := (hmem _).mp h
    obtain rfl : "tray.json" = name := by simpa using congrArg List.getLast? hnames
    exact absurd hname (by decide)

/-! ## A schema that is missed -/

/-- A path to a directory, with steps behind it that stay there. -/
def detour : Nat → String
  | 0 => "d"
  | n + 1 => detour n ++ "/."

theorem splitOn_detour (n : Nat) : Text.splitOn '/' (detour n) = "d" :: List.replicate n "." := by
  induction n with
  | zero => rfl
  | succ n ih =>
      have hpath : detour (n + 1) = .ofList ((detour n).toList ++ '/' :: ['.']) := by
        rw [detour, ← String.toList_inj]
        simp
      rw [hpath, Text.splitOn_ofList_append, String.ofList_toList, ih, List.replicate_succ']
      rfl

theorem toList_detour (n : Nat) :
    (detour n).toList = 'd' :: (List.replicate n ['/', '.']).flatten := by
  induction n with
  | zero => rfl
  | succ n ih =>
      rw [detour, String.toList_append, ih, List.replicate_succ', List.flatten_append]
      rfl

theorem utf8ByteSize_detour (n : Nat) : (detour n).utf8ByteSize = 2 * n + 1 := by
  induction n with
  | zero => rfl
  | succ n ih =>
      have hstep : "/.".utf8ByteSize = 2 := rfl
      rw [detour, String.utf8ByteSize_append, ih, hstep]
      omega

theorem steps_detour {n : Nat} (h : isTooLong (detour n) = false) :
    steps (detour n) = .ok (.down "d" :: List.replicate n .stay) := by
  have hempty : detour n ≠ "" := by
    rw [Ne, ← String.toList_inj, toList_detour]
    exact List.cons_ne_nil _ _
  have habsolute : isAbsolutePath (detour n) = false := by
    rw [isAbsolutePath, toList_detour]
    rfl
  rw [steps, if_neg (by simp [toList_detour]), if_neg (by simp [h]),
    if_neg (by simp [hempty, habsolute]), splitOn_detour, List.map_cons, List.map_replicate]
  rfl

/-- A directory of boxes, with a schema in it. -/
def rack : FileTree :=
  .directory [("boxes", .directory [("lid.json", .file "")])]

/-- The files of which the rack is a directory. -/
def cellar : FileTree :=
  .directory [("d", rack)]

theorem directory?_detour {n : Nat} (h : isTooLong (detour n) = false) :
    cellar.directory? (detour n) = some rack := by
  have hstays : (List.replicate n Step.stay).foldlM cellar.follow ["d"] = .ok ["d"] := by
    clear h
    induction n with
    | zero => rfl
    | succ n ih => exact ih
  have hlocate : cellar.locate (detour n) = .ok ["d"] := by
    rw [FileTree.locate, steps_detour h]
    exact hstays
  rw [FileTree.directory?, FileTree.lookup, hlocate]
  rfl

/-- The search of the cellar on a detour that can just be followed. -/
def cellarSearch : Selection where
  schemas := []
  directory := some (detour 2046)
  filter := none
  output := "out"
  config := none

/-- Nothing is found in the rack, if the path to the boxes is too long. -/
theorem findings_rack (hpath : isTooLong path = false)
    (hlong : isTooLong (joinPath path "boxes") = true) : findings none path rack = [] := by
  have hextension : extension? (fileName (joinPath path "boxes")) = none := by
    rw [fileName_joinPath (by decide)]
    decide
  rw [rack, findings, if_neg (by simp [hpath]), findingsOf_eq_map, List.map_singleton, sortByName,
    List.mergeSort_singleton, List.flatMap_singleton, findings, if_pos hlong, findingAt,
    hextension, if_pos (Option.some_ne_none _).symm]

/-- A schema is missed if the path to its directory is too long: the directory is taken
for a file. -/
theorem schema_missed :
    cellar.directory? (detour 2046) = some rack ∧ rack.WellNamed ∧
    rack.get? ["boxes", "lid.json"] = some (.file "") ∧
    IsSchemaName cellarSearch.filter "lid.json" ∧
    (discover Disk.ofTree cellarSearch).run cellar = (.ok (some []), cellar) := by
  have hpath : isTooLong (detour 2046) = false := by
    rw [isTooLong, utf8ByteSize_detour]
    rfl
  have hlong : isTooLong (joinPath (detour 2046) "boxes") = true := by
    have hboxes : IsEntryName "boxes" := by decide
    have hsize : _ ≤ (joinPath (detour 2046) "boxes").utf8ByteSize :=
      le_utf8ByteSize_joinPath hboxes
    rw [utf8ByteSize_detour] at hsize
    exact decide_eq_true (lt_of_lt_of_le (by decide) hsize)
  refine ⟨directory?_detour hpath, ?_, rfl, by decide, ?_⟩
  · refine .directory (by decide) (by decide) fun e he => List.mem_singleton.mp he ▸ ?_
    exact .directory (by decide) (by decide) fun e he => List.mem_singleton.mp he ▸ .file
  · rw [run_discover rfl (directory?_detour hpath), show cellarSearch.filter = none from rfl,
      findings_rack hpath hlong]

end Command

end ServiceStubs
