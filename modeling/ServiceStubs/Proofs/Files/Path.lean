import ServiceStubs.Files.Path
import ServiceStubs.Proofs.Text.Split

/-!
# Paths of the entries of a directory

The path of an entry has the steps of the path of its directory and one more,
which goes down to the entry.

## Main definitions

* `IsEntryName` — a name that an entry of a directory may have.
* `directoryParts` — the parts of the path of a directory that its entries share.
* `splitOn_joinPath`, `fileName_joinPath`, `steps_joinPath` — the parts, the last
  name and the steps of the path of an entry.
* `pathTo`, `pathTo_inj` — the path to which some names lead from a directory.
-/

namespace ServiceStubs

open Text

/-! ## Entries -/

/-- A name that an entry of a directory may have: as a path, it is one step down. -/
def IsEntryName (name : String) : Prop :=
  '/' ∉ name.toList ∧ Step.ofText name = .down name

instance : DecidablePred IsEntryName := fun name =>
  inferInstanceAs (Decidable ('/' ∉ name.toList ∧ Step.ofText name = .down name))

variable {directory name : String} {names : List String}

theorem IsEntryName.not_isAbsolutePath (h : IsEntryName name) : isAbsolutePath name = false := by
  rw [Bool.eq_false_iff]
  intro habsolute
  rw [isAbsolutePath, List.isPrefixOf_iff_prefix] at habsolute
  exact h.1 (habsolute.subset (List.mem_singleton.mpr rfl))

theorem IsEntryName.ne_empty (h : IsEntryName name) : name ≠ "" := by
  rintro rfl
  exact absurd h (by decide)

/-- What stands in front of the names of the entries of a directory in their paths. -/
def slashed (directory : String) : String :=
  if directory = "" || ['/'].isSuffixOf directory.toList then directory else directory ++ "/"

/-- The parts of the path of a directory that are parts of the paths of its entries: all
but an empty last one. -/
def directoryParts (directory : String) : List String :=
  (splitOn '/' (slashed directory)).dropLast

theorem joinPath_eq (hname : IsEntryName name) :
    joinPath directory name = slashed directory ++ name := by
  rw [joinPath, hname.not_isAbsolutePath, if_neg Bool.false_ne_true, slashed]
  split <;> rfl

theorem le_utf8ByteSize_joinPath (hname : IsEntryName name) :
    directory.utf8ByteSize + name.utf8ByteSize ≤ (joinPath directory name).utf8ByteSize := by
  rw [joinPath_eq hname, String.utf8ByteSize_append, slashed]
  split
  · exact le_rfl
  · rw [String.utf8ByteSize_append]
    omega

theorem slashed_cases (directory : String) :
    slashed directory = "" ∨ ∃ front, slashed directory = .ofList (front ++ ['/']) := by
  rw [slashed]
  split
  · rename_i hends
    rw [Bool.or_eq_true, decide_eq_true_eq, List.isSuffixOf_iff_suffix] at hends
    refine hends.imp_right fun ⟨front, hfront⟩ => ⟨front, ?_⟩
    rw [hfront, String.ofList_toList]
  · exact .inr ⟨directory.toList, by simp⟩

theorem splitOn_slashed_append (hname : '/' ∉ name.toList) :
    splitOn '/' (slashed directory ++ name) = directoryParts directory ++ [name] := by
  rw [directoryParts]
  rcases slashed_cases directory with hempty | ⟨front, hfront⟩
  · rw [hempty, String.empty_append, splitOn_of_notMem hname]
    rfl
  · have hparts (last : List Char) : splitOn '/' (.ofList (front ++ '/' :: last))
        = splitOn '/' (.ofList front) ++ splitOn '/' (.ofList last) :=
      splitOn_ofList_append front last
    have hpath : slashed directory ++ name = .ofList (front ++ '/' :: name.toList) := by
      rw [hfront, ← String.toList_inj]
      simp
    rw [hpath, hfront, hparts, hparts, String.ofList_toList, splitOn_of_notMem hname,
      show splitOn '/' (.ofList []) = [""] from rfl, List.dropLast_concat]

/-- The path of a directory has the parts that its entries share, and perhaps an empty
last one. -/
theorem splitOn_eq_directoryParts (directory : String) :
    splitOn '/' directory = directoryParts directory ∨
      splitOn '/' directory = directoryParts directory ++ [""] := by
  have hslashed : splitOn '/' (slashed directory) = directoryParts directory ++ [""] := by
    have hempty : '/' ∉ "".toList := by decide
    rw [← splitOn_slashed_append hempty, String.append_empty]
  rw [slashed] at hslashed
  split at hslashed
  · exact .inr hslashed
  · have hpath : directory ++ "/" = .ofList (directory.toList ++ '/' :: []) := by
      rw [← String.toList_inj]
      simp
    rw [hpath, splitOn_ofList_append, String.ofList_toList] at hslashed
    exact .inl (List.append_cancel_right hslashed)

/-- The last part of the path of an entry is its name; the others are those of the
path of the directory, but for an empty last one. -/
theorem splitOn_joinPath (hname : IsEntryName name) :
    splitOn '/' (joinPath directory name) = directoryParts directory ++ [name] := by
  rw [joinPath_eq hname, splitOn_slashed_append hname.1]

theorem directoryParts_joinPath (hname : IsEntryName name) :
    directoryParts (joinPath directory name) = directoryParts directory ++ [name] := by
  have hparts : splitOn '/' (joinPath directory name) = _ := splitOn_joinPath hname
  rcases splitOn_eq_directoryParts (joinPath directory name) with hsame | hempty
  · exact hsame.symm.trans hparts
  · exact absurd (List.append_inj_right' (hparts.symm.trans hempty) rfl) (by simp [hname.ne_empty])

/-- The last name of the path of an entry is its name. -/
theorem fileName_joinPath (hname : IsEntryName name) :
    fileName (joinPath directory name) = name := by
  rw [joinPath_eq hname, fileName, String.toList_append]
  rcases slashed_cases directory with hempty | ⟨front, hfront⟩
  · rw [hempty, show "".toList = [] from rfl, List.nil_append, splitLast_of_notMem hname.1,
      String.ofList_toList]
  · rw [hfront, String.toList_ofList, List.append_assoc, List.singleton_append,
      splitLast_append hname.1, String.ofList_toList]

/-! ## Paths below a directory -/

/-- The path to which some names lead from a directory. -/
def pathTo (directory : String) (names : List String) : String :=
  names.foldl joinPath directory

@[simp] theorem pathTo_nil (directory : String) : pathTo directory [] = directory := rfl

@[simp] theorem pathTo_cons (directory name : String) (names : List String) :
    pathTo directory (name :: names) = pathTo (joinPath directory name) names := rfl

theorem pathTo_concat (directory : String) (names : List String) (name : String) :
    pathTo directory (names ++ [name]) = joinPath (pathTo directory names) name :=
  List.foldl_append

theorem directoryParts_pathTo (h : ∀ name ∈ names, IsEntryName name) :
    directoryParts (pathTo directory names) = directoryParts directory ++ names := by
  induction names generalizing directory with
  | nil => rw [pathTo_nil, List.append_nil]
  | cons name names ih =>
      rw [List.forall_mem_cons] at h
      rw [pathTo_cons, ih h.2, directoryParts_joinPath h.1, List.append_assoc,
        List.singleton_append]

/-- **Different names lead to different paths.** -/
theorem pathTo_inj {others : List String} (hnames : ∀ name ∈ names, IsEntryName name)
    (hothers : ∀ name ∈ others, IsEntryName name) :
    pathTo directory names = pathTo directory others ↔ names = others := by
  refine ⟨fun h => ?_, congrArg _⟩
  have hparts := congrArg directoryParts h
  rw [directoryParts_pathTo hnames, directoryParts_pathTo hothers] at hparts
  exact List.append_cancel_left hparts

/-! ## Steps -/

theorem steps_eq_ok {path : String} {ss : List Step} (h : steps path = .ok ss) :
    path ≠ "" ∧ ss = (splitOn '/' path).map Step.ofText := by
  simp only [steps] at h
  split at h
  · exact nomatch h
  · split at h
    · exact nomatch h
    · split at h
      · exact nomatch h
      · rename_i hpath
        exact ⟨fun hempty => hpath (by simp [hempty]), (Except.ok.inj h).symm⟩

theorem isTooLong_of_steps {path : String} {ss : List Step} (h : steps path = .ok ss) :
    isTooLong path = false := by
  by_contra hlong
  rw [steps, if_pos (Bool.of_not_eq_false hlong)] at h
  split at h <;> exact nomatch h

/-- **The path of an entry has the steps of the path of the directory and one
down**; a last step of the directory that stays is left out. -/
theorem steps_joinPath {ss es : List Step} (hdirectory : steps directory = .ok ss)
    (hname : IsEntryName name) (hentry : steps (joinPath directory name) = .ok es) :
    ∃ init, es = init ++ [.down name] ∧ (ss = init ∨ ss = init ++ [.stay]) := by
  obtain ⟨-, rfl⟩ := steps_eq_ok hdirectory
  obtain ⟨-, rfl⟩ := steps_eq_ok hentry
  refine ⟨(directoryParts directory).map Step.ofText, ?_, ?_⟩
  · rw [splitOn_joinPath hname, List.map_append]
    simp [hname.2]
  · rcases splitOn_eq_directoryParts directory with hwhole | hwhole
    · exact .inl (by rw [hwhole])
    · exact .inr (by rw [hwhole, List.map_append]; rfl)

end ServiceStubs
