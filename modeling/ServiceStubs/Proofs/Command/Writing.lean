import Mathlib.Logic.Function.Basic
import ServiceStubs.Command.Generate
import ServiceStubs.Proofs.Files.Tree

/-!
# What writing a package leaves

A package is written into an entry of the output directory.  If that succeeds,
then the entry is a directory with the files of the package over whatever it had
before; every other entry is what it was, and so is all that was there before the
run started.

## Main definitions

* `overlay` — a directory after some files were written into it.
* `Holds` — what the output directory holds in a state of the run.
* `Holds.of_writePackage` — what a package that was written leaves.
* `Holds.exists_writePackage` — a package can be written where nothing is, or a
  directory of files.
-/

namespace ServiceStubs.Command

variable {t s s' : FileTree} {os : List String} {held : String → Option FileTree}
  {settings : Settings} {output directory name : String} {files : List (String × String)}

/-! ## Runs -/

theorem run_write (path content : String) (s : FileTree) :
    (Disk.ofTree.write path content).run s = match s.write path content with
      | .ok s' => (.ok (), s')
      | .error e => (.error e, s) := rfl

theorem run_makeDirs (path : String) (s : FileTree) :
    (Disk.ofTree.makeDirs path).run s = s.makeDirs path := rfl

theorem run_read (path : String) (s : FileTree) :
    (Disk.ofTree.read path).run s = pure (s.read path, s) := rfl

theorem run_writeFiles_cons (directory file text : String) (files : List (String × String))
    (s : FileTree) :
    (writeFiles Disk.ofTree directory ((file, text) :: files)).run s
      = match s.write (joinPath directory file) text with
        | .ok s' => (writeFiles Disk.ofTree directory files).run s'
        | .error cause => (.error (.unwrittenModule file cause), s) := by
  rw [writeFiles, StateT.run_bind, run_write]
  cases s.write (joinPath directory file) text <;> rfl

theorem run_writePackage (settings : Settings) (directory : String) (b : BuiltPackage)
    (s : FileTree) :
    (writePackage Disk.ofTree settings directory b).run s
      = match s.makeDirs directory with
        | (.ok (), s') =>
          (writeFiles Disk.ofTree directory (b.package.files settings b.store)).run s'
        | (.error cause, s') => (.error (.uncreatedDirectory directory cause), s') := by
  rw [writePackage, StateT.run_bind, run_makeDirs]
  rcases s.makeDirs directory with ⟨_ | _, s'⟩ <;> rfl

/-! ## Directories -/

/-- A directory after some files were written into it. -/
def overlay (d : FileTree) : List (String × String) → FileTree
  | [] => d
  | (file, text) :: files => overlay (d.put [file] (.file text)) files

/-- Files with new names are written behind what a directory has. -/
theorem overlay_directory (entries : List (String × FileTree))
    (hnodup : (entries.map Prod.fst ++ files.map Prod.fst).Nodup) :
    overlay (.directory entries) files
      = .directory (entries ++ files.map fun (file, text) => (file, .file text)) := by
  induction files generalizing entries with
  | nil => rw [List.map_nil, List.append_nil]; rfl
  | cons f files ih =>
      obtain ⟨file, text⟩ := f
      have hnew : ¬entries.any (·.1 = file) := by
        intro hany
        obtain ⟨e, he, hfile⟩ := List.any_eq_true.mp hany
        exact (List.nodup_append.mp hnodup).2.2 _ (List.mem_map_of_mem he) _ List.mem_cons_self
          (of_decide_eq_true hfile)
      have hput : (FileTree.directory entries).put [file] (.file text)
          = .directory (entries ++ [(file, .file text)]) := by
        rw [FileTree.put, if_neg hnew, FileTree.put]
      have hrest := ih (entries ++ [(file, .file text)]) (by simpa using hnodup)
      rw [overlay, hput, hrest, List.append_assoc]
      rfl

/-- Whether something is a directory that has files only. -/
def IsFlat : FileTree → Prop
  | .file _ => False
  | .directory entries => ∀ name d, entries.lookup name = some d → ∃ content, d = .file content

theorem isFlat_empty : IsFlat ∅ :=
  nofun

theorem IsFlat.exists_directory {d : FileTree} (h : IsFlat d) :
    ∃ entries, d = .directory entries := by
  cases d with
  | file content => exact h.elim
  | directory entries => exact ⟨entries, rfl⟩

theorem IsFlat.put {d : FileTree} (h : IsFlat d) (file text : String) :
    IsFlat (d.put [file] (.file text)) := by
  obtain ⟨entries, rfl⟩ := h.exists_directory
  obtain ⟨entries', hput⟩ := FileTree.put_directory entries file [] (.file text)
  rw [hput]
  intro name d hd
  have hentry := FileTree.entry?_put entries file [] (.file text) name
  rw [hput, FileTree.entry?_directory, hd] at hentry
  split at hentry
  · exact ⟨text, Option.some.inj hentry⟩
  · exact h name d hentry.symm

theorem IsFlat.overlay {d : FileTree} (h : IsFlat d) (files : List (String × String)) :
    IsFlat (overlay d files) := by
  induction files generalizing d with
  | nil => exact h
  | cons f files ih => exact ih (h.put f.1 f.2)

/-! ## States of a run -/

/-- What the directory at the end of some names holds in a state of a run, by
names.  All that was there when the run started is still there. -/
structure Holds (t : FileTree) (os : List String) (held : String → Option FileTree)
    (s : FileTree) : Prop where
  keeps : t.Keeps s
  entry : ∀ name, s.get? (os ++ [name]) = held name

/-- Whether the output directory of a run is there and empty when it starts. -/
structure EmptyOutput (t : FileTree) (output : String) (os : List String) : Prop where
  located : t.locate output = .ok os
  empty : t.get? os = some ∅

namespace EmptyOutput

variable (hout : EmptyOutput t output os)
include hout

theorem hasDirectory : t.HasDirectory output os :=
  ⟨hout.located, [], hout.empty⟩

/-- Nothing is below an empty directory. -/
theorem get?_below (name : String) (names : List String) : t.get? (os ++ name :: names) = none := by
  rw [FileTree.get?_append, hout.empty]
  rfl

theorem holds : Holds t os (fun _ => none) t :=
  ⟨.refl t, fun name => hout.get?_below name []⟩

end EmptyOutput

namespace Holds

variable (h : Holds t os held s)
include h

/-- What an entry of the output directory has. -/
theorem get?_below {entries : List (String × FileTree)}
    (hheld : held name = some (.directory entries)) (file : String) :
    s.get? (os ++ [name] ++ [file]) = entries.lookup file := by
  rw [FileTree.get?_append, h.entry, hheld, Option.bind_some, FileTree.get?_singleton]
  rfl

variable (hout : EmptyOutput t output os)
include hout

/-- What is put into an entry of the output directory is all that changes. -/
theorem put (name : String) (names : List String) (new : FileTree) :
    Holds t os (Function.update held name (some (((held name).getD ∅).put names new)))
      (s.put (os ++ name :: names) new) where
  keeps := h.keeps.put (hout.get?_below name names) new
  entry m := by
    obtain ⟨entries, hdir⟩ := (h.keeps os).directory _ hout.empty
    rw [FileTree.get?_put_entry hdir, h.entry, h.entry, Function.update_apply]

theorem hasDirectory {entries : List (String × FileTree)} (hname : IsEntryName name)
    (hcan : CanHold output name) (hheld : held name = some (.directory entries)) :
    s.HasDirectory (joinPath output name) (os ++ [name]) :=
  ⟨(FileTree.locate_joinPath (h.keeps.hasDirectory hout.hasDirectory) hname).mpr ⟨hcan, rfl⟩,
    entries, (h.entry name).trans hheld⟩

/-- **A file that was written** is in its directory, and nothing else has changed. -/
theorem of_write {entries : List (String × FileTree)} (hname : IsEntryName name)
    (hcan : CanHold output name) (hheld : held name = some (.directory entries))
    {file text : String} (hfile : IsEntryName file)
    (hwrite : s.write (joinPath (joinPath output name) file) text = .ok s') :
    CanHold (joinPath output name) file ∧
      Holds t os (Function.update held name
        (some ((FileTree.directory entries).put [file] (.file text)))) s' := by
  have hdir := h.hasDirectory hout hname hcan hheld
  have hcanFile := FileTree.canHold_of_write hdir hfile hwrite
  have hput : s' = s.put (os ++ name :: [file]) (.file text) := by
    rw [FileTree.write_joinPath hdir hfile hcanFile] at hwrite
    split at hwrite
    · exact nomatch hwrite
    · rw [← Except.ok.inj hwrite, List.append_assoc]
      rfl
  have hs := h.put hout name [file] (.file text)
  rw [hheld] at hs
  exact ⟨hcanFile, hput ▸ hs⟩

/-- **Files that were written** lie over what their directory had, and nothing else
has changed. -/
theorem of_writeFiles {entries : List (String × FileTree)} (hname : IsEntryName name)
    (hcan : CanHold output name) (hheld : held name = some (.directory entries))
    (hfiles : ∀ f ∈ files, IsEntryName f.1)
    (hrun : (writeFiles Disk.ofTree (joinPath output name) files).run s = (.ok (), s')) :
    (∀ f ∈ files, CanHold (joinPath output name) f.1) ∧
      Holds t os (Function.update held name (some (overlay (.directory entries) files))) s' := by
  induction files generalizing s held entries with
  | nil =>
      obtain rfl := congrArg Prod.snd hrun
      refine ⟨nofun, ?_⟩
      rwa [overlay, ← hheld, Function.update_eq_self]
  | cons f files ih =>
      obtain ⟨file, text⟩ := f
      rw [run_writeFiles_cons] at hrun
      split at hrun
      case h_2 => exact nomatch congrArg Prod.fst hrun
      rename_i next hwrite
      obtain ⟨hcanFile, hnext⟩ :=
        h.of_write hout hname hcan hheld (hfiles _ List.mem_cons_self) hwrite
      obtain ⟨entries', hput⟩ := FileTree.put_directory entries file [] (.file text)
      rw [hput] at hnext
      obtain ⟨hrest, hs'⟩ := ih hnext (Function.update_self ..)
        (fun f hf => hfiles f (List.mem_cons_of_mem _ hf)) hrun
      rw [Function.update_idem] at hs'
      rw [overlay, hput]
      exact ⟨List.forall_mem_cons.mpr ⟨hcanFile, hrest⟩, hs'⟩

/-- **A package that was written** lies over what the entry had, and nothing else
has changed. -/
theorem of_writePackage {b : BuiltPackage} (hname : IsEntryName name)
    (hfiles : ∀ f ∈ b.package.files settings b.store, IsEntryName f.1)
    (hrun : (writePackage Disk.ofTree settings (joinPath output name) b).run s = (.ok (), s')) :
    (CanHold output name ∧
      ∀ f ∈ b.package.files settings b.store, CanHold (joinPath output name) f.1) ∧
    Holds t os (Function.update held name
      (some (overlay ((held name).getD ∅) (b.package.files settings b.store)))) s' := by
  have hdir := h.keeps.hasDirectory hout.hasDirectory
  rw [run_writePackage] at hrun
  split at hrun
  case h_2 => exact nomatch congrArg Prod.fst hrun
  rename_i next hmake
  have hcan := FileTree.canHold_of_makeDirs hdir hname (congrArg Prod.fst hmake)
  rw [FileTree.makeDirs_joinPath hdir hname hcan, h.entry] at hmake
  cases hheld : held name with
  | none =>
      rw [hheld] at hmake
      obtain rfl := congrArg Prod.snd hmake
      have hnext := h.put hout name [] ∅
      obtain ⟨hcanFiles, hs'⟩ :=
        hnext.of_writeFiles hout hname hcan (Function.update_self ..) hfiles hrun
      rw [Function.update_idem] at hs'
      exact ⟨⟨hcan, hcanFiles⟩, hs'⟩
  | some d =>
      rw [hheld] at hmake
      cases d with
      | file content => exact nomatch congrArg Prod.fst hmake
      | directory entries =>
          obtain rfl := congrArg Prod.snd hmake
          obtain ⟨hcanFiles, hs'⟩ := h.of_writeFiles hout hname hcan hheld hfiles hrun
          exact ⟨⟨hcan, hcanFiles⟩, hs'⟩

theorem exists_writeFiles {entries : List (String × FileTree)}
    (hflat : IsFlat (.directory entries)) (hname : IsEntryName name) (hcan : CanHold output name)
    (hheld : held name = some (.directory entries)) (hfiles : ∀ f ∈ files, IsEntryName f.1)
    (hcanFiles : ∀ f ∈ files, CanHold (joinPath output name) f.1) :
    ∃ s', (writeFiles Disk.ofTree (joinPath output name) files).run s = (.ok (), s') := by
  induction files generalizing s held entries with
  | nil => exact ⟨s, rfl⟩
  | cons f files ih =>
      obtain ⟨file, text⟩ := f
      have hfile := hfiles _ List.mem_cons_self
      have hdir := h.hasDirectory hout hname hcan hheld
      have hwrite : s.write (joinPath (joinPath output name) file) text
          = .ok (s.put (os ++ [name] ++ [file]) (.file text)) := by
        rw [FileTree.write_joinPath hdir hfile (hcanFiles _ List.mem_cons_self),
          h.get?_below hheld]
        split
        · obtain ⟨content, hcontent⟩ := hflat _ _ ‹_›
          exact nomatch hcontent
        · rfl
      obtain ⟨-, hnext⟩ := h.of_write hout hname hcan hheld hfile hwrite
      obtain ⟨entries', hput⟩ := FileTree.put_directory entries file [] (.file text)
      rw [hput] at hnext
      obtain ⟨s', hrun⟩ := ih hnext (hput ▸ hflat.put file text) (Function.update_self ..)
        (fun f hf => hfiles f (List.mem_cons_of_mem _ hf))
        (fun f hf => hcanFiles f (List.mem_cons_of_mem _ hf))
      exact ⟨s', by rw [run_writeFiles_cons, hwrite]; exact hrun⟩

/-- **A package can be written** where nothing is, or a directory of files, if the
paths of its files can be followed. -/
theorem exists_writePackage {b : BuiltPackage} (hflat : ∀ d, held name = some d → IsFlat d)
    (hname : IsEntryName name)
    (hfiles : ∀ f ∈ b.package.files settings b.store, IsEntryName f.1)
    (hcan : CanHold output name)
    (hcanFiles : ∀ f ∈ b.package.files settings b.store, CanHold (joinPath output name) f.1) :
    ∃ s', (writePackage Disk.ofTree settings (joinPath output name) b).run s = (.ok (), s') := by
  have hmake := FileTree.makeDirs_joinPath (h.keeps.hasDirectory hout.hasDirectory) hname hcan
  rw [h.entry] at hmake
  cases hheld : held name with
  | none =>
      rw [hheld] at hmake
      obtain ⟨s', hrun⟩ := (h.put hout name [] ∅).exists_writeFiles hout isFlat_empty hname hcan
        (Function.update_self ..) hfiles hcanFiles
      exact ⟨s', by rw [run_writePackage, hmake]; exact hrun⟩
  | some d =>
      have hd := hflat d hheld
      obtain ⟨entries, rfl⟩ := hd.exists_directory
      rw [hheld] at hmake
      obtain ⟨s', hrun⟩ := h.exists_writeFiles hout hd hname hcan hheld hfiles hcanFiles
      exact ⟨s', by rw [run_writePackage, hmake]; exact hrun⟩

end Holds

end ServiceStubs.Command
