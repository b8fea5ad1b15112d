import ServiceStubs.Proofs.Command.Packages

/-!
# Packages of one run

A package is what it would be alone, if no other package of the run has its
directory.  If one has, then at least one of the two is not, since each module
says which package it belongs to.

## Main definitions

* `Bundle.Undisturbed` — whether a package is what it would be alone.
* `CleanRun` — a run in an empty output directory in which no file operation fails.
* `lookup_alone` — a bundle alone leaves just the files of its package.
* `Bundle.service_eq_of_contents` — packages with the same directory differ.
* `packages_apart` — which packages of a run are what they would be alone.
-/

namespace ServiceStubs

namespace Stub

/-- What a module says before the name of its package. -/
def Banner.start (b : Banner) : List Char :=
  ("\"\"\"\n" ++ b.title ++ " for " ++ b.moduleName ++ ".\n\nPackage: ").toList

/-- A module says at its start which package it belongs to. -/
theorem Module.text_eq (m : Module) :
    ∃ rest, m.text.toList = m.banner.start ++ (m.banner.packageName.toList ++ rest) := by
  -- The name of the package ends the fourth line of the banner.
  let later := m.banner.lines.drop 4 ++ [""] ++ m.bodyLines
  refine ⟨'\n' :: (String.join (later.map (· ++ "\n"))).toList, ?_⟩
  simp [later, Module.text, Banner.lines, Banner.start]

end Stub

namespace Command

variable {t s : FileTree} {os : List String} {held : String → Option FileTree}
  {settings : Settings} {output name : String} {paths : List String}

/-! ## Packages with different directories -/

namespace Bundle

/-- An entry that no bundle names stays what it is. -/
theorem foldl_onto_of_notMem {bs : List Bundle}
    (h : name ∉ bs.map (Bundle.moduleName settings)) (held : String → Option FileTree) :
    bs.foldl (onto settings) held name = held name := by
  induction bs generalizing held with
  | nil => rfl
  | cons b bs ih =>
      obtain ⟨hb, hbs⟩ := List.ne_and_not_mem_of_not_mem_cons h
      rw [List.foldl_cons, ih hbs, onto, Function.update_of_ne hb]

/-- An entry that only one bundle names has the package of that bundle. -/
theorem foldl_onto_of_unique {bs : List Bundle} {b : Bundle} (hb : b ∈ bs) (hnodup : bs.Nodup)
    (hunique : ∀ b' ∈ bs, b' ≠ b → b'.moduleName settings ≠ b.moduleName settings)
    (hheld : held (b.moduleName settings) = none) :
    bs.foldl (onto settings) held (b.moduleName settings) = some (b.contents settings) := by
  obtain ⟨before, later, rfl⟩ := List.append_of_mem hb
  have hbefore : b ∉ before := fun hmem =>
    (List.nodup_append.mp hnodup).2.2 b hmem b List.mem_cons_self rfl
  have hlater : b ∉ later := (List.nodup_cons.mp (List.nodup_append.mp hnodup).2.1).1
  have hnot {part : List Bundle} (hpart : part ⊆ before ++ b :: later) (hb : b ∉ part) :
      b.moduleName settings ∉ part.map (Bundle.moduleName settings) := by
    rw [List.mem_map]
    rintro ⟨b', hb', heq⟩
    exact hunique b' (hpart hb') (fun h => hb (h ▸ hb')) heq
  have hsub : later ⊆ before ++ b :: later := fun _ hb' =>
    List.mem_append_right _ (List.mem_cons_of_mem _ hb')
  rw [List.foldl_append, List.foldl_cons, foldl_onto_of_notMem (hnot hsub hlater), onto,
    Function.update_self, foldl_onto_of_notMem (hnot (List.subset_append_left _ _) hbefore),
    hheld, Option.getD_none, overlay_files]

end Bundle

/-- What is found in the directory of a package. -/
theorem Holds.lookup_directory (h : Holds t os held s) (hout : EmptyOutput t output os) {b : Bundle}
    (hname : IsEntryName (b.moduleName settings)) (hcan : CanHold output (b.moduleName settings))
    {d : FileTree} :
    s.lookup (b.directory settings output) = .ok d ↔ held (b.moduleName settings) = some d := by
  have hdir := h.keeps.hasDirectory hout.hasDirectory
  rw [FileTree.lookup_eq_ok_iff, ← h.entry]
  constructor
  · rintro ⟨names, hnames, hd⟩
    rwa [((FileTree.locate_joinPath hdir hname).mp hnames).2] at hd
  · exact fun hd => ⟨_, (FileTree.locate_joinPath hdir hname).mpr ⟨hcan, rfl⟩, hd⟩

/-- **A bundle alone** leaves just the files of its package. -/
theorem lookup_alone (hout : EmptyOutput t output os) {b : Bundle}
    (hb : b ∈ bundles settings t paths) (hname : IsEntryName (b.moduleName settings))
    (hcan : b.CanBeWritten settings output) :
    (after settings output [b.path] t).lookup (b.directory settings output)
      = .ok (b.contents settings) := by
  have hbundle := bundle?_of_mem hb
  obtain ⟨s', hrun⟩ := hout.holds.exists_generateBundle hout hbundle nofun hname hcan
  have hok : outcomes settings output [b.path] t = [b.path].map (expected settings output t) := by
    rw [outcomes_cons, hrun]
    rfl
  have hbundles : bundles settings t [b.path] = [b] := bundles_cons_of_some hbundle
  obtain ⟨-, hs⟩ := hout.holds.of_generateAll hout
    (by rw [hbundles]; simpa using hname) hok
  rw [hbundles] at hs
  rw [hs.lookup_directory hout hname hcan.directory]
  exact Bundle.foldl_onto_of_unique List.mem_cons_self (List.nodup_singleton b)
    (fun b' hb' hne => absurd (List.mem_singleton.mp hb') hne) rfl

/-! ## Packages with the same directory -/

namespace Bundle

variable {b b' : Bundle}

theorem moduleName_eq_iff (settings : Settings) :
    b.moduleName settings = b'.moduleName settings ↔ b.importName = b'.importName := by
  simp only [moduleName, ServiceName.moduleName, importName, String.append_right_inj]

/-- **Packages with the same directory differ**, unless their services have the same
name: the first file says which package it belongs to. -/
theorem service_eq_of_contents (hname : b.importName = b'.importName)
    (hcontents : b.contents settings = b'.contents settings) :
    b.built.package.service.name = b'.built.package.service.name := by
  have hfiles : b.files settings = b'.files settings := by
    refine List.map_injective_iff.mpr ?_ (FileTree.directory.inj hcontents)
    rintro ⟨file, text⟩ ⟨file', text'⟩ heq
    simpa using heq
  have hhead := congrArg List.head? hfiles
  rw [head?_files, head?_files, Option.some.injEq, Prod.mk.injEq] at hhead
  let banner := (b.built.package.initModule settings).banner
  let banner' := (b'.built.package.initModule settings).banner
  obtain ⟨rest, hrest⟩ := (b.built.package.initModule settings).text_eq
  obtain ⟨rest', hrest'⟩ := (b'.built.package.initModule settings).text_eq
  have hstart : banner.start = banner'.start := by
    have hmodule := (moduleName_eq_iff settings).mpr hname
    exact congrArg (fun name => ("\"\"\"\nMain interface for " ++ name
      ++ ".\n\nPackage: ").toList) hmodule
  have hlength : banner.packageName.toList.length = banner'.packageName.toList.length := by
    have hnames := congrArg (·.toList.length) hname
    simp only [importName, ServiceName.importName, String.toList_ofList, List.length_map] at hnames
    simp [banner, banner', PackageStub.initModule, PackageStub.banner, ServiceName.packageName,
      hnames]
  have hpackage : banner.packageName = banner'.packageName := by
    have htext := hrest.symm.trans ((congrArg String.toList hhead.2).trans hrest')
    rw [hstart, List.append_cancel_left_eq] at htext
    exact String.toList_inj.mp (List.append_inj htext hlength).1
  exact String.append_right_inj _ |>.mp hpackage

end Bundle

/-! ## All packages -/

/-- Whether the directory of a package has after a run what it has after a run with
the bundle of this package alone. -/
def Bundle.Undisturbed (settings : Settings) (output : String) (paths : List String)
    (t : FileTree) (b : Bundle) : Prop :=
  (after settings output paths t).lookup (b.directory settings output)
    = (after settings output [b.path] t).lookup (b.directory settings output)

/-- A run whose output directory is empty, whose services have different names that
can stand in the names of directories, and in which no file operation fails. -/
structure CleanRun (settings : Settings) (output : String) (paths : List String) (t : FileTree)
    (os : List String) : Prop where
  emptyOutput : EmptyOutput t output os
  outcomes : outcomes settings output paths t = paths.map (expected settings output t)
  services : ((bundles settings t paths).map Bundle.service).Nodup
  names : ∀ b ∈ bundles settings t paths, IsEntryName (b.moduleName settings)

namespace CleanRun

variable (h : CleanRun settings output paths t os) {b b' : Bundle}
include h

theorem of_run : (∀ b ∈ bundles settings t paths, b.CanBeWritten settings output) ∧
    Holds t os ((bundles settings t paths).foldl (Bundle.onto settings) fun _ => none)
      (after settings output paths t) :=
  h.emptyOutput.holds.of_generateAll h.emptyOutput h.names h.outcomes

theorem lookup_alone (hb : b ∈ bundles settings t paths) :
    (after settings output [b.path] t).lookup (b.directory settings output)
      = .ok (b.contents settings) :=
  Command.lookup_alone h.emptyOutput hb (h.names b hb) (h.of_run.1 b hb)

theorem locate_directory (hb : b ∈ bundles settings t paths) :
    (after settings output paths t).locate (b.directory settings output)
      = .ok (os ++ [b.moduleName settings]) :=
  (FileTree.locate_joinPath (h.of_run.2.keeps.hasDirectory h.emptyOutput.hasDirectory)
    (h.names b hb)).mpr ⟨(h.of_run.1 b hb).directory, rfl⟩

/-- A package whose directory no other package has is what it is alone. -/
theorem undisturbed (hb : b ∈ bundles settings t paths)
    (hunique : ∀ b' ∈ bundles settings t paths, b' ≠ b → b'.importName ≠ b.importName) :
    b.Undisturbed settings output paths t := by
  rw [Bundle.Undisturbed, h.lookup_alone hb,
    h.of_run.2.lookup_directory h.emptyOutput (h.names b hb) (h.of_run.1 b hb).directory]
  refine Bundle.foldl_onto_of_unique hb h.services.of_map (fun b' hb' hne heq => ?_) rfl
  exact hunique b' hb' hne ((Bundle.moduleName_eq_iff _).mp heq)

/-- Of two packages with the same directory one is not what it is alone. -/
theorem eq_of_undisturbed (hb : b ∈ bundles settings t paths) (hb' : b' ∈ bundles settings t paths)
    (hname : b'.importName = b.importName) (hsame : b.Undisturbed settings output paths t)
    (hsame' : b'.Undisturbed settings output paths t) : b' = b := by
  have hdirectory : b'.directory settings output = b.directory settings output :=
    congrArg (joinPath output) ((Bundle.moduleName_eq_iff _).mpr hname)
  have hcontents : b'.contents settings = b.contents settings := by
    have hlookup := (h.lookup_alone hb').symm.trans (hsame'.symm.trans
      (hdirectory ▸ hsame.trans (h.lookup_alone hb)))
    exact Except.ok.inj hlookup
  have hservice := Bundle.service_eq_of_contents hname hcontents
  rw [Bundle.service_eq hb, Bundle.service_eq hb'] at hservice
  exact List.inj_on_of_nodup_map h.services hb' hb hservice

end CleanRun

/-- **Packages of one run stay apart, unless their services have the same name up to
hyphens and underscores.**  Each lies directly in the output directory.  Alone it
would be just its files, and that it is, if no other service has its name up to
hyphens and underscores; if another one has, then the two have one directory, and
at least one of them is not what it would be alone. -/
theorem packages_apart (settings : Settings) (output : String) (paths : List String)
    (t : FileTree) (os : List String) (h : CleanRun settings output paths t os) :
    (after settings output paths t).locate output = .ok os ∧
    ∀ b ∈ bundles settings t paths,
      (after settings output paths t).locate (b.directory settings output)
        = .ok (os ++ [b.moduleName settings]) ∧
      (after settings output [b.path] t).lookup (b.directory settings output)
        = .ok (b.contents settings) ∧
      ((∀ b' ∈ bundles settings t paths, b' ≠ b → b'.importName ≠ b.importName) →
        b.Undisturbed settings output paths t) ∧
      ∀ b' ∈ bundles settings t paths, b' ≠ b → b'.importName = b.importName →
        b'.directory settings output = b.directory settings output ∧
        ¬(b.Undisturbed settings output paths t ∧ b'.Undisturbed settings output paths t) := by
  refine ⟨(h.of_run.2.keeps.hasDirectory h.emptyOutput.hasDirectory).1, fun b hb =>
    ⟨h.locate_directory hb, h.lookup_alone hb, h.undisturbed hb, fun b' hb' hne hname =>
      ⟨?_, fun hsame => hne (h.eq_of_undisturbed hb hb' hname hsame.1 hsame.2)⟩⟩⟩
  exact congrArg (joinPath output) ((Bundle.moduleName_eq_iff _).mpr hname)

/-! ## Services whose names differ in one character -/

/-- A file with the schema of a service that has nothing. -/
def bareFile (service : String) : FileTree :=
  .file ("\x7b\"service_name\":\"" ++ service
    ++ "\",\"class_name\":\"Lid\",\"model\":\x7b\x7d\x7d")

/-- Four services, and an empty directory. -/
def shelf : FileTree :=
  .directory [("hyphen.json", bareFile "box-lid"), ("underscore.json", bareFile "box_lid"),
    ("slash.json", bareFile "box/lid"), ("short.json", bareFile "lid"), ("out", ∅)]

/-- The services whose names can stand in names of directories. -/
def shelfPaths : List String := ["hyphen.json", "underscore.json", "short.json"]

theorem emptyOutput_shelf : EmptyOutput shelf "out" ["out"] :=
  ⟨by decide +kernel, rfl⟩

theorem names_shelf : (bundles {} shelf shelfPaths).map (fun b => (b.service, b.moduleName {}))
    = [("box-lid", "mypy_boto3_box_lid"), ("box_lid", "mypy_boto3_box_lid"),
      ("lid", "mypy_boto3_lid")] := by
  decide +kernel

theorem mem_names_shelf {b : Bundle} (hb : b ∈ bundles {} shelf shelfPaths) :
    (b.service, b.moduleName {}) ∈ [("box-lid", "mypy_boto3_box_lid"),
      ("box_lid", "mypy_boto3_box_lid"), ("lid", "mypy_boto3_lid")] :=
  names_shelf ▸ List.mem_map_of_mem hb

theorem cleanRun_shelf : CleanRun {} "out" shelfPaths shelf ["out"] := by
  have hnames : ∀ b ∈ bundles {} shelf shelfPaths,
      b.moduleName {} = "mypy_boto3_box_lid" ∨ b.moduleName {} = "mypy_boto3_lid" := by
    intro b hb
    have hmem := mem_names_shelf hb
    simp only [List.mem_cons, Prod.mk.injEq, List.not_mem_nil, or_false] at hmem
    rcases hmem with ⟨-, h⟩ | ⟨-, h⟩ | ⟨-, h⟩ <;> simp [h]
  have hentry : ∀ b ∈ bundles {} shelf shelfPaths, IsEntryName (b.moduleName {}) := by
    intro b hb
    rcases hnames b hb with h | h <;> rw [h] <;> decide
  refine ⟨emptyOutput_shelf, ?_, ?_, hentry⟩
  · refine emptyOutput_shelf.outcomes_eq (by decide +kernel) hentry fun b hb => ?_
    rcases hnames b hb with hname | hname
    · exact Bundle.canBeWritten_of_directory hname (by decide +kernel) (by decide +kernel)
    · exact Bundle.canBeWritten_of_directory hname (by decide +kernel) (by decide +kernel)
  · have hservices := congrArg (List.map Prod.fst) names_shelf
    rw [List.map_map] at hservices
    change (bundles {} shelf shelfPaths).map Bundle.service = _ at hservices
    rw [hservices]
    decide

theorem shelf_lid_apart :
    CleanRun {} "out" shelfPaths shelf ["out"] ∧
    ∀ b ∈ bundles {} shelf shelfPaths, b.service = "lid" →
      (after {} "out" shelfPaths shelf).locate (b.directory {} "out")
        = .ok ["out", b.moduleName {}] ∧
      b.Undisturbed {} "out" shelfPaths shelf := by
  refine ⟨cleanRun_shelf, fun b hb hservice => ?_⟩
  obtain ⟨hlocate, -, hapart, -⟩ :=
    (packages_apart {} "out" shelfPaths shelf ["out"] cleanRun_shelf).2 b hb
  refine ⟨hlocate, hapart fun b' hb' hne hname => hne ?_⟩
  have hmem := mem_names_shelf hb
  have hmem' := mem_names_shelf hb'
  rw [(Bundle.moduleName_eq_iff _).mpr hname] at hmem'
  have hservice' : b'.service = b.service := by
    simp_all
  exact List.inj_on_of_nodup_map cleanRun_shelf.services hb' hb hservice'

/-- Services whose names differ in a hyphen meet in one directory, and one whose name
has a slash is not directly in the output directory. -/
theorem shelf_packages_meet :
    (CleanRun {} "out" shelfPaths shelf ["out"] ∧
      ¬∀ b ∈ bundles {} shelf shelfPaths, b.Undisturbed {} "out" shelfPaths shelf) ∧
    outcomes {} "out" ["slash.json"] shelf = [.generated "out/mypy_boto3_box/lid"] ∧
    ¬∃ name, (after {} "out" ["slash.json"] shelf).locate "out/mypy_boto3_box/lid"
      = .ok (["out"] ++ [name]) := by
  refine ⟨⟨cleanRun_shelf, fun hall => ?_⟩, ?_⟩
  · have hservice (service name : String)
        (h : (service, name) ∈ [("box-lid", "mypy_boto3_box_lid"),
          ("box_lid", "mypy_boto3_box_lid"), ("lid", "mypy_boto3_lid")]) :
        ∃ b ∈ bundles {} shelf shelfPaths, b.service = service ∧ b.moduleName {} = name := by
      rw [← names_shelf] at h
      simpa using h
    obtain ⟨b, hb, hhyphen, hname⟩ := hservice "box-lid" "mypy_boto3_box_lid" (by decide)
    obtain ⟨b', hb', hunderscore, hname'⟩ := hservice "box_lid" "mypy_boto3_box_lid" (by decide)
    have heq : b' = b := cleanRun_shelf.eq_of_undisturbed hb hb'
      ((Bundle.moduleName_eq_iff _).mp (hname'.trans hname.symm)) (hall b hb) (hall b' hb')
    rw [heq, hhyphen] at hunderscore
    exact absurd hunderscore (by decide)
  · have hrun : outcomes {} "out" ["slash.json"] shelf = [.generated "out/mypy_boto3_box/lid"] ∧
        (after {} "out" ["slash.json"] shelf).locate "out/mypy_boto3_box/lid"
          = .ok ["out", "mypy_boto3_box", "lid"] := by
      decide +kernel
    refine ⟨hrun.1, ?_⟩
    rintro ⟨name, hname⟩
    rw [hrun.2] at hname
    exact absurd (congrArg List.length (Except.ok.inj hname)) (by simp)

end Command

end ServiceStubs
