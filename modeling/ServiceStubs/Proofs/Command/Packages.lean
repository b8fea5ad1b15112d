import ServiceStubs.Proofs.Command.Writing
import ServiceStubs.Proofs.Session.Gives
import ServiceStubs.Proofs.Stub.Binding

/-!
# What a run leaves

A run writes each package into an entry of the output directory.  The run is
followed by what the output directory holds: every bundle whose package is written
changes one entry, which its service names, and a bundle that comes to nothing
changes none.

## Main definitions

* `Bundle`, `bundles` — the bundles whose packages are written.
* `expected` — what becomes of a bundle if no file operation fails.
* `Bundle.onto` — what the output directory holds after a package was written.
* `Holds.of_generateBundle`, `Holds.of_generateAll` — what one bundle and what a
  run leaves.
* `EmptyOutput.outcomes_eq` — when no file operation of a run fails.
-/

namespace ServiceStubs

/-- A package is that of its service. -/
theorem Service.service_package {svc : Service} {p : PackageStub} (h : svc.package.Gives p) :
    p.service = svc.serviceName := by
  unfold package at h
  obtain ⟨client, -, h⟩ := h.of_bind
  obtain ⟨resource, -, h⟩ := h.of_bind
  obtain ⟨paginators, -, h⟩ := h.of_bind
  obtain ⟨waiters, -, h⟩ := h.of_bind
  obtain rfl := h.of_pure
  rfl

namespace Command

variable {t s s' : FileTree} {os : List String} {held : String → Option FileTree}
  {settings : Settings} {output path name : String} {paths : List String}

/-! ## Bundles -/

/-- A bundle whose package is written. -/
structure Bundle where
  path : String
  service : String
  built : BuiltPackage

namespace Bundle

/-- The name of the service in module names. -/
def importName (b : Bundle) : String :=
  b.built.package.service.importName

/-- The name of the directory of the package. -/
def moduleName (settings : Settings) (b : Bundle) : String :=
  b.built.package.service.moduleName settings.moduleLead

/-- The directory of the package below the output directory. -/
def directory (settings : Settings) (output : String) (b : Bundle) : String :=
  directoryFor settings output b.built.package

/-- The files of the package: their names and texts. -/
def files (settings : Settings) (b : Bundle) : List (String × String) :=
  b.built.package.files settings b.built.store

/-- The directory that has just the files of the package. -/
def contents (settings : Settings) (b : Bundle) : FileTree :=
  .directory ((b.files settings).map fun (file, text) => (file, .file text))

end Bundle

/-- The bundle of a path whose package is to be written, if the file comes to one. -/
def Bundle.ofPrepared? (path : String) : Except Failure Prepared → Option Bundle
  | .ok (.built service b) => some ⟨path, service, b⟩
  | _ => none

/-- The bundle that is read from a file, if its package is to be written. -/
def bundle? (settings : Settings) (t : FileTree) (path : String) : Option Bundle :=
  Bundle.ofPrepared? path (prepare settings path (t.read path))

/-- The bundles among some files whose packages are to be written. -/
def bundles (settings : Settings) (t : FileTree) (paths : List String) : List Bundle :=
  paths.filterMap (bundle? settings t)

/-- What becomes of a bundle that comes to something, if its package can be
written. -/
def Outcome.ofPrepared (settings : Settings) (output : String) :
    Except Failure Prepared → Outcome
  | .error f => .failed f
  | .ok (.skipped service) => .skipped service
  | .ok (.built _ b) => .generated (directoryFor settings output b.package)

/-- What becomes of a bundle if no file operation fails. -/
def expected (settings : Settings) (output : String) (t : FileTree) (path : String) : Outcome :=
  .ofPrepared settings output (prepare settings path (t.read path))

/-- What becomes of the bundles of a run. -/
def outcomes (settings : Settings) (output : String) (paths : List String) (t : FileTree) :
    List Outcome :=
  ((generateAll Disk.ofTree settings output paths).run t).1

/-- The files after a run. -/
def after (settings : Settings) (output : String) (paths : List String) (t : FileTree) :
    FileTree :=
  ((generateAll Disk.ofTree settings output paths).run t).2

theorem bundle?_eq_some {b : Bundle} (h : bundle? settings t path = some b) :
    b.path = path ∧ prepare settings path (t.read path) = .ok (.built b.service b.built) := by
  rw [bundle?] at h
  rcases hmade : prepare settings path (t.read path) with f | service | ⟨service, built⟩ <;>
    rw [hmade] at h
  · exact nomatch h
  · exact nomatch h
  · obtain rfl := Option.some.inj h
    exact ⟨rfl, rfl⟩

theorem bundle?_of_mem {b : Bundle} (h : b ∈ bundles settings t paths) :
    bundle? settings t b.path = some b := by
  obtain ⟨path, -, hb⟩ := List.mem_filterMap.mp h
  rwa [(bundle?_eq_some hb).1]

theorem bundles_cons_of_none (h : bundle? settings t path = none) :
    bundles settings t (path :: paths) = bundles settings t paths :=
  List.filterMap_cons_none h

theorem bundles_cons_of_some {b : Bundle} (h : bundle? settings t path = some b) :
    bundles settings t (path :: paths) = b :: bundles settings t paths :=
  List.filterMap_cons_some h

theorem package_of_packageOf {sch : Schema} {b : BuiltPackage} (h : packageOf sch = .ok b) :
    sch.package.1 = .ok b.package := by
  unfold packageOf at h
  generalize sch.package = made at h ⊢
  obtain ⟨_ | p, session⟩ := made
  · exact nomatch h
  · obtain rfl := Except.ok.inj h
    rfl

/-- The service that a bundle names is that of its package. -/
theorem service_of_prepare {text : Except OsError String} {service : String} {b : BuiltPackage}
    (h : prepare settings path text = .ok (.built service b)) :
    b.package.service.name = service := by
  unfold prepare at h
  obtain ⟨sch, -, h⟩ := bind_eq_ok_iff.mp h
  split at h
  · exact nomatch Except.ok.inj h
  · obtain ⟨built, hbuilt, h⟩ := bind_eq_ok_iff.mp h
    obtain ⟨rfl, rfl⟩ := Prepared.built.inj (Except.ok.inj h)
    exact congrArg ServiceName.name (Service.service_package ⟨{}, package_of_packageOf hbuilt⟩)

theorem Bundle.service_eq {b : Bundle} (h : b ∈ bundles settings t paths) :
    b.built.package.service.name = b.service :=
  service_of_prepare (bundle?_eq_some (bundle?_of_mem h)).2

/-! ## Files -/

namespace Bundle

variable (settings) (b : Bundle)

theorem map_fst_files : (b.files settings).map Prod.fst
    = PackageStub.fileNames b.built.package.serviceResource.isSome := by
  rw [← PackageStub.map_file_modules b.built.package settings b.built.store]
  exact List.map_map

/-- The first file gathers the names of the others. -/
theorem head?_files : (b.files settings).head?
    = some ("__init__.pyi", (b.built.package.initModule settings).text) := rfl

theorem isEntryName_of_mem_files : ∀ f ∈ b.files settings, IsEntryName f.1 := by
  intro f hf
  have hmem := List.mem_map_of_mem (f := Prod.fst) hf
  rw [map_fst_files] at hmem
  have hall : ∀ hasResource, ∀ file ∈ PackageStub.fileNames hasResource, IsEntryName file := by
    decide
  exact hall _ _ hmem

/-- The files of a package have different names, so none is written over. -/
theorem overlay_files : overlay ∅ (b.files settings) = b.contents settings := by
  refine overlay_directory [] ?_
  rw [map_fst_files]
  exact PackageStub.nodup_fileNames _

end Bundle

/-! ## One bundle -/

namespace Bundle

/-- What the output directory holds after the package of a bundle was written. -/
def onto (settings : Settings) (held : String → Option FileTree) (b : Bundle) :
    String → Option FileTree :=
  Function.update held (b.moduleName settings)
    (some (overlay ((held (b.moduleName settings)).getD ∅) (b.files settings)))

/-- Whether the paths of the package can be followed. -/
structure CanBeWritten (settings : Settings) (output : String) (b : Bundle) : Prop where
  directory : CanHold output (b.moduleName settings)
  files : ∀ f ∈ b.files settings, CanHold (b.directory settings output) f.1

/-- Whether the paths of a package can be followed depends on its directory only. -/
theorem canBeWritten_of_directory {b : Bundle} (hname : b.moduleName settings = name)
    (hdirectory : CanHold output name)
    (hfiles : ∀ file ∈ PackageStub.fileNames true, CanHold (joinPath output name) file) :
    b.CanBeWritten settings output where
  directory := hname ▸ hdirectory
  files f hf := by
    have hmem := List.mem_map_of_mem (f := Prod.fst) hf
    rw [map_fst_files] at hmem
    have hall : ∀ hasResource, ∀ file ∈ PackageStub.fileNames hasResource,
        file ∈ PackageStub.fileNames true := by
      decide
    subst hname
    exact hfiles _ (hall _ _ hmem)

end Bundle

theorem run_generateBundle (settings : Settings) (output path : String) (s : FileTree) :
    (generateBundle Disk.ofTree settings output path).run s
      = match prepare settings path (s.read path) with
        | .error f => (.failed f, s)
        | .ok (.skipped service) => (.skipped service, s)
        | .ok (.built service b) =>
          let directory := directoryFor settings output b.package
          match (writePackage Disk.ofTree settings directory b).run s with
          | (.ok (), s') => (.generated directory, s')
          | (.error e, s') =>
            (.failed (.ofError ("Failed to generate stubs for " ++ service) e), s') := by
  rw [generateBundle, StateT.run_bind, run_read, pure_bind]
  rcases prepare settings path (s.read path) with _ | _ | ⟨service, b⟩
  · rfl
  · rfl
  · dsimp only
    rw [StateT.run_bind]
    rcases (writePackage Disk.ofTree settings _ b).run s with ⟨_ | _, s'⟩ <;> rfl

theorem prepare_unreadable (settings : Settings) (path : String) (cause : OsError) :
    prepare settings path (.error cause)
      = .error (.ofError ("Failed to load schema bundle: " ++ path)
        (.unreadableSchema path cause)) := rfl

/-- What a bundle comes to, it still comes to when files were added. -/
theorem prepare_of_keeps (h : t.Keeps s) {made : Prepared}
    (hmade : prepare settings path (t.read path) = .ok made) :
    prepare settings path (s.read path) = .ok made := by
  cases hread : t.read path with
  | error cause =>
      rw [hread, prepare_unreadable] at hmade
      exact nomatch hmade
  | ok text => rwa [h.read hread, ← hread]

/-- Failing to write a package is told in other words than failing to read one. -/
theorem message_ne (service path : String) :
    "Failed to generate stubs for " ++ service ≠ "Failed to load schema bundle: " ++ path := by
  intro h
  have hstart := congrArg (·.toList.take 11) h
  simp only [String.toList_append] at hstart
  rw [List.take_append_of_le_length (by decide),
    List.take_append_of_le_length (by decide)] at hstart
  exact absurd hstart (by decide)

/-- A bundle that comes to nothing leaves everything as it is. -/
theorem of_generateBundle_none (h : t.Keeps s) (hb : bundle? settings t path = none)
    (hrun : (generateBundle Disk.ofTree settings output path).run s
      = (expected settings output t path, s')) : s' = s := by
  rw [run_generateBundle] at hrun
  rcases hmade : prepare settings path (s.read path) with f | service | ⟨service, b⟩ <;>
    rw [hmade] at hrun
  · exact (congrArg Prod.snd hrun).symm
  · exact (congrArg Prod.snd hrun).symm
  · exfalso
    cases hread : t.read path with
    | ok text =>
        rw [h.read hread, ← hread] at hmade
        rw [bundle?, hmade] at hb
        exact nomatch hb
    | error cause =>
        have hfailed : expected settings output t path
            = .failed (.ofError ("Failed to load schema bundle: " ++ path)
              (.unreadableSchema path cause)) := by
          rw [expected, hread, prepare_unreadable, Outcome.ofPrepared]
        rw [hfailed] at hrun
        dsimp only at hrun
        split at hrun
        · exact nomatch congrArg Prod.fst hrun
        · have hfailure := Outcome.failed.inj (congrArg Prod.fst hrun)
          exact message_ne service path (congrArg Failure.message hfailure)

namespace Holds

variable (h : Holds t os held s) (hout : EmptyOutput t output os)
include h hout

/-- **A bundle whose package was written** has changed its entry of the output
directory, and nothing else. -/
theorem of_generateBundle {b : Bundle} (hb : bundle? settings t path = some b)
    (hname : IsEntryName (b.moduleName settings))
    (hrun : (generateBundle Disk.ofTree settings output path).run s
      = (expected settings output t path, s')) :
    b.CanBeWritten settings output ∧ Holds t os (b.onto settings held) s' := by
  have hmade := (bundle?_eq_some hb).2
  rw [run_generateBundle, prepare_of_keeps h.keeps hmade, expected, hmade] at hrun
  dsimp only at hrun
  split at hrun
  · rename_i next hwrite
    obtain rfl := congrArg Prod.snd hrun
    obtain ⟨⟨hcan, hcanFiles⟩, hnext⟩ :=
      h.of_writePackage hout hname (b.isEntryName_of_mem_files settings) hwrite
    exact ⟨⟨hcan, hcanFiles⟩, hnext⟩
  · exact nomatch congrArg Prod.fst hrun

/-- A bundle whose package can be written comes to what it says. -/
theorem exists_generateBundle {b : Bundle} (hb : bundle? settings t path = some b)
    (hflat : ∀ name d, held name = some d → IsFlat d)
    (hname : IsEntryName (b.moduleName settings)) (hcan : b.CanBeWritten settings output) :
    ∃ s', (generateBundle Disk.ofTree settings output path).run s
      = (expected settings output t path, s') := by
  have hmade := (bundle?_eq_some hb).2
  obtain ⟨s', hwrite⟩ : ∃ s', (writePackage Disk.ofTree settings
      (directoryFor settings output b.built.package) b.built).run s = (.ok (), s') :=
    h.exists_writePackage hout (hflat _) hname (b.isEntryName_of_mem_files settings) hcan.directory
      hcan.files
  refine ⟨s', ?_⟩
  rw [run_generateBundle, prepare_of_keeps h.keeps hmade, expected, hmade]
  dsimp only
  rw [hwrite]
  rfl

end Holds

/-! ## A run -/

theorem outcomes_cons (settings : Settings) (output path : String) (paths : List String)
    (s : FileTree) :
    outcomes settings output (path :: paths) s
      = ((generateBundle Disk.ofTree settings output path).run s).1
        :: outcomes settings output paths
          ((generateBundle Disk.ofTree settings output path).run s).2 := by
  rw [outcomes, generateAll, List.mapM_cons]
  rfl

theorem after_cons (settings : Settings) (output path : String) (paths : List String)
    (s : FileTree) :
    after settings output (path :: paths) s
      = after settings output paths
        ((generateBundle Disk.ofTree settings output path).run s).2 := by
  rw [after, generateAll, List.mapM_cons]
  rfl

/-- **What a run leaves**: the output directory has the packages, one over the other
where they have the same directory, and nothing else has changed. -/
theorem Holds.of_generateAll (h : Holds t os held s) (hout : EmptyOutput t output os)
    (hnames : ∀ b ∈ bundles settings t paths, IsEntryName (b.moduleName settings))
    (hok : outcomes settings output paths s = paths.map (expected settings output t)) :
    (∀ b ∈ bundles settings t paths, b.CanBeWritten settings output) ∧
      Holds t os ((bundles settings t paths).foldl (Bundle.onto settings) held)
        (after settings output paths s) := by
  induction paths generalizing s held with
  | nil => exact ⟨nofun, h⟩
  | cons path paths ih =>
      rw [outcomes_cons, List.map_cons, List.cons.injEq] at hok
      obtain ⟨hbundle, hrest⟩ := hok
      rw [after_cons]
      rcases hrun : (generateBundle Disk.ofTree settings output path).run s with ⟨o, next⟩
      rw [hrun] at hbundle hrest
      obtain rfl : o = expected settings output t path := hbundle
      cases hb : bundle? settings t path with
      | none =>
          rw [bundles_cons_of_none hb] at hnames ⊢
          obtain rfl := of_generateBundle_none h.keeps hb hrun
          exact ih h hnames hrest
      | some b =>
          rw [bundles_cons_of_some hb] at hnames ⊢
          obtain ⟨hname, hnames⟩ := List.forall_mem_cons.mp hnames
          obtain ⟨hcan, hnext⟩ := h.of_generateBundle hout hb hname hrun
          obtain ⟨hcans, hs'⟩ := ih hnext hnames hrest
          exact ⟨List.forall_mem_cons.mpr ⟨hcan, hcans⟩, hs'⟩

/-- What is flat stays so when a package is written over it. -/
theorem Bundle.isFlat_onto (hflat : ∀ name d, held name = some d → IsFlat d) (b : Bundle)
    (name : String) (d : FileTree) (hd : b.onto settings held name = some d) : IsFlat d := by
  rw [onto, Function.update_apply] at hd
  split at hd
  · rw [← Option.some.inj hd]
    refine IsFlat.overlay ?_ _
    cases hheld : held (b.moduleName settings) with
    | none => exact isFlat_empty
    | some found => exact hflat _ found hheld
  · exact hflat name d hd

/-- **No file operation of a run fails** if all bundles can be read and all packages
can be written. -/
theorem Holds.outcomes_eq (h : Holds t os held s) (hout : EmptyOutput t output os)
    (hflat : ∀ name d, held name = some d → IsFlat d)
    (hread : ∀ path ∈ paths, (t.read path).isOk)
    (hnames : ∀ b ∈ bundles settings t paths, IsEntryName (b.moduleName settings))
    (hcan : ∀ b ∈ bundles settings t paths, b.CanBeWritten settings output) :
    outcomes settings output paths s = paths.map (expected settings output t) := by
  induction paths generalizing s held with
  | nil => rfl
  | cons path paths ih =>
      obtain ⟨hpath, hread⟩ := List.forall_mem_cons.mp hread
      obtain ⟨text, htext⟩ := isOk_iff.mp hpath
      rw [outcomes_cons, List.map_cons]
      cases hb : bundle? settings t path with
      | none =>
          rw [bundles_cons_of_none hb] at hnames hcan
          have hrun : (generateBundle Disk.ofTree settings output path).run s
              = (expected settings output t path, s) := by
            rw [run_generateBundle, expected, h.keeps.read htext, htext]
            rcases hmade : prepare settings path (.ok text) with f | service | ⟨service, b⟩
            · rfl
            · rfl
            · rw [bundle?, htext, hmade] at hb
              exact nomatch hb
          rw [hrun, ih h hflat hread hnames hcan]
      | some b =>
          rw [bundles_cons_of_some hb] at hnames hcan
          obtain ⟨hname, hnames⟩ := List.forall_mem_cons.mp hnames
          obtain ⟨hcan, hcans⟩ := List.forall_mem_cons.mp hcan
          obtain ⟨next, hrun⟩ := h.exists_generateBundle hout hb hflat hname hcan
          obtain ⟨-, hnext⟩ := h.of_generateBundle hout hb hname hrun
          rw [hrun, ih hnext (b.isFlat_onto hflat) hread hnames hcans]

/-- The same for a whole run. -/
theorem EmptyOutput.outcomes_eq (hout : EmptyOutput t output os)
    (hread : ∀ path ∈ paths, (t.read path).isOk)
    (hnames : ∀ b ∈ bundles settings t paths, IsEntryName (b.moduleName settings))
    (hcan : ∀ b ∈ bundles settings t paths, b.CanBeWritten settings output) :
    outcomes settings output paths t = paths.map (expected settings output t) :=
  hout.holds.outcomes_eq hout nofun hread hnames hcan

end Command

end ServiceStubs
