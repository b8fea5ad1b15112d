import ServiceStubs.Command.Run
import ServiceStubs.Proofs.Command.Packages

/-!
# What becomes of the bundles of a run

A bundle is generated if its file can be read, holds a schema that is valid and not left
out, and if the schema has a package.  In any other case it fails or is skipped, and then
it leaves the files as they are, so the run goes on as if it had not been there.

What a bundle comes to depends on its file when its turn comes; the run as a whole
fails if there are no bundles, or if some failed and none was generated.

## Main definitions

* `Generates`, `Becomes` — what becomes of a bundle, given what reading its file yields.
* `turns`, `reports` — the bundles of a run with what is read at their turns, and with
  what becomes of them.
* `packagesWritten` — no package of a run fails to be written.
* `outcome_generatePaths` — the outcome of a run.
-/

namespace ServiceStubs.Command

variable {settings : Settings} {output path : String} {paths : List String} {t : FileTree}
  {text : Except OsError String} {o : Outcome}

/-! ## What becomes of a bundle -/

/-- The package that is generated for a bundle, given what reading its file yields: the
file can be read and holds a schema, which is valid, not left out, and has the package. -/
def Generates (settings : Settings) (text : Except OsError String) (p : PackageStub) : Prop :=
  ∃ content sch, text = .ok content ∧ Schema.ofText content = .ok sch ∧
    sch.validate = .ok () ∧ sch.serviceName ∉ settings.skippedServices ∧ sch.package.1 = .ok p

/-- What becomes of the bundle in a file, given what reading the file yields.  A service is
left out only if its schema is valid. -/
inductive Becomes (settings : Settings) (output path : String) :
    Except OsError String → Outcome → Prop
  | unreadable {cause} :
      Becomes settings output path (.error cause)
        (.failed (.ofError ("Failed to load schema bundle: " ++ path)
          (.unreadableSchema path cause)))
  | malformed {content e} (hsch : Schema.ofText content = .error e) :
      Becomes settings output path (.ok content)
        (.failed (.ofError ("Failed to load schema bundle: " ++ path) e))
  | invalid {content sch e} (hsch : Schema.ofText content = .ok sch)
      (hvalid : sch.validate = .error e) :
      Becomes settings output path (.ok content)
        (.failed (.ofError ("Invalid schema bundle: " ++ path) e))
  | skipped {content sch} (hsch : Schema.ofText content = .ok sch)
      (hvalid : sch.validate = .ok ()) (hskips : sch.serviceName ∈ settings.skippedServices) :
      Becomes settings output path (.ok content) (.skipped sch.serviceName)
  | unparsed {content sch e} (hsch : Schema.ofText content = .ok sch)
      (hvalid : sch.validate = .ok ()) (hskips : sch.serviceName ∉ settings.skippedServices)
      (hpackage : sch.package.1 = .error e) :
      Becomes settings output path (.ok content)
        (.failed (.ofError ("Failed to parse service " ++ sch.serviceName) e))
  | generated {text p} (h : Generates settings text p) :
      Becomes settings output path text (.generated (directoryFor settings output p))

theorem skips_iff {service : String} :
    settings.skips service ↔ service ∈ settings.skippedServices :=
  List.contains_iff_mem

theorem exists_packageOf_of_ok {sch : Schema} {p : PackageStub} (h : sch.package.1 = .ok p) :
    ∃ b, packageOf sch = .ok b ∧ b.package = p := by
  unfold packageOf
  generalize sch.package = made at h ⊢
  obtain ⟨r, session⟩ := made
  obtain rfl : r = .ok p := h
  exact ⟨_, rfl, rfl⟩

theorem packageOf_of_error {sch : Schema} {e : Error} (h : sch.package.1 = .error e) :
    packageOf sch = .error (.ofError ("Failed to parse service " ++ sch.serviceName) e) := by
  unfold packageOf
  generalize sch.package = made at h ⊢
  obtain ⟨r, session⟩ := made
  obtain rfl : r = .error e := h
  rfl

/-- The steps from the text of a file to a package. -/
theorem prepare_content (settings : Settings) (path content : String) :
    prepare settings path (.ok content) = match Schema.ofText content with
      | .error e => .error (.ofError ("Failed to load schema bundle: " ++ path) e)
      | .ok sch =>
        match sch.validate with
        | .error e => .error (.ofError ("Invalid schema bundle: " ++ path) e)
        | .ok () =>
          if settings.skips sch.serviceName then .ok (.skipped sch.serviceName)
          else (packageOf sch).map (.built sch.serviceName) := by
  have hread : bundleText path (.ok content) >>= Schema.ofText = Schema.ofText content := rfl
  rw [prepare, readBundle, hread]
  cases Schema.ofText content with
  | error e => rfl
  | ok sch =>
      change (within ("Invalid schema bundle: " ++ path) sch.validate >>= fun _ => pure sch) >>= _ = _
      dsimp only
      cases sch.validate with
      | error e => rfl
      | ok =>
          change (if settings.skips sch.serviceName then _ else packageOf sch >>= _) = _
          dsimp only
          cases packageOf sch <;> rfl

theorem becomes_ofPrepared (settings : Settings) (output path : String)
    (text : Except OsError String) :
    Becomes settings output path text (.ofPrepared settings output (prepare settings path text)) := by
  cases text with
  | error cause => exact .unreadable
  | ok content =>
      rw [prepare_content]
      cases hsch : Schema.ofText content with
      | error e => exact .malformed hsch
      | ok sch =>
          dsimp only
          cases hvalid : sch.validate with
          | error e => exact .invalid hsch hvalid
          | ok =>
              dsimp only
              by_cases hskips : sch.serviceName ∈ settings.skippedServices
              · rw [if_pos (skips_iff.mpr hskips)]
                exact .skipped hsch hvalid hskips
              · rw [if_neg (skips_iff.not.mpr hskips)]
                cases hpackage : sch.package.1 with
                | error e =>
                    rw [packageOf_of_error hpackage]
                    exact .unparsed hsch hvalid hskips hpackage
                | ok p =>
                    obtain ⟨b, hb, rfl⟩ := exists_packageOf_of_ok hpackage
                    rw [hb]
                    exact .generated ⟨content, sch, rfl, hsch, hvalid, hskips, hpackage⟩

/-- **What becomes of a bundle** is told by the steps up to its package. -/
theorem becomes_iff :
    Becomes settings output path text o ↔
      o = .ofPrepared settings output (prepare settings path text) := by
  refine ⟨fun h => ?_, ?_⟩
  · cases h with
    | unreadable => rfl
    | malformed hsch =>
        rw [prepare_content, hsch]
        rfl
    | invalid hsch hvalid =>
        simp only [prepare_content, hsch, hvalid]
        rfl
    | skipped hsch hvalid hskips =>
        simp only [prepare_content, hsch, hvalid, if_pos (skips_iff.mpr hskips)]
        rfl
    | unparsed hsch hvalid hskips hpackage =>
        simp only [prepare_content, hsch, hvalid, if_neg (skips_iff.not.mpr hskips),
          packageOf_of_error hpackage]
        rfl
    | generated h =>
        obtain ⟨content, sch, rfl, hsch, hvalid, hskips, hpackage⟩ := h
        obtain ⟨b, hb, rfl⟩ := exists_packageOf_of_ok hpackage
        simp only [prepare_content, hsch, hvalid, if_neg (skips_iff.not.mpr hskips), hb]
        rfl
  · rintro rfl
    exact becomes_ofPrepared settings output path text

/-- A package is generated just when the bundle has one. -/
theorem generated_iff (directory : String) :
    Outcome.ofPrepared settings output (prepare settings path text) = .generated directory ↔
      ∃ p, Generates settings text p ∧ directory = directoryFor settings output p := by
  constructor
  · intro h
    have hbecomes := becomes_ofPrepared settings output path text
    rw [h] at hbecomes
    cases hbecomes with
    | generated hp => exact ⟨_, hp, rfl⟩
  · rintro ⟨p, hp, rfl⟩
    exact (becomes_iff.mp (.generated hp)).symm

/-! ## The turn of a bundle -/

/-- The package that a bundle comes to, if it is one, can be written. -/
def Prepared.isWritten (settings : Settings) (output : String) (t : FileTree) : Prepared → Bool
  | .skipped _ => true
  | .built _ b =>
    ((writePackage Disk.ofTree settings (directoryFor settings output b.package) b).run t).1.isOk

/-- The package of a bundle, if there is one, can be written. -/
def packageWritten (settings : Settings) (output path : String) (t : FileTree) : Bool :=
  (prepare settings path (t.read path)).toOption.all (Prepared.isWritten settings output t)

/-- The files after the turn of a bundle. -/
def afterTurn (settings : Settings) (output path : String) (t : FileTree) : FileTree :=
  ((generateBundle Disk.ofTree settings output path).run t).2

/-- A bundle whose package can be written comes to what its file says. -/
theorem generateBundle_of_packageWritten (h : packageWritten settings output path t) :
    ((generateBundle Disk.ofTree settings output path).run t).1
      = expected settings output t path := by
  unfold packageWritten at h
  rw [run_generateBundle, expected]
  rcases hmade : prepare settings path (t.read path) with f | service | ⟨service, b⟩
  · rfl
  · rfl
  · rw [hmade, Except.toOption, Option.all_some, Prepared.isWritten] at h
    obtain ⟨⟨⟩, hwrite⟩ := isOk_iff.mp h
    dsimp only
    rcases hrun : (writePackage Disk.ofTree settings (directoryFor settings output b.package) b).run t
      with ⟨r, s'⟩
    rw [hrun] at hwrite
    obtain rfl : r = .ok () := hwrite
    rfl

/-- **A bundle that is not generated leaves the files as they are.** -/
theorem afterTurn_of_directory?_eq_none (h : (expected settings output t path).directory? = none) :
    afterTurn settings output path t = t := by
  rw [expected] at h
  rw [afterTurn, run_generateBundle]
  rcases hmade : prepare settings path (t.read path) with f | service | ⟨service, b⟩
  · rfl
  · rfl
  · rw [hmade] at h
    exact absurd h (Option.some_ne_none _)

/-! ## Runs -/

/-- The bundles of a run, with what is read when their turns come. -/
def turns (settings : Settings) (output : String) :
    List String → FileTree → List (String × Except OsError String)
  | [], _ => []
  | path :: paths, t =>
    (path, t.read path) :: turns settings output paths (afterTurn settings output path t)

/-- All packages of a run can be written when their turns come. -/
def packagesWritten (settings : Settings) (output : String) : List String → FileTree → Bool
  | [], _ => true
  | path :: paths, t =>
    packageWritten settings output path t
      && packagesWritten settings output paths (afterTurn settings output path t)

/-- The bundles of a run, with what becomes of them. -/
def reports (settings : Settings) (output : String) (paths : List String) (t : FileTree) :
    List (String × Outcome) :=
  paths.zip (outcomes settings output paths t)

theorem length_outcomes (settings : Settings) (output : String) (paths : List String)
    (t : FileTree) : (outcomes settings output paths t).length = paths.length := by
  induction paths generalizing t with
  | nil => rfl
  | cons path paths ih => rw [outcomes_cons, List.length_cons, ih, List.length_cons]

theorem map_fst_turns (settings : Settings) (output : String) (paths : List String)
    (t : FileTree) : (turns settings output paths t).map Prod.fst = paths := by
  induction paths generalizing t with
  | nil => rfl
  | cons path paths ih => rw [turns, List.map_cons, ih]

/-- Each bundle of a run becomes what its file says when its turn comes. -/
theorem outcomes_eq_map_turns (h : packagesWritten settings output paths t) :
    outcomes settings output paths t = (turns settings output paths t).map fun turn =>
      .ofPrepared settings output (prepare settings turn.1 turn.2) := by
  induction paths generalizing t with
  | nil => rfl
  | cons path paths ih =>
      rw [packagesWritten, Bool.and_eq_true] at h
      rw [outcomes_cons, generateBundle_of_packageWritten h.1, turns, List.map_cons, ← ih h.2]
      rfl

theorem reports_cons (h : packageWritten settings output path t) :
    reports settings output (path :: paths) t
      = (path, expected settings output t path)
        :: reports settings output paths (afterTurn settings output path t) := by
  rw [reports, outcomes_cons, generateBundle_of_packageWritten h]
  rfl

/-- **A bundle that failed is as if it had not been there**: without it, the same becomes
of the others, and the files after the run are the same. -/
theorem reports_eraseIdx (h : packagesWritten settings output paths t) {i : Nat} {f : Failure}
    (hi : (reports settings output paths t)[i]? = some (path, .failed f)) :
    reports settings output (paths.eraseIdx i) t = (reports settings output paths t).eraseIdx i ∧
      after settings output (paths.eraseIdx i) t = after settings output paths t := by
  induction paths generalizing t i with
  | nil => nomatch hi
  | cons first paths ih =>
      rw [packagesWritten, Bool.and_eq_true] at h
      rw [reports_cons h.1] at hi ⊢
      rw [after_cons]
      cases i with
      | zero =>
          -- The first bundle failed, so the others start from the same files without it.
          have hfailed : expected settings output t first = .failed f :=
            congrArg Prod.snd (Option.some.inj hi)
          have hstays : afterTurn settings output first t = t :=
            afterTurn_of_directory?_eq_none (by rw [hfailed]; rfl)
          rw [hstays, List.eraseIdx_cons_zero, List.eraseIdx_cons_zero]
          exact ⟨rfl, congrArg (after settings output paths) hstays.symm⟩
      | succ i =>
          obtain ⟨hreports, hafter⟩ := ih h.2 hi
          rw [List.eraseIdx_cons_succ, List.eraseIdx_cons_succ, reports_cons h.1, after_cons,
            hreports]
          exact ⟨rfl, hafter⟩

/-! ## The outcome of a run -/

/-- A run fails if there is nothing to generate, or if some bundle failed and none was
generated. -/
theorem isSome_generateFailure?_iff {os : List Outcome} :
    (generateFailure? os).isSome ↔
      os = [] ∨ (∃ o ∈ os, o.isFailed) ∧ ∀ o ∈ os, o.directory? = none := by
  rw [generateFailure?]
  by_cases hempty : os = []
  · simp [hempty]
  · by_cases hfails : (os.any Outcome.isFailed && !os.any (·.directory?.isSome)) = true
    · rw [if_neg (by simpa using hempty), if_pos hfails]
      simpa [hempty] using hfails
    · rw [if_neg (by simpa using hempty), if_neg hfails]
      simpa [hempty] using hfails

/-- **The outcome of a run** whose packages can all be written.  Of each bundle becomes just
what its file says when its turn comes; in particular the packages that are generated are
those of the bundles that have one, in their order.  A bundle that failed changes nothing
of what is said about the others.  The run fails if there are no bundles, or if some failed
and none was generated. -/
theorem outcome_generatePaths (settings : Settings) (verbose : Bool) (output : String)
    (paths : List String) (t : FileTree) (h : packagesWritten settings output paths t) :
    let r := ((generatePaths Disk.ofTree settings verbose output paths).run t).1
    let os := outcomes settings output paths t
    (turns settings output paths t).map Prod.fst = paths ∧
    List.Forall₂ (fun turn o =>
        (∀ o', Becomes settings output turn.1 turn.2 o' ↔ o' = o) ∧
        ∀ directory, o = .generated directory ↔
          ∃ p, Generates settings turn.2 p ∧ directory = directoryFor settings output p)
      (turns settings output paths t) os ∧
    (∀ i path f, (reports settings output paths t)[i]? = some (path, .failed f) →
      reports settings output (paths.eraseIdx i) t
        = (reports settings output paths t).eraseIdx i) ∧
    r.lines = generateLines settings output verbose paths os ∧
    (r.failure.isSome ↔
      paths = [] ∨ (∃ o ∈ os, o.isFailed) ∧ ∀ o ∈ os, o.directory? = none) := by
  intro r os
  have hempty : os = [] ↔ paths = [] := by
    rw [← List.length_eq_zero_iff, length_outcomes, List.length_eq_zero_iff]
  refine ⟨map_fst_turns settings output paths t, ?_, fun i path f hi => (reports_eraseIdx h hi).1,
    rfl, ?_⟩
  · rw [show os = _ from outcomes_eq_map_turns h, List.forall₂_map_right_iff, List.forall₂_same]
    exact fun turn _ => ⟨fun _ => becomes_iff, fun _ => generated_iff _⟩
  · rw [← hempty]
    exact isSome_generateFailure?_iff

/-! ## A run of all kinds of bundles -/

/-- The text of a bundle of a service without operations, with something else. -/
def bareBundle (service further : String) : String :=
  "\x7b\"service_name\":\"" ++ service ++ "\",\"class_name\":\"Lid\",\"model\":\x7b\x7d"
    ++ further ++ "\x7d"

/-- A text that is no bundle, a bundle with a paginator of no operation, two good bundles,
and an empty directory. -/
def tray : FileTree :=
  .directory [("broken.json", .file "\x7b"),
    ("invalid.json",
      .file (bareBundle "box" ",\"paginators\":\x7b\"ListBoxes\":\x7b\"input_token\":\"a\"\x7d\x7d")),
    ("box.json", .file (bareBundle "box" "")),
    ("lid.json", .file (bareBundle "lid" "")), ("out", ∅)]

/-- The bundles in the tray, and one that is not there. -/
def trayPaths : List String :=
  ["broken.json", "lid.json", "invalid.json", "box.json", "missing.json"]

/-- The settings that leave out the service of boxes. -/
def noBoxes : Settings where
  skippedServices := ["box"]

/-- One package is generated beside bundles that fail, one of which is of a service that is
left out; the run succeeds, and would say the same without the bundle that is none. -/
theorem tray_generated :
    packagesWritten noBoxes "out" trayPaths tray ∧
    (outcomes noBoxes "out" trayPaths tray).map Outcome.isFailed
      = [true, false, true, false, true] ∧
    (outcomes noBoxes "out" trayPaths tray).filterMap Outcome.directory?
      = ["out/mypy_boto3_lid"] ∧
    ¬((generatePaths Disk.ofTree noBoxes false "out" trayPaths).run tray).1.failure.isSome ∧
    reports noBoxes "out" ["lid.json", "invalid.json", "box.json", "missing.json"] tray
      = (reports noBoxes "out" trayPaths tray).eraseIdx 0 := by
  have hrun : packagesWritten noBoxes "out" trayPaths tray ∧
      (outcomes noBoxes "out" trayPaths tray).map Outcome.isFailed
        = [true, false, true, false, true] ∧
      (outcomes noBoxes "out" trayPaths tray).filterMap Outcome.directory?
        = ["out/mypy_boto3_lid"] ∧
      (reports noBoxes "out" trayPaths tray)[0]? = some ("broken.json",
        .failed (.ofError "Failed to load schema bundle: broken.json" .malformedSchema)) := by
    decide +kernel
  obtain ⟨hwritten, hfailed, hdirectories, hbroken⟩ := hrun
  obtain ⟨-, -, herase, -, hfails⟩ :=
    outcome_generatePaths noBoxes false "out" trayPaths tray hwritten
  refine ⟨hwritten, hfailed, hdirectories, fun hfailure => ?_, herase 0 _ _ hbroken⟩
  rcases hfails.mp hfailure with hnone | ⟨-, hnone⟩
  · exact absurd hnone (by decide)
  · exact nomatch hdirectories.symm.trans (List.filterMap_eq_nil_iff.mpr hnone)

end ServiceStubs.Command
