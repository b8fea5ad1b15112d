import ServiceStubs.Command.Show
import ServiceStubs.Files.Disk
import ServiceStubs.Stub.Package

/-!
# Generating packages

The bundles are taken one after the other.  One that fails is reported and the
others are generated all the same; the run fails only if some bundle failed and
none was generated.

## Main definitions

* `Outcome` — what became of one bundle.
* `generateBundle`, `generateAll` — takes the bundles one after the other.
* `generateLines`, `generateFailure?` — what is said about the outcomes, and
  whether the run failed.
-/

namespace ServiceStubs.Command

variable {m : Type → Type} [Monad m]

/-- What became of a bundle. -/
inductive Outcome
  /-- Its package was written to a directory. -/
  | generated (directory : String)
  /-- Its service is left out. -/
  | skipped (service : String)
  | failed (f : Failure)
  deriving DecidableEq

namespace Outcome

/-- The directory of the package that was written. -/
def directory? : Outcome → Option String
  | generated directory => some directory
  | _ => none

/-- Whether the bundle failed. -/
def isFailed : Outcome → Bool
  | failed _ => true
  | _ => false

/-- What is said about a bundle. -/
def line (path : String) : Outcome → Line
  | generated directory => .out ("✓ Generated " ++ directory)
  | skipped service => .out ("  Skipping " ++ service ++ " (listed in skip_services)")
  | failed f => .err ("⚠ Skipping " ++ path ++ ": " ++ f.line)

end Outcome

/-! ## Writing -/

/-- Writes some files into a directory, up to the first one that fails. -/
def writeFiles (disk : Disk m) (directory : String) :
    List (String × String) → m (Except Error Unit)
  | [] => return .ok ()
  | (file, text) :: files => do
    match ← disk.write (joinPath directory file) text with
    | .ok () => writeFiles disk directory files
    | .error cause => return .error (.unwrittenModule file cause)

/-- The directory of a package below the output directory. -/
def directoryFor (settings : Settings) (output : String) (p : PackageStub) : String :=
  joinPath output (p.service.moduleName settings.moduleLead)

/-- Writes a package. -/
def writePackage (disk : Disk m) (settings : Settings) (directory : String)
    (b : BuiltPackage) : m (Except Error Unit) := do
  match ← disk.makeDirs directory with
  | .ok () => writeFiles disk directory (b.package.files settings b.store)
  | .error cause => return .error (.uncreatedDirectory directory cause)

/-! ## Bundles -/

/-- Generates the package of a bundle. -/
def generateBundle (disk : Disk m) (settings : Settings) (output path : String) :
    m Outcome := do
  match prepare settings path (← disk.read path) with
  | .error f => return .failed f
  | .ok (.skipped service) => return .skipped service
  | .ok (.built service b) =>
    let directory := directoryFor settings output b.package
    match ← writePackage disk settings directory b with
    | .ok () => return .generated directory
    | .error e => return .failed (.ofError ("Failed to generate stubs for " ++ service) e)

/-- Generates the packages of some bundles, one after the other. -/
def generateAll (disk : Disk m) (settings : Settings) (output : String)
    (paths : List String) : m (List Outcome) :=
  paths.mapM (generateBundle disk settings output)

/-! ## What is said -/

/-- Why a run with some outcomes failed, if it did. -/
def generateFailure? (outcomes : List Outcome) : Option Failure :=
  if outcomes.isEmpty then some { message := "No schema bundles to generate from" }
  else if outcomes.any Outcome.isFailed && !outcomes.any (·.directory?.isSome) then
    some { message := "No stub packages were generated" }
  else none

/-- What is said before the bundles are taken. -/
def startLines (settings : Settings) (output : String) (verbose : Bool) (count : Nat) :
    List String :=
  ["→ Generating stubs for " ++ toString count ++ " schema bundle(s)"]
    ++ if verbose then ["  Module prefix: " ++ settings.moduleLead, "  Output: " ++ output] else []

/-- What is said when some bundles failed. -/
def failedLines (outcomes : List Outcome) : List String :=
  match (outcomes.filter Outcome.isFailed).length with
  | 0 => []
  | n => ["", "⚠ Skipped " ++ toString n ++ " schema bundle(s) due to errors"]

/-- What is said at the end of a run that did not fail. -/
def endLines (outcomes : List Outcome) : List String :=
  ["", "✓ Generation complete!", "", "Generated packages:"]
    ++ (outcomes.filterMap Outcome.directory?).map ("  📦 " ++ ·)

/-- What is said about the bundles of some paths. -/
def generateLines (settings : Settings) (output : String) (verbose : Bool)
    (paths : List String) (outcomes : List Outcome) : List Line :=
  if outcomes.isEmpty then []
  else
    (startLines settings output verbose paths.length).map .out
      ++ (paths.zip outcomes).map (fun (path, o) => o.line path)
      ++ (failedLines outcomes).map .out
      ++ if (generateFailure? outcomes).isSome then [] else (endLines outcomes).map .out

end ServiceStubs.Command
