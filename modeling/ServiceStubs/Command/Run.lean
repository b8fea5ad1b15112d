import ServiceStubs.Command.Generate
import ServiceStubs.Command.Request
import ServiceStubs.Files.Discovery
import ServiceStubs.Settings.Reading

/-!
# Runs

A run answers a request: it reads from a disk and writes to it, says something,
and succeeds or fails.

## Main definitions

* `Transcript` — what a run says, and whether it failed.
* `parseRun`, `generateRun` — the runs of the two commands.
* `run` — the run of some arguments.
-/

namespace ServiceStubs.Command

variable {m : Type → Type} [Monad m]

/-- What a run says, and why it failed if it did. -/
structure Transcript where
  lines : List Line := []
  failure : Option Failure := none
  /-- Whether the arguments were no request. -/
  misused : Bool := false

namespace Transcript

/-- The code with which the program ends. -/
def exitCode (t : Transcript) : Nat :=
  if t.misused then 2 else if t.failure.isSome then 1 else 0

/-- The text of the output. -/
def output (t : Transcript) : String :=
  String.join (t.lines.filterMap fun
    | .out text => some (text ++ "\n")
    | .err _ => none)

/-- The lines of the messages. -/
def messages (t : Transcript) : List String :=
  t.lines.flatMap (fun
    | .out _ => []
    | .err text => Text.splitOn '\n' text)
  ++ match t.failure with
    | some f => f.report
    | none => []

/-- Lines before those of a transcript. -/
def after (lines : List String) (t : Transcript) : Transcript :=
  { t with lines := lines.map .out ++ t.lines }

end Transcript

/-! ## Showing a package -/

/-- What is said about a bundle, given what reading it yields. -/
def parseTranscript (verbose : Bool) (path : String) (text : Except OsError String) :
    Transcript :=
  match readBundle path text >>= packageOf with
  | .ok b => { lines := (b.summary ++ if verbose then b.details else []).map .out }
  | .error f => { failure := some f }

/-- Shows the package of a bundle. -/
def parseRun (disk : Disk m) (verbose : Bool) (path : String) : m Transcript := do
  return (parseTranscript verbose path (← disk.read path)).after ["→ Parsing schema: " ++ path]

/-! ## Generating packages -/

/-- What is said about a file that was found. -/
def findingLine : Finding → String
  | .found path => "  Found: " ++ path
  | .filtered path => "  Skipping " ++ path ++ " (not in filter)"

/-- What is said about a search, and the paths that it yields. -/
def discoveryLines (verbose : Bool) (found : List Finding) : List String :=
  (if verbose then found.map findingLine else [])
    ++ ["✓ Discovered " ++ toString (found.filterMap Finding.kept?).length ++ " schema bundles"]

/-- Searches a directory, if one is given. -/
def discover (disk : Disk m) (s : Selection) : m (Except Failure (Option (List Finding))) := do
  match s.directory with
  | none => return .ok none
  | some path =>
    match ← disk.directory? path with
    | none => return .error { message := "Not a directory: " ++ path }
    | some t => return .ok (some (findings s.filter path t))

/-- The settings of a text. -/
def settingsOf (path : String) : Except OsError String → Except Error Settings
  | .error cause => .error (.unreadableConfig path cause)
  | .ok text =>
    match Settings.ofText? text with
    | some settings => .ok settings
    | none => .error .malformedConfig

/-- Loads the settings, if a file is given. -/
def loadSettings (disk : Disk m) (s : Selection) : m (Except Failure Settings) := do
  match s.config with
  | none => return .ok {}
  | some path =>
    return within ("Failed to load config: " ++ path) (settingsOf path (← disk.read path))

/-- Generates the packages of some bundles. -/
def generatePaths (disk : Disk m) (settings : Settings) (verbose : Bool) (output : String)
    (paths : List String) : m Transcript := do
  let outcomes ← generateAll disk settings output paths
  return {
    lines := generateLines settings output verbose paths outcomes
    failure := generateFailure? outcomes }

/-- Generates the packages that are selected. -/
def generateRun (disk : Disk m) (verbose : Bool) (s : Selection) : m Transcript := do
  match ← discover disk s with
  | .error f => return { failure := some f }
  | .ok found =>
    let said := (found.map (discoveryLines verbose)).getD []
    let paths := s.schemas ++ (found.getD []).filterMap Finding.kept?
    match ← loadSettings disk s with
    | .error f => return Transcript.after said { failure := some f }
    | .ok settings =>
      return Transcript.after said (← generatePaths disk settings verbose s.output paths)

/-! ## Runs -/

/-- How the program is called. -/
def usageLines : List String :=
  ["Generate typed stub packages from SDK service schemas", "",
    "Usage: sdk-stubgen [-v] parse --schema <SCHEMA>",
    "       sdk-stubgen [-v] generate --schema <SCHEMA>... [--schema-dir <DIR>]",
    "                   [--filter <NAMES>] [--output <DIR>] [--config <FILE>]"]

/-- What is said before anything else. -/
def verboseLines (verbose : Bool) : List String :=
  if verbose then ["→ Verbose mode enabled"] else []

/-- Answers a request. -/
def answer (disk : Disk m) : Request → m Transcript
  | .help => return { lines := usageLines.map .out }
  | .version => return { lines := [.out ("sdk-stubgen " ++ version)] }
  | .parse verbose schema => do
    return (← parseRun disk verbose schema).after (verboseLines verbose)
  | .generate verbose selection => do
    return (← generateRun disk verbose selection).after (verboseLines verbose)

/-- The run of some arguments. -/
def run (disk : Disk m) (args : List String) : m Transcript :=
  match Request.ofArgs? args with
  | some r => answer disk r
  | none => return { lines := usageLines.map .err, misused := true }

end ServiceStubs.Command
