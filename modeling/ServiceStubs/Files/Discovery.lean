import ServiceStubs.Files.Tree

/-!
# Discovery of schema files

A directory is searched for the schemas in it, at any depth.  Its entries are
visited by name, and a directory among them is searched where its name stands,
unless the path to it has become too long: then nothing says that it is one.

## Main definitions

* `Finding` — a schema file that was found, or one that the filter leaves out.
* `findings` — what is found below a path.
* `discovered` — the paths of the schema files.
-/

namespace ServiceStubs

/-- A schema file that was found. -/
inductive Finding
  | found (path : String)
  /-- One that the filter leaves out. -/
  | filtered (path : String)
  deriving DecidableEq

/-- The path of a file that was found and not left out. -/
def Finding.kept? : Finding → Option String
  | found path => some path
  | filtered _ => none

/-- The extension of schema files. -/
def schemaExtension : String := "json"

/-- Whether a filter lets a file pass.  A filter is a list of stems. -/
def passes (filter : Option (List String)) (path : String) : Bool :=
  filter.all (·.contains (stem (fileName path)))

/-- What is found at the path of a file. -/
def findingAt (filter : Option (List String)) (path : String) : List Finding :=
  if extension? (fileName path) ≠ some schemaExtension then []
  else if passes filter path then [.found path]
  else [.filtered path]

/-- Entries by name. -/
def sortByName {α : Type} (entries : List (String × α)) : List (String × α) :=
  entries.mergeSort fun a b => !(decide (b.1 < a.1))

mutual

/-- What is found below a path.  A directory whose path cannot be followed is
taken for a file. -/
def findings (filter : Option (List String)) (path : String) : FileTree → List Finding
  | .file _ => findingAt filter path
  | .directory entries =>
    if isTooLong path then findingAt filter path
    else (sortByName (findingsOf filter path entries)).flatMap Prod.snd

/-- What is found below each entry of a directory. -/
def findingsOf (filter : Option (List String)) (path : String) :
    List (String × FileTree) → List (String × List Finding)
  | [] => []
  | (name, t) :: entries =>
    (name, findings filter (joinPath path name) t) :: findingsOf filter path entries

end

/-- The paths of the schema files below a path. -/
def discovered (filter : Option (List String)) (path : String) (t : FileTree) : List String :=
  (findings filter path t).filterMap Finding.kept?

end ServiceStubs
