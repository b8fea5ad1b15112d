import ServiceStubs.Files.Path

/-!
# Trees of files

The files and directories below the working directory.

## Main definitions

* `FileTree` — a file, or a directory with its entries by name.
* `FileTree.locate` — follows the steps of a path.
* `FileTree.read`, `FileTree.makeDirs`, `FileTree.write` — the operations on
  files, which fail for the same reasons as those of a real file system.
-/

namespace ServiceStubs

/-- A file, or a directory. -/
inductive FileTree
  | file (content : String)
  | directory (entries : List (String × FileTree))

namespace FileTree

instance : EmptyCollection FileTree := ⟨.directory []⟩

instance : Inhabited FileTree := ⟨∅⟩

/-- Whether this is a directory. -/
def isDirectory : FileTree → Bool
  | file _ => false
  | directory _ => true

/-- The entry of a name. -/
def entry? (name : String) : FileTree → Option FileTree
  | file _ => none
  | directory entries => entries.lookup name

/-- What is at the end of some names. -/
def get? (names : List String) (t : FileTree) : Option FileTree :=
  names.foldlM (fun t name => t.entry? name) t

/-- Puts something at the end of some names, which must lead through
directories. -/
def put (t : FileTree) (names : List String) (new : FileTree) : FileTree :=
  match names, t with
  | [], _ => new
  | _ :: _, file content => file content
  | name :: names, directory entries =>
    if entries.any (·.1 = name) then
      directory (entries.map fun (n, t) => (n, if n = name then t.put names new else t))
    else directory (entries ++ [(name, put ∅ names new)])

/-! ## Following paths -/

/-- The length that a name may have, in bytes. -/
def maxNameLength : Nat := 255

/-- Where a step leads that starts at the end of some names: the names at whose
end it ends, which need not be there. -/
def follow (t : FileTree) (names : List String) (s : Step) : Except OsError (List String) :=
  match t.get? names with
  | none => .error .notFound
  | some (file _) => .error .notDirectory
  | some (directory _) =>
    match s with
    | .stay => .ok names
    | .up => if names.isEmpty then .error .notFound else .ok names.dropLast
    | .down name =>
      if maxNameLength < name.utf8ByteSize then .error .nameTooLong else .ok (names ++ [name])

/-- Where a path leads. -/
def locate (t : FileTree) (path : String) : Except OsError (List String) := do
  (← steps path).foldlM t.follow []

/-- What a path leads to. -/
def lookup (t : FileTree) (path : String) : Except OsError FileTree := do
  match t.get? (← t.locate path) with
  | some found => return found
  | none => throw .notFound

/-! ## Operations -/

/-- The content of a file. -/
def read (t : FileTree) (path : String) : Except OsError String := do
  match ← t.lookup path with
  | file content => return content
  | directory _ => throw .isDirectory

/-- The directory of a path, if it is one. -/
def directory? (t : FileTree) (path : String) : Option FileTree :=
  match t.lookup path with
  | .ok found => if found.isDirectory then some found else none
  | .error _ => none

/-- Takes one step and makes the directory that it leads to, unless it is
there.  `last` says whether it is the last step. -/
def makeStep (last : Bool) (t : FileTree) (names : List String) (s : Step) :
    Except OsError (FileTree × List String) := do
  let names ← t.follow names s
  match t.get? names with
  | none => return (t.put names ∅, names)
  | some (directory _) => return (t, names)
  | some (file _) => throw (if last then .alreadyExists else .notDirectory)

/-- Makes the directories that some steps lead to.  Those that were made stay
when a later one cannot be made. -/
def makeSteps (t : FileTree) (names : List String) :
    List Step → Except OsError Unit × FileTree
  | [] => (.ok (), t)
  | s :: rest =>
    match t.makeStep rest.isEmpty names s with
    | .ok (t, names) => makeSteps t names rest
    | .error e => (.error e, t)

/-- Makes the directory of a path and all those on the way. -/
def makeDirs (t : FileTree) (path : String) : Except OsError Unit × FileTree :=
  match steps path with
  | .ok s => t.makeSteps [] s
  | .error e => (.error e, t)

/-- Writes a file, whose directory must be there. -/
def write (t : FileTree) (path content : String) : Except OsError FileTree := do
  let names ← t.locate path
  match t.get? names with
  | some (directory _) => throw .isDirectory
  | _ => return t.put names (.file content)

end FileTree

end ServiceStubs
