import ServiceStubs.Command.Run

/-!
# The program

Runs the command line on the real file system.

## Main definitions

* `realDisk` — the file system.
* `main` — the program.
-/

namespace ServiceStubs

/-- Why a file operation failed. -/
def OsError.ofIO : IO.Error → OsError
  | .noFileOrDirectory .. => .notFound
  | .alreadyExists .. => .alreadyExists
  | .inappropriateType _ code _ =>
    if code = 20 then .notDirectory else .isDirectory
  | e => .other (toString e)

/-- The result of a file operation. -/
def attempt {α : Type} (action : IO α) : IO (Except OsError α) := do
  match ← action.toBaseIO with
  | .ok a => return .ok a
  | .error e => return .error (.ofIO e)

/-- The names below an entry of a directory; contents are not read. -/
partial def readEntry (entry : IO.FS.DirEntry) : IO (String × FileTree) := do
  if ← entry.path.isDir then
    let entries ← (← entry.path.readDir).toList.mapM readEntry
    return (entry.fileName, .directory entries)
  else return (entry.fileName, .file "")

/-- The names below a directory, if it is one. -/
def readDirectory? (path : String) : IO (Option FileTree) := do
  match ← (IO.FS.realPath path).toBaseIO with
  | .error _ => return none
  | .ok place =>
    if ← place.isDir then
      return some (.directory (← (← place.readDir).toList.mapM readEntry))
    else return none

/-- The file system. -/
def realDisk : Disk IO where
  read path := attempt (IO.FS.readFile path)
  directory? := readDirectory?
  makeDirs path := attempt (IO.FS.createDirAll path)
  write path content := attempt (IO.FS.writeFile path content)

end ServiceStubs

open ServiceStubs in
/-- The program. -/
def main (args : List String) : IO UInt32 := do
  let t ← Command.run realDisk args
  IO.print t.output
  for line in t.messages do
    IO.eprintln line
  return t.exitCode.toUInt32
