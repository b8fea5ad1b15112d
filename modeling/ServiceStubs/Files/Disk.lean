import ServiceStubs.Files.Tree

/-!
# Disks

What a run needs of a file system.  A run is written for any disk, so that it can
be run on the real one and reasoned about on a tree of files.

## Main definitions

* `Disk` — the operations.
* `Disk.ofTree` — the disk that is a tree of files.
-/

namespace ServiceStubs

/-- The operations on files, as steps of `m`. -/
structure Disk (m : Type → Type) where
  /-- The content of a file. -/
  read : String → m (Except OsError String)
  /-- The directory of a path, if it is one. -/
  directory? : String → m (Option FileTree)
  /-- Makes a directory and all those on the way. -/
  makeDirs : String → m (Except OsError Unit)
  /-- Writes a file. -/
  write : (path content : String) → m (Except OsError Unit)

/-- The disk that is a tree of files. -/
def Disk.ofTree : Disk (StateM FileTree) where
  read path := do return (← get).read path
  directory? path := do return (← get).directory? path
  makeDirs path := modifyGet fun t => t.makeDirs path
  write path content := modifyGet fun t =>
    match t.write path content with
    | .ok t => (.ok (), t)
    | .error e => (.error e, t)

end ServiceStubs
