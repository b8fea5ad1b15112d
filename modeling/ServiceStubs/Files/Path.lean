import ServiceStubs.Error
import ServiceStubs.Text.Split

/-!
# Paths

A path leads from the working directory, step by step, to a file or a directory.
It keeps its spelling, because messages show it.

## Main definitions

* `joinPath` — the path of something in a directory.
* `fileName`, `extension?`, `stem` — the last name of a path, and its two parts.
* `isTooLong` — whether a path is too long to be followed.
* `Step`, `steps` — the steps of a path, if it can lead anywhere.
-/

namespace ServiceStubs

open Text

/-- Whether a path starts at the root. -/
def isAbsolutePath (path : String) : Bool :=
  ['/'].isPrefixOf path.toList

/-- The path of something in a directory.  A path that starts at the root stays
what it is. -/
def joinPath (directory path : String) : String :=
  if isAbsolutePath path then path
  else if directory = "" || ['/'].isSuffixOf directory.toList then directory ++ path
  else directory ++ "/" ++ path

/-! ## Names -/

/-- The last name of a path. -/
def fileName (path : String) : String :=
  String.ofList (splitLast '/' path.toList).2

/-- The name before the last dot, and the extension after it.  A dot at the
start of a name does not count. -/
def stemAndExtension (name : String) : String × Option String :=
  match splitLast '.' name.toList with
  | (some (c :: cs), last) => (String.ofList (c :: cs), some (String.ofList last))
  | _ => (name, none)

/-- The extension of a name. -/
def extension? (name : String) : Option String :=
  (stemAndExtension name).2

/-- A name without its extension. -/
def stem (name : String) : String :=
  (stemAndExtension name).1

/-! ## Steps -/

/-- One step of a path. -/
inductive Step
  /-- Stays in a directory. -/
  | stay
  /-- Goes to the directory around a directory. -/
  | up
  /-- Goes to an entry of a directory. -/
  | down (name : String)
  deriving DecidableEq

/-- The step that a part of a path between slashes stands for. -/
def Step.ofText (part : String) : Step :=
  if part = "" || part = "." then .stay
  else if part = ".." then .up
  else .down part

/-- The length that a path may have, in bytes. -/
def maxPathLength : Nat := 4095

/-- Whether a path is too long to be followed. -/
def isTooLong (path : String) : Bool :=
  maxPathLength < path.utf8ByteSize

/-- The steps of a path from the working directory.  A path that is too long, or
starts at the root, leads nowhere. -/
def steps (path : String) : Except OsError (List Step) :=
  if path.toList.contains '\x00' then .error .nulInName
  else if isTooLong path then .error .nameTooLong
  else if path = "" || isAbsolutePath path then .error .notFound
  else .ok ((splitOn '/' path).map Step.ofText)

end ServiceStubs
