import ServiceStubs.Command.Failure
import ServiceStubs.Package.Basic
import ServiceStubs.Schema.Loading
import ServiceStubs.Settings.Basic

/-!
# Schema bundles

A bundle is a file that holds a schema.  Between the text of the file and the
package that it describes stand three steps, each of which may fail: the schema
is read, it is checked, and the package is built.

## Main definitions

* `readBundle` — reads and checks a schema.
* `packageOf` — builds the package of a schema.
* `Prepared`, `prepare` — what a bundle comes to before anything is written.
-/

namespace ServiceStubs.Command

/-- A step whose failure is told in a context. -/
def within {α : Type} (context : String) : Except Error α → Except Failure α
  | .ok a => .ok a
  | .error e => .error (.ofError context e)

/-- The text of a schema file, given what reading it yields. -/
def bundleText (path : String) : Except OsError String → Except Error String
  | .ok text => .ok text
  | .error cause => .error (.unreadableSchema path cause)

/-- The checked schema of a file, given what reading it yields. -/
def readBundle (path : String) (text : Except OsError String) : Except Failure Schema := do
  let s ← within ("Failed to load schema bundle: " ++ path)
    (bundleText path text >>= Schema.ofText)
  within ("Invalid schema bundle: " ++ path) s.validate
  return s

/-- A package, and the store of its typed dictionaries. -/
structure BuiltPackage where
  package : PackageStub
  store : Store

/-- The package of a schema. -/
def packageOf (s : Schema) : Except Failure BuiltPackage := do
  let (r, session) := s.package
  return ⟨← within ("Failed to parse service " ++ s.serviceName) r, session.store⟩

/-- What a bundle comes to before anything is written. -/
inductive Prepared
  /-- The service is left out. -/
  | skipped (service : String)
  | built (service : String) (b : BuiltPackage)

/-- What a file comes to, given what reading it yields. -/
def prepare (settings : Settings) (path : String) (text : Except OsError String) :
    Except Failure Prepared := do
  let s ← readBundle path text
  if settings.skips s.serviceName then return .skipped s.serviceName
  return .built s.serviceName (← packageOf s)

end ServiceStubs.Command
