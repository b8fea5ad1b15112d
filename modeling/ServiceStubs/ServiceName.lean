/-!
# Service names

A service has a name, which its schema and its stub package carry, and a class
name, which starts the names of its classes.

## Main definitions

* `ServiceName` — the two names.
* `moduleName`, `packageName`, `clientName`, `serviceResourceName` — the names
  derived from them.
-/

namespace ServiceStubs

/-- The names of a service. -/
structure ServiceName where
  name : String
  className : String
  deriving DecidableEq

namespace ServiceName

/-- The name as it can stand in a module name: underscores for hyphens. -/
def importName (s : ServiceName) : String :=
  String.ofList (s.name.toList.map fun c => if c = '-' then '_' else c)

/-- The name of the stub module. -/
def moduleName (s : ServiceName) (lead : String) : String :=
  lead ++ s.importName

/-- The name of the distribution that holds the stub module. -/
def packageName (s : ServiceName) (lead : String) : String :=
  lead ++ s.name

/-- The name of the client class. -/
def clientName (s : ServiceName) : String :=
  s.className ++ "Client"

/-- The name of the service resource class. -/
def serviceResourceName (s : ServiceName) : String :=
  s.className ++ "ServiceResource"

end ServiceName

end ServiceStubs
