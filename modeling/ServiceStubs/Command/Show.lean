import ServiceStubs.Command.Bundle

/-!
# Showing a package

The lines that say what a package holds.

## Main definitions

* `Line` — a line of output.
* `BuiltPackage.summary` — what a package holds, in numbers.
* `BuiltPackage.details` — its resources and typed dictionaries.
-/

namespace ServiceStubs.Command

/-- A line of output, or of the messages beside it. -/
inductive Line
  | out (text : String)
  | err (text : String)
  deriving DecidableEq

/-- A line with a label and a number. -/
def countLine (label : String) (n : Nat) : String :=
  "  " ++ label ++ ": " ++ toString n

namespace BuiltPackage

/-- The typed dictionaries of a package. -/
def dicts (b : BuiltPackage) : List TypedDict :=
  b.package.dicts b.store

/-- What is said about the resources. -/
def resourceLines (b : BuiltPackage) : List String :=
  match b.package.serviceResource with
  | none => ["  Service resource: none"]
  | some r =>
    ["  Service resource: " ++ r.decl.name, countLine "Resources" r.resources.length,
      countLine "Collections" r.allCollections.length]

/-- What a package holds, in numbers. -/
def summary (b : BuiltPackage) : List String :=
  let p := b.package
  ["", "✓ Parse successful!", "", "Service Package:", "  Service: " ++ p.service.name,
    "  Client: " ++ p.client.decl.name, countLine "Client methods" p.client.decl.methods.length,
    countLine "Paginators" p.paginators.length, countLine "Waiters" p.waiters.length]
  ++ b.resourceLines ++ [countLine "Type definitions" b.dicts.length]

/-- One resource of a package. -/
def resourceLine (r : ResourceStub) : String :=
  "  • " ++ r.decl.name ++ " (" ++ toString r.decl.methods.length ++ " methods, "
    ++ toString r.decl.attributes.length ++ " attributes)"

/-- One typed dictionary of a package. -/
def dictLine (d : TypedDict) : String :=
  "  • " ++ d.name ++ " (" ++ toString d.fields.length ++ " fields)"

/-- The resources and typed dictionaries of a package. -/
def details (b : BuiltPackage) : List String :=
  (match b.package.serviceResource with
    | none => []
    | some r => ["", "Resources:"] ++ r.resources.map resourceLine)
  ++ ["", "Type definitions:"] ++ b.dicts.map dictLine

end BuiltPackage

end ServiceStubs.Command
