import ServiceStubs.Documentation.Method
import ServiceStubs.Schema.Lookup

/-!
# Documentation of the methods of an entity

A schema documents the methods of an entity under the name of the entity, a dot
and the name of the method.  Documentation that cannot be used never fails: it
leaves a method of the schema as it was, and a method that is known from it
alone takes and returns anything.

## Main definitions

* `EntityDocs` — the documentation of one entity.
* `EntityDocs.document` — a method of the schema, completed.
* `EntityDocs.fallback?` — a method that the schema does not describe but every
  entity of a kind has.
* `EntityDocs.further` — the documented methods that an entity lacks.
-/

namespace ServiceStubs

open Documentation

/-- The documentation of the methods of one entity. -/
structure EntityDocs where
  schema : Schema
  entity : String

namespace EntityDocs

/-- What the text says about a method. -/
def read (d : EntityDocs) (text : String) : Except DocError MethodInfo :=
  MethodInfo.ofText d.schema.resourceNames text

/-- A method of the schema, completed by its documentation. -/
def document (d : EntityDocs) (f : FunctionStub) : FunctionStub :=
  match d.schema.documentationOf d.entity f.name with
  | none => f
  | some text =>
    match d.read text with
    | .ok info => info.complete f
    | .error _ => f

/-- The method that a text describes. -/
def ofText (d : EntityDocs) (name text : String) : FunctionStub :=
  match d.read text with
  | .ok info => info.method name
  | .error _ => undescribed name

/-- A method that the schema does not describe: as it is documented, or if it is
not as such methods always are. -/
def fallback? (d : EntityDocs) (name : String) : Option FunctionStub :=
  match d.schema.documentationOf d.entity name with
  | some text => some (d.ofText name text)
  | none => (undocumented? d.schema.resourceNames name).map (·.method name)

/-- The documented methods, each with its text. -/
def entries (d : EntityDocs) : List (String × String) :=
  d.schema.documentation.entries.filterMap fun (key, text) =>
    ((d.entity ++ ".").toList.isPrefixOf? key.toList).map fun name => (String.ofList name, text)

/-- The documented methods that an entity lacks. -/
def further (d : EntityDocs) (methods : List FunctionStub) : List FunctionStub :=
  (d.entries.filter fun (name, _) => methods.all (·.name ≠ name)).map fun (name, text) =>
    d.ofText name text

end EntityDocs

end ServiceStubs
