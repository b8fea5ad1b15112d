import ServiceStubs.Json.Reader
import ServiceStubs.Schema.Lookup
import ServiceStubs.Schema.Reading

/-!
# Loading schemas

A schema is read from its text, and is checked before it is used: the shapes of
inputs and outputs and the operations of paginators and waiters must be
declared.  Members of shapes need not be.

## Main definitions

* `Schema.ofText` — the schema of a text, which must name its service.
* `Schema.validate` — the check, whose error is that of the first reference that
  is not declared.
* `Schema.load` — both.
-/

namespace ServiceStubs.Schema

/-- The schema of a JSON value. -/
def ofJson (j : Json) : Except Error Schema :=
  match read j with
  | none => .error .malformedSchema
  | some s => if s.serviceName = "" then .error .emptyServiceName else .ok s

/-- The schema of a text. -/
def ofText (text : String) : Except Error Schema :=
  match Json.ofText? text with
  | none => .error .malformedSchema
  | some j => ofJson j

/-- The shapes that an operation refers to: input, then output. -/
def Operation.shapeRefs (o : Operation) : List ShapeRef :=
  o.input.toList ++ o.output.toList

/-- Checks that the shapes of every operation and the operations of every
paginator and waiter are declared. -/
def validate (s : Schema) : Except Error Unit := do
  (s.model.operations.values.flatMap Operation.shapeRefs).forM fun r => discard (s.shape r.shape)
  s.paginators.keys.forM fun name => discard (s.operation name)
  s.waiters.values.forM fun w => discard (s.operation w.operation)

/-- The schema of a text, checked. -/
def load (text : String) : Except Error Schema := do
  let s ← ofText text
  s.validate
  return s

end ServiceStubs.Schema
