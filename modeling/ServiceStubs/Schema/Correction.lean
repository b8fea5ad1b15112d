import ServiceStubs.Schema.Basic

/-!
# Corrections of service models

Some service models are known to describe an input or an output wrongly.  A
correction names a service, one of its operations, and the input or the output
of it, and removes or renames a member of that shape.  A correction that does
not apply does nothing, so correcting a model again changes nothing.

## Main definitions

* `Correction`, `Edit` — one correction.
* `Shape.edited` — a shape with a member removed or renamed.
* `Model.correctedBy` — a model with the corrections of a list.
* `shipped`, `Model.corrected` — the known corrections, and a model with them.
-/

namespace ServiceStubs.Schema

/-- Which shape of an operation a correction is about. -/
inductive Side
  | input
  | output
  deriving DecidableEq

/-- What a correction does to a shape. -/
inductive Edit
  | rename (old new : String)
  | remove (name : String)
  deriving DecidableEq

/-- A correction of one shape of an operation. -/
structure Correction where
  service : String
  operation : String
  side : Side
  edit : Edit
  deriving DecidableEq

/-- The shape of an operation on one side. -/
def Operation.side (o : Operation) : Side → Option ShapeRef
  | .input => o.input
  | .output => o.output

/-- A shape with one member removed or renamed.  A renamed member keeps its
place, and nothing is renamed when the new name is taken or the old one is not
there. -/
def Shape.edited (s : Shape) : Edit → Shape
  | .remove name =>
    if s.members.contains name then
      { s with members := s.members.erase name, required := s.required.filter (· ≠ name) }
    else s
  | .rename old new =>
    if s.members.contains new then s
    else if s.members.contains old then
      { s with
        members := s.members.rename old new
        required := s.required.map fun m => if m = old then new else m }
    else s

/-- A model with one correction. -/
def Model.correctedAt (m : Model) (c : Correction) : Model :=
  match (m.operations.get? c.operation).bind (·.side c.side) with
  | some ref => { m with shapes := m.shapes.update ref.shape (·.edited c.edit) }
  | none => m

/-- A model with those corrections of a list that are about a service, one after
the other. -/
def Model.correctedBy (corrections : List Correction) (service : String) (m : Model) : Model :=
  (corrections.filter (·.service = service)).foldl Model.correctedAt m

/-- The correction that removes an input that the client computes itself. -/
def computedInput (service operation name : String) : Correction :=
  ⟨service, operation, .input, .remove name⟩

/-- The corrections that are always made: checksums that the client computes,
the raw text of a date that is returned as a date too, and a name that is a
keyword. -/
def shipped : List Correction :=
  ["PutBucketAcl", "PutBucketCors", "PutBucketLifecycle", "PutBucketLogging",
    "PutBucketNotification", "PutBucketPolicy", "PutBucketReplication",
    "PutBucketRequestPayment", "PutBucketTagging", "PutBucketVersioning", "PutBucketWebsite",
    "PutObjectAcl"].map (computedInput "s3" · "ContentMD5")
  ++ [⟨"s3", "GetObject", .output, .rename "Expires" "ExpiresString"⟩,
    ⟨"s3", "HeadObject", .output, .rename "Expires" "ExpiresString"⟩,
    ⟨"cloudsearchdomain", "Search", .input, .rename "return" "return_"⟩]

/-- The model of a service with the corrections that are always made. -/
def Model.corrected (m : Model) (service : String) : Model :=
  m.correctedBy shipped service

end ServiceStubs.Schema
