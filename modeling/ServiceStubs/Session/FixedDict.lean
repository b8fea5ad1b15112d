import ServiceStubs.Session.Basic

/-!
# Dictionaries that every service has

Four typed dictionaries are not derived from shapes.  Their names are reserved:
no shape gives its dictionary one of them.

## Main definitions

* `FixedDict` — the four, with `name`, `fields` and `dict`.
* `isReserved` — whether a name belongs to one of them.
* `DictTable.fixed`, `Session.fixedDict` — the dictionary, made when it is first
  needed.
-/

namespace ServiceStubs

/-- The typed dictionaries that every service has. -/
inductive FixedDict
  /-- The settings of a paginator. -/
  | paginatorConfig
  /-- The settings of a waiter. -/
  | waiterConfig
  /-- What every response says about itself. -/
  | responseMetadata
  /-- The source of a copy. -/
  | copySource
  deriving DecidableEq

namespace FixedDict

/-- All of them. -/
def all : List FixedDict :=
  [paginatorConfig, waiterConfig, responseMetadata, copySource]

/-- The name of the dictionary. -/
def name : FixedDict → String
  | paginatorConfig => "PaginatorConfigTypeDef"
  | waiterConfig => "WaiterConfigTypeDef"
  | responseMetadata => "ResponseMetadataTypeDef"
  | copySource => "CopySourceTypeDef"

/-- The fields of the dictionary. -/
def fields : FixedDict → List Field
  | paginatorConfig =>
    [⟨"MaxItems", .int, false⟩, ⟨"PageSize", .int, false⟩, ⟨"StartingToken", .str, false⟩]
  | waiterConfig =>
    [⟨"Delay", .int, false⟩, ⟨"MaxAttempts", .int, false⟩]
  | responseMetadata =>
    [⟨"RequestId", .str, true⟩, ⟨"HostId", .str, true⟩, ⟨"HTTPStatusCode", .int, true⟩,
      ⟨"HTTPHeaders", .dictOf .str .str, true⟩, ⟨"RetryAttempts", .int, true⟩]
  | copySource =>
    [⟨"Bucket", .str, true⟩, ⟨"Key", .str, true⟩, ⟨"VersionId", .str, false⟩]

/-- The dictionary as it is made. -/
def dict (d : FixedDict) : TypedDict :=
  { name := d.name, fields := d.fields }

end FixedDict

/-- Whether a name belongs to a dictionary that every service has. -/
def isReserved (name : String) : Bool :=
  FixedDict.all.any (·.name = name)

/-- The dictionary that every service has, in a table of its own. -/
def DictTable.fixed (t : DictTable) (s : Store) (d : FixedDict) : DictRef × DictTable × Store :=
  t.findOrMake s d.name d.dict

/-- The dictionary that every service has. -/
def Session.fixedDict (d : FixedDict) : SessionM TypeExpr :=
  modifyGet fun s =>
    let (ref, fixed, store) := s.fixed.fixed s.store d
    (.dict ref, { s with fixed, store })

/-! ## Arguments of a special type

A few arguments have a type that their shape does not tell. -/

/-- The special types. -/
inductive SpecialType
  /-- A source of a copy, as text or as a dictionary. -/
  | copySource
  /-- A body that is given as a stretch of bytes. -/
  | body
  deriving DecidableEq

/-- The arguments of a special type: service, operation, argument. -/
def specialArguments : List (String × String × String × SpecialType) :=
  [("s3", "CopyObject", "CopySource", .copySource),
    ("s3", "UploadPartCopy", "CopySource", .copySource),
    ("glacier", "UploadArchive", "body", .body),
    ("glacier", "UploadMultipartPart", "body", .body)]

/-- The special type of an argument, if it has one. -/
def specialType? (service operation argument : String) : Option SpecialType :=
  (specialArguments.find? fun (s, o, a, _) => s = service && o = operation && a = argument).map
    fun (_, _, _, type) => type

/-- A special type as an expression. -/
def Session.specialType : SpecialType → SessionM TypeExpr
  | .copySource => do return .unionOf [.str, ← Session.fixedDict .copySource]
  | .body => pure .blobInput

end ServiceStubs
