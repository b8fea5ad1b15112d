import ServiceStubs.Text.Quoted

/-!
# Errors

What can go wrong between a schema and a written stub package, by cause, and
the one place where each cause is put into words.

## Main definitions

* `OsError` — why a file operation failed.
* `EntryKind` — what kind of schema entry was looked for.
* `Error` — the causes, and `Error.message`, their wording.
-/

namespace ServiceStubs

/-- Why a file operation failed. -/
inductive OsError
  | notFound
  | alreadyExists
  | notDirectory
  | isDirectory
  | nameTooLong
  | nulInName
  | other (text : String)
  deriving DecidableEq

/-- The words for a failed file operation. -/
def OsError.message : OsError → String
  | .notFound => "No such file or directory (os error 2)"
  | .alreadyExists => "File exists (os error 17)"
  | .notDirectory => "Not a directory (os error 20)"
  | .isDirectory => "Is a directory (os error 21)"
  | .nameTooLong => "File name too long (os error 36)"
  | .nulInName => "file name contained an unexpected NUL byte"
  | .other text => text

/-- The kinds of schema entries that are looked up by name. -/
inductive EntryKind
  | operation
  | shape
  | resource
  | collection
  | action
  | paginator
  | waiter
  deriving DecidableEq

/-- The word for a kind of schema entry. -/
def EntryKind.text : EntryKind → String
  | .operation => "Operation"
  | .shape => "Shape"
  | .resource => "Resource"
  | .collection => "Resource collection"
  | .action => "Resource action"
  | .paginator => "Paginator"
  | .waiter => "Waiter"

/-- The causes of failure. -/
inductive Error
  /-- The schema text is no JSON text of a schema. -/
  | malformedSchema
  /-- The schema names no service. -/
  | emptyServiceName
  /-- The schema file cannot be read. -/
  | unreadableSchema (path : String) (cause : OsError)
  /-- The settings file cannot be read. -/
  | unreadableConfig (path : String) (cause : OsError)
  /-- The settings text is no YAML text of settings. -/
  | malformedConfig
  /-- A batch action has no request that it could send in batches. -/
  | batchWithoutRequest (action service : String)
  /-- The schema of a service has no entry of a kind and name. -/
  | notDeclared (service : String) (kind : EntryKind) (name : String)
  /-- The directory of a package cannot be made. -/
  | uncreatedDirectory (path : String) (cause : OsError)
  /-- A module of a package cannot be written. -/
  | unwrittenModule (file : String) (cause : OsError)
  deriving DecidableEq

/-- The words for a cause. -/
def Error.message : Error → String
  | malformedSchema => "Parse error: Failed to parse schema JSON"
  | emptyServiceName => "Parse error: Schema bundle has an empty service_name"
  | unreadableSchema path cause =>
    "Parse error: Failed to read schema file " ++ path ++ ": " ++ cause.message
  | unreadableConfig path cause =>
    "Parse error: Failed to read config file " ++ Text.quoted path ++ ": " ++ cause.message
  | malformedConfig => "YAML error"
  | batchWithoutRequest action service =>
    "Parse error: Batch action " ++ action ++ " of " ++ service ++ " schema has no request"
  | notDeclared service kind name =>
    kind.text ++ " '" ++ name ++ "' not found in " ++ service ++ " schema"
  | uncreatedDirectory path cause =>
    "Generation error: Failed to create package directory " ++ Text.quoted path ++ ": "
      ++ cause.message
  | unwrittenModule file cause =>
    "Generation error: Failed to write " ++ file ++ ": " ++ cause.message

end ServiceStubs
