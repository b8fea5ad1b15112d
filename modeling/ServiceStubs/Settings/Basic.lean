/-!
# Settings

What can be chosen for the packages that are generated.

## Main definitions

* `Settings` — the settings, with their defaults.
* `Settings.skips` — whether a service is left out.
-/

namespace ServiceStubs

/-- The version of this program. -/
def version : String := "0.1.0"

/-- The settings. -/
structure Settings where
  /-- What module names start with. -/
  moduleLead : String := "mypy_boto3_"
  /-- What names of distributions start with. -/
  packageLead : String := "mypy-boto3-"
  /-- The version that generated files name. -/
  builderVersion : String := version
  /-- The services that are left out. -/
  skippedServices : List String := []
  deriving DecidableEq

instance : Inhabited Settings := ⟨{}⟩

/-- Whether a service is left out. -/
def Settings.skips (s : Settings) (service : String) : Bool :=
  s.skippedServices.contains service

end ServiceStubs
