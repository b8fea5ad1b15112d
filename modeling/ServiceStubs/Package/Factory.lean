import ServiceStubs.Declaration.Entity
import ServiceStubs.Package.Client

/-!
# Factory functions

A package has functions that make the client and the service resource at run
time.  They pass on the settings that are given, to a session if there is one.

## Main definitions

* `forwardedSettings` — the settings, with the types of their values.
* `Factory`, `Factory.function` — the two functions.
* `ServiceName.factories` — the functions of a service.
-/

namespace ServiceStubs

/-- The settings that are passed on, with the types of their values. -/
def forwardedSettings : List (String × TypeExpr) :=
  [("region_name", .str), ("api_version", .str), ("use_ssl", .bool),
    ("verify", .unionOf [.bool, .str]), ("endpoint_url", .str), ("aws_access_key_id", .str),
    ("aws_secret_access_key", .str), ("aws_session_token", .str),
    ("config", .from? "botocore.config" "Config")]

/-- What is made. -/
inductive Factory
  | client
  | resource
  deriving DecidableEq

namespace Factory

/-- The word for what is made, which names the method of a session that makes
it. -/
def text : Factory → String
  | client => "client"
  | resource => "resource"

/-- The class of what is made. -/
def product (f : Factory) (s : ServiceName) : TypeExpr :=
  match f with
  | client => .inModule s.clientName clientModule
  | resource => .inModule s.serviceResourceName TypeExpr.resourceModule

/-- The lines that pass on one setting. -/
def forwardLines (setting : String) : List String :=
  ["if " ++ setting ++ " is not None:",
    "    kwargs[\"" ++ setting ++ "\"] = " ++ setting]

/-- The body: it collects the settings that are given, and passes them on. -/
def body (f : Factory) (s : ServiceName) : String :=
  let call := "." ++ f.text ++ "(\"" ++ s.name ++ "\", **kwargs)"
  "\n".intercalate
    (["kwargs = \x7b\x7d"] ++ forwardedSettings.flatMap (fun (name, _) => forwardLines name)
      ++ ["if session is not None:", "    return session" ++ call, "return boto3" ++ call])

/-- The arguments: a session, then the settings. -/
def arguments : List Argument :=
  (("session", .from? "boto3.session" "Session") :: forwardedSettings).map fun (name, type) =>
    .optional name (.optionalOf type)

/-- The function. -/
def function (f : Factory) (s : ServiceName) : FunctionStub where
  name := "get_" ++ f.text
  arguments := arguments
  returnType := f.product s
  docstring := "Create " ++ s.className ++ " " ++ f.text
    ++ " with optional session and settings."
  body := some (f.body s)

end Factory

/-- The factory functions of a service, which may have resources. -/
def ServiceName.factories (s : ServiceName) (hasResource : Bool) : List FunctionStub :=
  (Factory.client :: if hasResource then [Factory.resource] else []).map (·.function s)

end ServiceStubs
