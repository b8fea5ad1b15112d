import ServiceStubs.Import.Group
import ServiceStubs.Stub.Layout

/-!
# Stub modules

A generated module is put together as data first: what it imports, what it
exports and what it declares.  Its text is the last step.

## Main definitions

* `Body` — what a module declares.
* `Module` — a module, with `Module.text`.
* `importsFor` — the import statements of a module that needs some imports.
-/

namespace ServiceStubs.Stub

/-- The import statements of a module that needs some imports.  Names that need
no import, and those of the module itself, are left out. -/
def importsFor (module : String) (is : List Import) : List ImportGroup :=
  groupImports (is.filter fun i => !i.isBuiltins && !i.source.isInPackage module)

/-- What a module says about the package that it belongs to. -/
structure Banner where
  title : String
  moduleName : String
  packageName : String
  builderVersion : String

/-- The lines of a banner. -/
def Banner.lines (b : Banner) : List String :=
  ["\"\"\"", b.title ++ " for " ++ b.moduleName ++ ".", "", "Package: " ++ b.packageName, "",
    "Generated by sdk-stubgen " ++ b.builderVersion ++ ".", "\"\"\""]

/-- What a module declares. -/
inductive Body
  /-- Other names for imported names. -/
  | aliases (names : List (String × String))
  | classes (cs : List ClassStub)
  | dicts (ds : List TypedDict)
  /-- Functions, whose types are imported for type checking only. -/
  | functions (types : List ImportGroup) (fs : List FunctionStub)

/-- A generated module. -/
structure Module where
  /-- The name of the file. -/
  file : String
  banner : Banner
  imports : List ImportGroup
  exports : List String
  body : Body

namespace Module

/-! ## Text -/

/-- Declarations, with two empty lines before each and one at the end. -/
def blocks (declarations : List (List String)) : List String :=
  declarations.flatMap (fun d => ["", ""] ++ d) ++ [""]

/-- The line that lists what a module exports. -/
def exportLine (names : List String) : String :=
  "__all__ = (" ++ String.join (names.map fun n => "\"" ++ n ++ "\", ") ++ ")"

/-- The import statements. -/
def importTexts (m : Module) : List String :=
  m.imports.map ImportGroup.text

/-- The imports for type checking only. -/
def typeImportLines (types : List ImportGroup) : List String :=
  "if TYPE_CHECKING:"
    :: if types.isEmpty then ["    pass"] else types.map ("    " ++ ·.text)

/-- The lines after the banner. -/
def bodyLines (m : Module) : List String :=
  match m.body with
  | .aliases names =>
    m.importTexts ++ [""] ++ names.map (fun (name, other) => name ++ " = " ++ other)
      ++ ["", exportLine m.exports]
  | .classes cs =>
    m.importTexts ++ ["", exportLine m.exports] ++ blocks (cs.map ClassStub.lines)
  | .dicts ds =>
    m.importTexts ++ ["", exportLine m.exports] ++ blocks (ds.map fun d => [d.definition])
  | .functions types fs =>
    ["from __future__ import annotations", ""] ++ m.importTexts ++ [""] ++ typeImportLines types
      ++ ["", exportLine m.exports] ++ blocks (fs.map FunctionStub.functionLines)

/-- The text of a module. -/
def text (m : Module) : String :=
  String.join ((m.banner.lines ++ [""] ++ m.bodyLines).map (· ++ "\n"))

end Module

end ServiceStubs.Stub
