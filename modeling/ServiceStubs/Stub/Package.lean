import ServiceStubs.Package.Client
import ServiceStubs.Settings.Basic
import ServiceStubs.Stub.Module

/-!
# Modules of a package

A package has a module for each kind of entity, one for the typed dictionaries,
one for the factory functions and one that gathers the names of the others.

## Main definitions

* `PackageStub.modules` — the modules of a package, in the order in which they
  are written.
* `PackageStub.files` — their names and texts.
-/

namespace ServiceStubs

open Stub

namespace PackageStub

/-- What the modules of a package say about it. -/
def banner (p : PackageStub) (settings : Settings) (title : String) : Banner where
  title := title
  moduleName := p.service.moduleName settings.moduleLead
  packageName := p.service.packageName settings.packageLead
  builderVersion := settings.builderVersion

/-- The classes that the package offers, each with its module. -/
def offered (p : PackageStub) : List (String × String) :=
  [(clientModule, p.client.decl.name)]
    ++ p.serviceResource.toList.map (fun r => (TypeExpr.resourceModule, r.decl.name))
    ++ p.paginators.map (fun e => (paginatorModule, e.decl.name))
    ++ p.waiters.map (fun e => (waiterModule, e.decl.name))

/-- The short names of the client and the service resource. -/
def shortNames (p : PackageStub) : List (String × String) :=
  [("Client", p.client.decl.name)]
    ++ p.serviceResource.toList.map fun r => ("ServiceResource", r.decl.name)

/-- The module that gathers the names of the others. -/
def initModule (p : PackageStub) (settings : Settings) : Module where
  file := "__init__.pyi"
  banner := p.banner settings "Main interface"
  imports := importsFor "__init__" (p.offered.map fun (module, name) => .inPackage module name)
  exports := (p.shortNames.map Prod.fst ++ p.offered.map Prod.snd).mergeSort
    fun a b => !(decide (b < a))
  body := .aliases p.shortNames

/-- A module of classes. -/
def classModule (p : PackageStub) (settings : Settings) (module subject : String)
    (needed : ImportSet) (classes : List ClassStub) : Module where
  file := module ++ ".pyi"
  banner := p.banner settings ("Type annotations for " ++ subject)
  imports := importsFor module needed.toList
  exports := classes.map (·.name)
  body := .classes classes

/-- The modules of classes. -/
def classModules (p : PackageStub) (settings : Settings) : List Module :=
  [p.classModule settings clientModule "the client" (requiredImports p.client) [p.client.decl],
    p.classModule settings paginatorModule "paginators" (requiredImports p.paginators)
      (p.paginators.map (·.decl)),
    p.classModule settings waiterModule "waiters" (requiredImports p.waiters)
      (p.waiters.map (·.decl))]
  ++ p.serviceResource.toList.map fun r =>
    p.classModule settings TypeExpr.resourceModule "the service resource" (requiredImports r)
      r.allClasses

/-- The module of typed dictionaries. -/
def dictModule (p : PackageStub) (settings : Settings) (s : Store) : Module where
  file := TypeExpr.dictModule ++ ".pyi"
  banner := p.banner settings "Type annotations for type definitions"
  imports := importsFor TypeExpr.dictModule (p.dictImports s).toList
  exports := (p.dicts s).map (·.name)
  body := .dicts (p.dicts s)

/-- The module that holds the factory functions. -/
def factoryModule : String := "helpers"

/-- What the factory functions need at run time. -/
def factoryImports : List Import :=
  [.module ⟨"boto3"⟩, ⟨.typing, "TYPE_CHECKING", none⟩]

/-- The module of factory functions. -/
def functionModule (p : PackageStub) (settings : Settings) : Module where
  file := factoryModule ++ ".py"
  banner := p.banner settings "Runtime helpers"
  imports := importsFor factoryModule factoryImports
  exports := p.factories.map (·.name)
  body := .functions (importsFor factoryModule (requiredImports p.factories).toList) p.factories

/-- The modules of a package, whose typed dictionaries are in a store. -/
def modules (p : PackageStub) (settings : Settings) (s : Store) : List Module :=
  [p.initModule settings] ++ p.classModules settings
    ++ [p.dictModule settings s, p.functionModule settings]

/-- The files of a package: their names and texts. -/
def files (p : PackageStub) (settings : Settings) (s : Store) : List (String × String) :=
  (p.modules settings s).map fun m => (m.file, m.text)

end PackageStub

end ServiceStubs
