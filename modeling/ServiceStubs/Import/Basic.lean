import ServiceStubs.Collection.KeyedSet

/-!
# Imports

What a stub module imports: one name of a module, or a whole module.  Modules of
the generated package are named relative to it, with a dot in front.  Names that
need no import count as imported from a module of built-ins, which is left out
when imports are written.

## Main definitions

* `ModulePath` — where something is imported from.
* `ImportKey` — what orders imports.
* `Import` — one name, or a whole module, with an alias if it has one.
* `ImportSet` — imports ordered by module and name, each of them once.
-/

namespace ServiceStubs

/-- The path of a module. -/
structure ModulePath where
  path : String
  deriving DecidableEq

namespace ModulePath

/-- The module of names that need no import. -/
def builtins : ModulePath := ⟨"builtins"⟩

/-- A module of the generated package. -/
def inPackage (module : String) : ModulePath := ⟨"." ++ module⟩

/-- The module of type constructors. -/
def typing : ModulePath := ⟨"typing"⟩

/-- The module of newer type constructors. -/
def typingExtensions : ModulePath := ⟨"typing_extensions"⟩

/-- Whether names of the module need no import. -/
def isBuiltins (m : ModulePath) : Bool :=
  m = builtins

/-- Whether the path is relative to the package. -/
def isRelative (m : ModulePath) : Bool :=
  ['.'].isPrefixOf m.path.toList

/-- Whether this is the given module of the package. -/
def isInPackage (m : ModulePath) (module : String) : Bool :=
  m = inPackage module

end ModulePath

/-- What tells imports apart and orders them: the module, then the name. -/
structure ImportKey where
  source : String
  name : String
  deriving DecidableEq

namespace ImportKey

instance : LT ImportKey :=
  ⟨fun a b => a.source < b.source ∨ (a.source = b.source ∧ a.name < b.name)⟩

instance : DecidableLT ImportKey := fun a b =>
  inferInstanceAs (Decidable (a.source < b.source ∨ (a.source = b.source ∧ a.name < b.name)))

end ImportKey

/-- What is imported: a name of a module, or with an empty name the module
itself. -/
structure Import where
  source : ModulePath
  name : String
  asName : Option String := none
  deriving DecidableEq

namespace Import

/-- The import of a whole module. -/
def module (source : ModulePath) : Import := ⟨source, "", none⟩

/-- What stands for an import where none is needed. -/
def builtins : Import := module .builtins

/-- The import of a name of a module of the generated package. -/
def inPackage (module name : String) : Import := ⟨.inPackage module, name, none⟩

/-- Whether no import is needed. -/
def isBuiltins (i : Import) : Bool :=
  i.source.isBuiltins

/-- The key of an import. -/
def key (i : Import) : ImportKey :=
  ⟨i.source.path, i.name⟩

/-- The name with its alias. -/
def nameText (i : Import) : String :=
  match i.asName with
  | some a => i.name ++ " as " ++ a
  | none => i.name

/-- The import as a statement. -/
def text (i : Import) : String :=
  if i.name = "" then
    match i.asName with
    | some a => "import " ++ i.source.path ++ " as " ++ a
    | none => "import " ++ i.source.path
  else "from " ++ i.source.path ++ " import " ++ i.nameText

end Import

/-- A set of imports, ordered by module and name. -/
abbrev ImportSet := KeyedSet ImportKey Import

namespace ImportSet

/-- Adds an import, unless its module and name are there already. -/
def add (s : ImportSet) (i : Import) : ImportSet :=
  s.insert i.key i

/-- Adds some imports, one after the other. -/
def addAll (s : ImportSet) (is : List Import) : ImportSet :=
  is.foldl add s

/-- The imports of a list.  Of those that agree in module and name, which can
differ in the alias only, the last one is taken. -/
def ofList (is : List Import) : ImportSet :=
  is.foldr (fun i s => s.add i) ∅

end ImportSet

end ServiceStubs
