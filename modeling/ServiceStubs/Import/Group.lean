import ServiceStubs.Import.Basic

/-!
# Grouped imports

Imports of names from one module are written as one statement.  A whole module
is imported by a statement of its own.

## Main definitions

* `ImportGroup` — the imports of one statement, and `ImportGroup.text`.
* `groupImports` — the statements for some imports, ordered by module and name.
-/

namespace ServiceStubs

/-- The imports of one statement. -/
structure ImportGroup where
  source : ModulePath
  imports : List Import
  deriving DecidableEq

namespace ImportGroup

/-- The statement of a single import. -/
def single (i : Import) : ImportGroup :=
  ⟨i.source, [i]⟩

/-- Whether no import is needed. -/
def isBuiltins (g : ImportGroup) : Bool :=
  g.source.isBuiltins

/-- Whether an import can join the statement: it is from the same module, and
neither it nor the first import is of the whole module. -/
def admits (g : ImportGroup) (i : Import) : Bool :=
  g.source = i.source && g.imports.head?.any (·.name ≠ "") && i.name ≠ ""

/-- The statement with one more import, at the end. -/
def push (g : ImportGroup) (i : Import) : ImportGroup :=
  { g with imports := g.imports ++ [i] }

/-- The statement as text. -/
def text (g : ImportGroup) : String :=
  match g.imports with
  | [i] => i.text
  | is => "from " ++ g.source.path ++ " import " ++ ", ".intercalate (is.map Import.nameText)

end ImportGroup

/-- The imports of a sorted list as statements, when the statement `g` is being
filled. -/
def groupSorted (g : ImportGroup) : List Import → List ImportGroup
  | [] => [g]
  | i :: is => if g.admits i then groupSorted (g.push i) is else g :: groupSorted (.single i) is

/-- Whether an import may stand before another one. -/
def Import.le (i j : Import) : Bool :=
  !(decide (j.key < i.key))

/-- The statements for some imports.  Imports that agree in module and name keep
their order. -/
def groupImports (is : List Import) : List ImportGroup :=
  match is.mergeSort Import.le with
  | [] => []
  | i :: is => groupSorted (.single i) is

end ServiceStubs
