import ServiceStubs.Settings.Basic
import ServiceStubs.Text.Blank
import ServiceStubs.Yaml.Document

/-!
# Reading settings

Settings are written as a YAML mapping.  What is not given keeps its default,
and other entries are ignored; an entry must not be given twice.  Every scalar is
taken as text.

## Main definitions

* `Settings.ofNode?` — the settings of a YAML node.
* `Settings.ofText?` — the settings of a text, which may be blank.
-/

namespace ServiceStubs

open Yaml (Node)

namespace Settings

/-- The text of a scalar. -/
def textOf? : Node → Option String
  | .scalar _ text => some text
  | _ => none

/-- The texts of a sequence of scalars, which may be empty. -/
def textsOf? : Node → Option (List String)
  | .sequence items => items.mapM textOf?
  | n => if n.isNothing then some [] else none

/-- What some entries give for a name, or the default if they give nothing. -/
def setting? {α : Type} (entries : List (String × Node)) (name : String)
    (read : Node → Option α) (default : α) : Option α :=
  match entries.filter (·.1 = name) with
  | [] => some default
  | [(_, n)] => read n
  | _ => none

/-- The settings of some entries. -/
def ofEntries? (entries : List (String × Node)) : Option Settings := do
  let standard : Settings := {}
  return {
    moduleLead := ← setting? entries "module_prefix" textOf? standard.moduleLead
    packageLead := ← setting? entries "package_prefix" textOf? standard.packageLead
    builderVersion := ← setting? entries "builder_version" textOf? standard.builderVersion
    skippedServices := ← setting? entries "skip_services" textsOf? standard.skippedServices }

/-- The settings of a node. -/
def ofNode? : Node → Option Settings
  | .mapping entries => do
    ofEntries? (← entries.mapM fun (k, v) => do return (← textOf? k, v))
  | n => if n.isNothing then some {} else none

/-- The settings of a text. -/
def ofText? (text : String) : Option Settings :=
  if Text.isBlankText text.toList then some {}
  else do
    match ← Yaml.ofText? text with
    | some n => ofNode? n
    | none => return {}

end Settings

end ServiceStubs
