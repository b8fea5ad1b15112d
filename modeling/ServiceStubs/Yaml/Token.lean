/-!
# YAML tokens

The marks and scalars of a YAML text.  Columns are gone: where a block opens or
closes there is a token.

## Main definitions

* `Yaml.Token` — a token.
-/

namespace ServiceStubs.Yaml

/-- A token of a YAML text. -/
inductive Token
  /-- A directive that gives the version of YAML. -/
  | version (major minor : List Char)
  /-- A directive that declares a handle of tags. -/
  | handle (name : List Char)
  | documentStart
  | documentEnd
  | openBlockSequence
  | openBlockMapping
  | closeBlock
  | openFlowSequence
  | closeFlowSequence
  | openFlowMapping
  | closeFlowMapping
  | blockEntry
  | flowEntry
  | key
  | value
  /-- An alias, which refers to an anchor. -/
  | reference (name : List Char)
  | anchor (name : List Char)
  /-- A tag, with its handle if it is written with one. -/
  | tag (handle : Option (List Char))
  | scalar (plain : Bool) (text : List Char)
  deriving DecidableEq

end ServiceStubs.Yaml
