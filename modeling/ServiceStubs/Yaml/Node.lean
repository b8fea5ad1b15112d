/-!
# YAML nodes

What a YAML text says, once aliases are replaced by what they stand for.  Tags
say nothing here, so they are not kept.

## Main definitions

* `Yaml.Node` — a scalar, a sequence or a mapping.
* `Node.isNothing` — whether nothing is written for a node.
-/

namespace ServiceStubs.Yaml

/-- A node of a YAML text. -/
inductive Node
  /-- A scalar; `plain` if it is written without quotes and not as a block. -/
  | scalar (plain : Bool) (text : String)
  | sequence (items : List Node)
  | mapping (entries : List (Node × Node))

/-- The node where nothing is written. -/
def Node.nothing : Node := .scalar true ""

/-- Whether nothing is written for a node. -/
def Node.isNothing : Node → Bool
  | .scalar true "" => true
  | _ => false

end ServiceStubs.Yaml
