import ServiceStubs.TypeExpr.Store

/-!
# The types that an expression reaches

A module that uses a typed dictionary needs the dictionaries of its fields too,
and theirs.  The closure of an expression holds its parts, the types of the
fields of every dictionary among them, the parts of those, and so on.  A
dictionary that is in the set already is not entered again, so the search ends
also when dictionaries refer to each other in circles.

## Main definitions

* `TypeSet` — expressions ordered by their texts, each text once.
* `Store.collect` — adds the closure of an expression to a set.
* `Store.closure` — the closure of some expressions.
-/

namespace ServiceStubs

/-- A set of expressions, ordered by their texts. -/
abbrev TypeSet := KeyedSet String TypeExpr

namespace Store

/-- The parts of the types of the fields of a typed dictionary. -/
def fieldNodes (s : Store) : TypeExpr → List TypeExpr
  | .dict ref => (s.get ref).fields.flatMap (·.type.nodes)
  | _ => []

/-- Adds an expression to a set, and the fields' types if it is a typed
dictionary that was not there; dictionaries are entered at most `depth` deep. -/
def visit (s : Store) : (depth : Nat) → TypeSet → TypeExpr → TypeSet
  | 0, types, a => types.insert a.text a
  | depth + 1, types, a =>
    if types.contains a.text then types
    else (s.fieldNodes a).foldl (s.visit depth) (types.insert a.text a)

/-- Adds the closure of an expression to a set.  Every dictionary that is
entered is new to the set, so the number of dictionaries bounds the depth. -/
def collect (s : Store) (types : TypeSet) (a : TypeExpr) : TypeSet :=
  a.nodes.foldl (s.visit (s.dicts.size + 1)) types

/-- The closure of some expressions. -/
def closure (s : Store) (as : List TypeExpr) : TypeSet :=
  as.foldl s.collect ∅

end Store

end ServiceStubs
