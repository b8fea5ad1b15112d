import ServiceStubs.TypeExpr.Basic

/-!
# Typed dictionaries

A typed dictionary is a named record of fields.  Its fields may be added to at
any time and may refer back to it, so dictionaries live in a store and are
referred to by handles: whoever holds the handle sees every later field.

## Main definitions

* `Field`, `TypedDict` — a dictionary as it is at one moment.
* `Store` — the dictionaries made so far.
* `Store.add`, `Store.get`, `Store.addField`, `Store.setDocstring`,
  `Store.copy` — its operations.
-/

namespace ServiceStubs

/-- A field of a typed dictionary. -/
structure Field where
  name : String
  type : TypeExpr
  required : Bool

/-- A typed dictionary at one moment. -/
structure TypedDict where
  name : String
  fields : List Field := []
  docstring : Option String := none

namespace TypedDict

/-- The first field of a name. -/
def field? (d : TypedDict) (name : String) : Option Field :=
  d.fields.find? (·.name = name)

/-- Whether there is a field of a name. -/
def hasField (d : TypedDict) (name : String) : Bool :=
  d.fields.any (·.name = name)

end TypedDict

/-- The typed dictionaries made so far, by the number of their handle. -/
structure Store where
  dicts : Array TypedDict := #[]

namespace Store

instance : EmptyCollection Store := ⟨{}⟩

/-- Makes a dictionary. -/
def add (s : Store) (d : TypedDict) : DictRef × Store :=
  (⟨s.dicts.size, d.name⟩, ⟨s.dicts.push d⟩)

/-- The dictionary of a handle as it is now. -/
def get (s : Store) (ref : DictRef) : TypedDict :=
  s.dicts[ref.id]?.getD { name := ref.name }

/-- Changes the dictionary of a handle. -/
def modify (s : Store) (ref : DictRef) (f : TypedDict → TypedDict) : Store :=
  ⟨s.dicts.modify ref.id f⟩

/-- Adds a field at the end. -/
def addField (s : Store) (ref : DictRef) (f : Field) : Store :=
  s.modify ref fun d => { d with fields := d.fields ++ [f] }

/-- Gives the dictionary a docstring. -/
def setDocstring (s : Store) (ref : DictRef) (text : String) : Store :=
  s.modify ref fun d => { d with docstring := some text }

/-- A copy of an expression, which later changes of the expression do not reach:
a typed dictionary is copied as it is now.  Dictionaries inside it stay shared. -/
def copy (s : Store) : TypeExpr → TypeExpr × Store
  | .dict ref =>
    let (ref, s) := s.add (s.get ref)
    (.dict ref, s)
  | a => (a, s)

end Store

end ServiceStubs
