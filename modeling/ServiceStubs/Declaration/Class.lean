import ServiceStubs.Declaration.Function

/-!
# Classes

## Main definitions

* `Attribute` — an attribute of a class.
* `ClassStub` — a class with its bases, attributes and methods.
-/

namespace ServiceStubs

/-- An attribute of a class. -/
structure Attribute where
  name : String
  type : TypeExpr

/-- The declaration of an attribute. -/
def Attribute.text (a : Attribute) : String :=
  a.name ++ ": " ++ a.type.text

/-- A class. -/
structure ClassStub where
  name : String
  docstring : String := ""
  bases : List TypeExpr := []
  attributes : List Attribute := []
  methods : List FunctionStub := []

namespace ClassStub

/-- The first line of the class. -/
def header (c : ClassStub) : String :=
  if c.bases.isEmpty then "class " ++ c.name ++ ":"
  else "class " ++ c.name ++ "(" ++ ", ".intercalate (c.bases.map TypeExpr.text) ++ "):"

/-- The first method of a name. -/
def method? (c : ClassStub) (name : String) : Option FunctionStub :=
  c.methods.find? (·.name = name)

/-- The first attribute of a name. -/
def attribute? (c : ClassStub) (name : String) : Option Attribute :=
  c.attributes.find? (·.name = name)

/-- The class as a type of the module that declares it. -/
def type (c : ClassStub) : TypeExpr :=
  .named c.name

instance : Annotated ClassStub :=
  ⟨fun c => c.bases ++ c.attributes.map (·.type) ++ c.methods.flatMap Annotated.annotations⟩

end ClassStub

end ServiceStubs
