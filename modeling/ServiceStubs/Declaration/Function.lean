import ServiceStubs.TypeExpr.Closure
import ServiceStubs.Declaration.Argument

/-!
# Functions and methods

A stub declares a function by its signature; functions that are called at run
time have a body too.  What uses annotations knows which ones, and so which
imports and types it needs.

## Main definitions

* `Annotated` — what uses annotations, with `requiredImports` and `types`.
* `FunctionStub` — a function or method.
-/

namespace ServiceStubs

/-! ## Uses of annotations -/

/-- What uses annotations, in the order in which it does. -/
class Annotated (α : Type) where
  annotations : α → List TypeExpr

/-- What must be imported to write `a`. -/
def requiredImports {α : Type} [Annotated α] (a : α) : ImportSet :=
  ImportSet.ofList
    (((Annotated.annotations a).flatMap (·.imports.toList)).filter (!·.isBuiltins))

/-- The types that `a` reaches. -/
def Store.types {α : Type} [Annotated α] (s : Store) (a : α) : TypeSet :=
  s.closure (Annotated.annotations a)

instance {α : Type} [Annotated α] : Annotated (List α) :=
  ⟨fun as => as.flatMap Annotated.annotations⟩

instance {α : Type} [Annotated α] : Annotated (Option α) :=
  ⟨fun a => a.toList.flatMap Annotated.annotations⟩

/-! ## Functions -/

/-- A function, or a method, whose first argument is the instance. -/
structure FunctionStub where
  name : String
  arguments : List Argument
  returnType : TypeExpr
  docstring : String := ""
  decorators : List TypeExpr := []
  body : Option String := none

namespace FunctionStub

/-- A method with the given arguments after the instance. -/
def method (name : String) (arguments : List Argument) (returnType : TypeExpr) :
    FunctionStub :=
  { name, arguments := .self :: arguments, returnType }

/-- Whether the first argument is the instance. -/
def isMethod (f : FunctionStub) : Bool :=
  f.arguments.head?.any fun a => a.name = "self" && a.type.isNone

/-- The first argument of a name. -/
def argument? (f : FunctionStub) (name : String) : Option Argument :=
  f.arguments.find? (·.name = name)

/-- The names of the arguments, without the instance and the mark. -/
def argumentNames (f : FunctionStub) : List String :=
  (f.arguments.filter fun a => !a.isKeywordMark && a.name ≠ "self").map (·.name)

/-- The signature, without the colon that ends it. -/
def signature (f : FunctionStub) : String :=
  "def " ++ f.name ++ "(" ++ ", ".intercalate (f.arguments.map Argument.text) ++ ") -> "
    ++ f.returnType.text

/-- The lines of the decorators. -/
def decoratorTexts (f : FunctionStub) : List String :=
  f.decorators.map fun d => "@" ++ d.text

instance : Annotated FunctionStub :=
  ⟨fun f => f.arguments.filterMap (·.type) ++ [f.returnType] ++ f.decorators⟩

end FunctionStub

end ServiceStubs
