import ServiceStubs.TypeExpr.Definition
import ServiceStubs.Declaration.Class
import ServiceStubs.Stub.Docstring

/-!
# Layout of declarations

The lines in which functions, methods and classes are declared.

## Main definitions

* `FunctionStub.methodLines` — a method in the body of a class.
* `FunctionStub.functionLines` — a function with its body.
* `ClassStub.lines` — a class.
-/

namespace ServiceStubs

open Stub

/-- What stands for a body that is not given. -/
def noBody : String := "..."

namespace FunctionStub

/-- A method in the body of a class. -/
def methodLines (f : FunctionStub) : List String :=
  f.decoratorTexts.map ("    " ++ ·) ++ ["    " ++ f.signature ++ ":"]
    ++ docLines 8 f.docstring ++ ["        " ++ noBody]

/-- The body of a function. -/
def bodyLines (f : FunctionStub) : List String :=
  match f.body with
  | none => ["    " ++ noBody]
  | some text => if text = "" then ["    " ++ noBody] else indented 4 text

/-- A function with its body. -/
def functionLines (f : FunctionStub) : List String :=
  [f.signature ++ ":"] ++ docLines 4 f.docstring ++ f.bodyLines

end FunctionStub

namespace ClassStub

/-- The methods of a class, with an empty line before each except one that is
the first line of the class. -/
def methodBlock (c : ClassStub) : List String :=
  let all := c.methods.flatMap fun f => "" :: f.methodLines
  if c.attributes.isEmpty then all.drop 1 else all

/-- The lines of a class. -/
def lines (c : ClassStub) : List String :=
  let body := docLines 4 c.docstring ++ c.attributes.map (fun a => "    " ++ a.text)
    ++ c.methodBlock
  c.header :: if body.isEmpty then ["    pass"] else body

end ClassStub

end ServiceStubs
