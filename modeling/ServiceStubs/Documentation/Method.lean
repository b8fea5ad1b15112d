import ServiceStubs.Documentation.Basic
import ServiceStubs.Declaration.Function

/-!
# Documented methods

Documentation enters a stub in three ways: it completes a method that the schema
describes, it makes a method of its own, or, for some methods that are never
documented, a fixed description takes its place.

## Main definitions

* `MethodInfo.method` — the method that a documentation describes.
* `undescribed` — the method whose documentation cannot be used.
* `MethodInfo.complete` — a described method completed by its documentation.
* `undocumented`, `undocumented?` — the methods that are never documented.
-/

namespace ServiceStubs.Documentation

/-- The method that a documentation describes. -/
def MethodInfo.method (info : MethodInfo) (name : String) : FunctionStub :=
  { FunctionStub.method name (requiredFirst (info.arguments.map ArgumentInfo.toArgument))
      (info.returnType.getD .any) with docstring := info.description }

/-- A method that takes and returns anything. -/
def undescribed (name : String) : FunctionStub :=
  .method name [.variadic .any, .keywords .any] .any

/-! ## Completing a method -/

/-- The documented arguments that a method lacks. -/
def MethodInfo.extraArguments (info : MethodInfo) (f : FunctionStub) : List Argument :=
  (info.arguments.filter fun a => !f.argumentNames.contains a.name).map ArgumentInfo.toArgument

/-- The instance and the mark, which stay in front. -/
def staysInFront (a : Argument) : Bool :=
  a.name = "self" || a.isKeywordMark

/-- The arguments of a method with some more, required ones first.  A method
that had none besides the instance gets the mark. -/
def withExtraArguments (as extra : List Argument) : List Argument :=
  let as := if as.all (·.name = "self") then as ++ [.keywordMark] else as
  as.takeWhile staysInFront ++ requiredFirst (as.dropWhile staysInFront ++ extra)

/-- A method completed by its documentation: the description and further
arguments are taken over, and the type it returns if that is not known. -/
def MethodInfo.complete (info : MethodInfo) (f : FunctionStub) : FunctionStub :=
  let extra := info.extraArguments f
  { f with
    docstring := if info.description = "" then f.docstring else info.description
    returnType := if f.returnType.isAny then info.returnType.getD f.returnType else f.returnType
    arguments := if extra.isEmpty then f.arguments else withExtraArguments f.arguments extra }

/-! ## Methods that are never documented -/

/-- A description of a method by hints. -/
structure UndocumentedMethod where
  name : String
  arguments : List (String × String × Bool)
  returnHint : String

/-- The methods that are never documented. -/
def undocumented : List UndocumentedMethod :=
  [⟨"load", [], "None"⟩,
    ⟨"reload", [], "None"⟩,
    ⟨"get_available_subresources", [], "sequence(string)"⟩,
    ⟨"can_paginate", [("operation_name", "string", true)], "boolean"⟩,
    ⟨"close", [], "None"⟩,
    ⟨"generate_presigned_url",
      [("ClientMethod", "string", true), ("Params", "dict", false),
        ("ExpiresIn", "integer", false), ("HttpMethod", "string", false)],
      "string"⟩]

/-- What is known of a method that is never documented. -/
def undocumented? (resources : List String) (name : String) : Option MethodInfo :=
  (undocumented.find? (·.name = name)).map fun m =>
    { arguments := m.arguments.map fun (name, hint, required) =>
        { name, type := typeOfHint resources hint, required }
      returnType := some (typeOfHint resources m.returnHint) }

end ServiceStubs.Documentation
