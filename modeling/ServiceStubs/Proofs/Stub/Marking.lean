import ServiceStubs.Proofs.Stub.MarkedText
import ServiceStubs.Proofs.TypeExpr.Nodes
import ServiceStubs.Stub.Layout

/-!
# Marks in declarations

The declarations of a module once more, with the names in them marked: the names
in annotations as used, and what is declared as declared.  Each is the text of the
declaration when its marks are left out, and its marks are the names that the data
has there — no annotation is without its names, and no other name is marked.

## Main definitions

* `TypeExpr.names` — the names in a type expression, and `TypeExpr.marked`.
* `FunctionStub.declaration`, `ClassStub.declaration`, `TypedDict.declaration` — what
  is declared and used.
* `FunctionStub.markedMethod`, `FunctionStub.markedFunction`, `ClassStub.markedLines`,
  `TypedDict.marked` — the texts.
* `ImportGroup.statement` — the statement that is written for some imports.
-/

namespace ServiceStubs

open Stub MarkedText

/-! ## Type expressions -/

namespace TypeExpr

/-- The name at the head of an expression. -/
def headName : TypeExpr → String
  | .scalar s => s.text
  | .literal _ => "Literal"
  | .subscript g _ => g.text
  | .dict ref => ref.name
  | .external _ name asName => asName.getD name
  | .internal name _ => name

/-- The names in an expression: the heads of all its parts. -/
def names (a : TypeExpr) : List String :=
  a.nodes.map headName

mutual

/-- The text of an expression, with its names marked. -/
def marked : TypeExpr → MarkedText
  | .scalar s => [.used s.text]
  | .literal values =>
    subscripted "Literal" [.plain (", ".intercalate (values.map quoteValue))]
  | .subscript g args =>
    if args.isEmpty then [.used g.text] else subscripted g.text (separated ", " (markedOf args))
  | .dict ref => [.used ref.name]
  | .external _ name asName => [.used (asName.getD name)]
  | .internal name _ => [.used name]

/-- The texts of some expressions. -/
def markedOf : List TypeExpr → List MarkedText
  | [] => []
  | a :: as => a.marked :: markedOf as

end

mutual

@[simp] theorem text_marked : (a : TypeExpr) → a.marked.text = a.text
  | .scalar s => by simp [marked, text]
  | .literal values => by simp [marked, text]
  | .subscript g args => by
      rw [marked, text]
      split
      · simp
      · simp [map_text_markedOf args]
  | .dict ref => by simp [marked, text]
  | .external _ name asName => by simp [marked, text]
  | .internal name _ => by simp [marked, text]

theorem map_text_markedOf : (as : List TypeExpr) → (markedOf as).map MarkedText.text = texts as
  | [] => rfl
  | a :: as => by rw [markedOf, texts, List.map_cons, text_marked a, map_text_markedOf as]

end

mutual

/-- **Every name in an expression is marked as used.** -/
@[simp] theorem marks_marked : (a : TypeExpr) → a.marked.marks = a.names.map .used
  | .scalar s => by simp [marked, names, headName]
  | .literal values => by simp [marked, names, headName]
  | .subscript g args => by
      have hargs := flatMap_marks_markedOf args
      rw [marked, names, nodes, List.map_cons, List.map_cons]
      split
      · next hempty => simp_all [nodesOf, headName]
      · simp [hargs, headName]
  | .dict ref => by simp [marked, names, headName]
  | .external _ name asName => by simp [marked, names, headName]
  | .internal name _ => by simp [marked, names, headName]

theorem flatMap_marks_markedOf : (as : List TypeExpr) →
    (markedOf as).flatMap marks = ((nodesOf as).map headName).map .used
  | [] => rfl
  | a :: as => by
      rw [markedOf, nodesOf, List.flatMap_cons, marks_marked a, flatMap_marks_markedOf as, names,
        List.map_append, List.map_append]

end

example : (listOf str).marked = [.used "List", .plain "[", .used "str", .plain "]"] := by rfl

end TypeExpr

/-! ## Functions -/

/-- The text of an argument, with the names in its annotation marked. -/
def Argument.marked (a : Argument) : MarkedText :=
  .plain (a.stars.text ++ a.name) ::
    match a.type, a.default with
    | some type, some default => .plain ": " :: type.marked ++ [.plain (" = " ++ default)]
    | some type, none => .plain ": " :: type.marked
    | none, some default => [.plain ("=" ++ default)]
    | none, none => []

@[simp] theorem Argument.text_marked (a : Argument) : a.marked.text = a.text := by
  obtain ⟨name, type, default, stars⟩ := a
  cases type <;> cases default <;> simp [marked, text, String.append_assoc]

@[simp] theorem Argument.marks_marked (a : Argument) :
    a.marked.marks = (a.type.toList.flatMap TypeExpr.names).map .used := by
  obtain ⟨name, type, default, stars⟩ := a
  cases type <;> cases default <;> simp [marked]

namespace FunctionStub

variable (f : FunctionStub)

/-- The types in the signature of a function. -/
def signatureTypes : List TypeExpr :=
  f.arguments.filterMap (·.type) ++ [f.returnType]

/-- The signature of a function whose name is the stretch `name`: a module declares
it for a function, and it is plain text for a method. -/
def markedSignature (name : Span) : MarkedText :=
  .plain "def " :: name :: .plain "(" :: separated ", " (f.arguments.map Argument.marked)
    ++ .plain ") -> " :: f.returnType.marked

/-- What a function declares and uses. -/
def declaration : Declaration :=
  ⟨.functionDef, f.name, f.signatureTypes.flatMap TypeExpr.names⟩

/-- A method in the body of a class. -/
def markedMethod : List MarkedText :=
  f.decorators.map (fun d => .plain "    " :: .plain "@" :: d.marked)
    ++ [.plain "    " :: f.markedSignature (.plain f.name) ++ [.plain ":"]]
    ++ plainLines (docLines 8 f.docstring ++ ["        " ++ noBody])

/-- A function with its body, declared by its signature. -/
def markedFunction : List MarkedText :=
  (f.markedSignature (.declared .functionDef f.name) ++ [.plain ":"])
    :: plainLines (docLines 4 f.docstring ++ f.bodyLines)

theorem text_markedSignature (name : Span) (hname : name.text = f.name) :
    (f.markedSignature name).text = f.signature := by
  simp [markedSignature, signature, hname, Function.comp_def, String.append_assoc]

theorem marks_arguments : (f.arguments.map Argument.marked).flatMap marks =
    ((f.arguments.filterMap (·.type)).flatMap TypeExpr.names).map .used := by
  induction f.arguments with
  | nil => rfl
  | cons a as ih =>
      rw [List.map_cons, List.flatMap_cons, ih, Argument.marks_marked]
      -- An argument without an annotation has no names.
      cases h : a.type <;> simp [h]

theorem marks_markedSignature (name : Span) : (f.markedSignature name).marks =
    marks [name] ++ (f.signatureTypes.flatMap TypeExpr.names).map .used := by
  have hcons : ∀ ms, marks (name :: ms) = marks [name] ++ marks ms := marks_append [name]
  rw [markedSignature, List.cons_append, marks_plain, List.cons_append, hcons, List.cons_append,
    marks_plain, marks_append, marks_separated, marks_arguments, marks_plain]
  simp [signatureTypes]

@[simp] theorem map_text_markedMethod : f.markedMethod.map MarkedText.text = f.methodLines := by
  have hsignature := f.text_markedSignature (.plain f.name) rfl
  simp only [markedMethod, methodLines, decoratorTexts, List.map_append, List.map_map,
    map_text_plainLines, List.append_assoc]
  congr 1
  · simp [Function.comp_def]
  · simp [hsignature, String.append_assoc]

/-- The marks of a method are the names in its annotations. -/
@[simp] theorem marks_markedMethod : f.markedMethod.flatMap marks =
    ((f.decorators ++ f.signatureTypes).flatMap TypeExpr.names).map .used := by
  have hdecorators : (f.decorators.map fun d => Span.plain "    " :: .plain "@" :: d.marked).flatMap
      marks = (f.decorators.flatMap TypeExpr.names).map .used := by
    simp [List.flatMap_map, List.map_flatMap]
  rw [markedMethod, List.flatMap_append, List.flatMap_append, hdecorators,
    flatMap_marks_plainLines]
  simp [marks_markedSignature]

@[simp] theorem map_text_markedFunction :
    f.markedFunction.map MarkedText.text = f.functionLines := by
  have hsignature := f.text_markedSignature (.declared .functionDef f.name) rfl
  simp [markedFunction, functionLines, hsignature]

@[simp] theorem marks_markedFunction : f.markedFunction.flatMap marks = f.declaration.marks := by
  simp [markedFunction, marks_markedSignature, declaration, Declaration.marks]

end FunctionStub

/-! ## Classes -/

/-- The line of an attribute, with the names in its annotation marked. -/
def Attribute.marked (a : Attribute) : MarkedText :=
  .plain ("    " ++ a.name ++ ": ") :: a.type.marked

@[simp] theorem Attribute.text_marked (a : Attribute) : a.marked.text = "    " ++ a.text := by
  simp [marked, text, String.append_assoc]

@[simp] theorem Attribute.marks_marked (a : Attribute) :
    a.marked.marks = a.type.names.map .used := by
  simp [marked]

namespace ClassStub

variable (c : ClassStub)

/-- The types in the text of a class: its bases, those of its attributes, and the
decorators and signatures of its methods. -/
def writtenTypes : List TypeExpr :=
  c.bases ++ c.attributes.map (·.type)
    ++ c.methods.flatMap fun f => f.decorators ++ f.signatureTypes

/-- What a class declares and uses. -/
def declaration : Declaration :=
  ⟨.classDef, c.name, c.writtenTypes.flatMap TypeExpr.names⟩

/-- The first line of a class, which declares it. -/
def markedHeader : MarkedText :=
  .plain "class " :: .declared .classDef c.name ::
    if c.bases.isEmpty then [.plain ":"]
    else .plain "(" :: separated ", " (c.bases.map TypeExpr.marked) ++ [.plain "):"]

/-- The methods of a class. -/
def markedMethods : List MarkedText :=
  let all := c.methods.flatMap fun f => [.plain ""] :: f.markedMethod
  if c.attributes.isEmpty then all.drop 1 else all

/-- The lines of a class after the first one. -/
def markedBody : List MarkedText :=
  plainLines (docLines 4 c.docstring) ++ c.attributes.map Attribute.marked ++ c.markedMethods

/-- The lines of a class, with its name and those in its annotations marked. -/
def markedLines : List MarkedText :=
  c.markedHeader :: if c.markedBody.isEmpty then [[.plain "    pass"]] else c.markedBody

theorem text_markedHeader : c.markedHeader.text = c.header := by
  rw [markedHeader, header, text_cons, text_cons]
  split <;> simp [Function.comp_def, String.append_assoc]

theorem marks_markedHeader : c.markedHeader.marks =
    .declared .classDef c.name :: (c.bases.flatMap TypeExpr.names).map .used := by
  rw [markedHeader, marks_plain, marks_declared]
  split
  · next hempty => simp_all
  · simp [List.flatMap_map, List.map_flatMap]

theorem map_text_markedMethods : c.markedMethods.map MarkedText.text = c.methodBlock := by
  have hall : (c.methods.flatMap fun f => [.plain ""] :: f.markedMethod).map MarkedText.text =
      c.methods.flatMap fun f => "" :: f.methodLines := by
    simp [List.map_flatMap]
  rw [markedMethods, methodBlock]
  split
  · rw [List.map_drop, hall]
  · exact hall

/-- The marks of the methods of a class are the names in their annotations. -/
theorem marks_markedMethods : c.markedMethods.flatMap marks =
    ((c.methods.flatMap fun f => f.decorators ++ f.signatureTypes).flatMap TypeExpr.names).map
      .used := by
  have hall : (c.methods.flatMap fun f => [.plain ""] :: f.markedMethod).flatMap marks =
      ((c.methods.flatMap fun f => f.decorators ++ f.signatureTypes).flatMap
        TypeExpr.names).map .used := by
    simp [List.flatMap_assoc, List.map_flatMap]
  rw [markedMethods]
  split
  · rw [← hall]
    -- What is dropped is the empty line before the first method, if there is one.
    cases c.methods <;> simp
  · exact hall

@[simp] theorem map_text_markedLines : c.markedLines.map MarkedText.text = c.lines := by
  have hattributes : (c.attributes.map Attribute.marked).map MarkedText.text =
      c.attributes.map fun a => "    " ++ a.text := by
    simp
  have hbody : c.markedBody.map MarkedText.text =
      docLines 4 c.docstring ++ c.attributes.map (fun a => "    " ++ a.text) ++ c.methodBlock := by
    rw [markedBody, List.map_append, List.map_append, map_text_plainLines, hattributes,
      map_text_markedMethods]
  rw [markedLines, lines, ← hbody, List.map_cons, text_markedHeader, List.isEmpty_map]
  split <;> simp

@[simp] theorem marks_markedLines : c.markedLines.flatMap marks = c.declaration.marks := by
  have hattributes : (c.attributes.map Attribute.marked).flatMap marks =
      ((c.attributes.map (·.type)).flatMap TypeExpr.names).map .used := by
    simp [List.flatMap_map, List.map_flatMap]
  have hbody : c.markedBody.flatMap marks =
      ((c.attributes.map (·.type) ++ c.methods.flatMap fun f =>
        f.decorators ++ f.signatureTypes).flatMap TypeExpr.names).map .used := by
    rw [markedBody, List.flatMap_append, List.flatMap_append, flatMap_marks_plainLines,
      hattributes, marks_markedMethods, List.flatMap_append, List.map_append, List.nil_append]
  have hlines : c.markedLines.flatMap marks =
      c.markedHeader.marks ++ c.markedBody.flatMap marks := by
    rw [markedLines, List.flatMap_cons]
    split
    · next hempty => simp [List.isEmpty_iff.mp hempty]
    · rfl
  rw [hlines, marks_markedHeader, hbody]
  simp only [declaration, Declaration.marks, writtenTypes, List.append_assoc, List.flatMap_append,
    List.map_append, List.cons_append]

end ClassStub

/-! ## Typed dictionaries -/

/-- The names in the type of a field. -/
def Field.usedNames (f : Field) : List String :=
  (if f.required then [] else ["NotRequired"]) ++ f.type.names

/-- The type of a field, which says whether the field may be left out. -/
def Field.markedType (f : Field) : MarkedText :=
  if f.required then f.type.marked else subscripted "NotRequired" f.type.marked

@[simp] theorem Field.text_markedType (f : Field) : f.markedType.text = f.typeText := by
  rw [markedType, typeText]
  split <;> simp

@[simp] theorem Field.marks_markedType (f : Field) :
    f.markedType.marks = f.usedNames.map .used := by
  rw [markedType, usedNames]
  split <;> simp

namespace TypedDict

variable (d : TypedDict)

/-- What the declaration of a typed dictionary declares and uses. -/
def declaration : Declaration :=
  ⟨.typedDict, d.name, "TypedDict" :: d.fields.flatMap Field.usedNames⟩

/-- The declaration as a class. -/
def markedClass : List MarkedText :=
  [.plain "class ", .declared .typedDict d.name, .plain "(", .used "TypedDict", .plain "):"]
    :: (if d.fields.isEmpty then [[.plain "    pass"]] else [])
    ++ d.fields.map fun f => .plain ("    " ++ f.name ++ ": ") :: f.markedType

/-- The declaration as a call. -/
def markedCall : List MarkedText :=
  [[.declared .typedDict d.name, .plain " = ", .used "TypedDict", .plain "("],
      [.plain ("    \"" ++ d.name ++ "\",")], [.plain "    \x7b"]]
    ++ d.fields.map (fun f =>
      .plain ("        \"" ++ f.name ++ "\": ") :: f.markedType ++ [.plain ","])
    ++ plainLines ["    \x7d,", ")"]

/-- The declaration, with the name that it declares and those that it uses
marked. -/
def marked : MarkedText :=
  separated "\n"
    (if d.fields.all (isFieldIdentifier ·.name) then d.markedClass else d.markedCall)

theorem map_text_markedClass : d.markedClass.map MarkedText.text = d.classDefinition := by
  rw [markedClass, classDefinition]
  split <;> simp [String.append_assoc]

theorem map_text_markedCall : d.markedCall.map MarkedText.text = d.callDefinition := by
  simp [markedCall, callDefinition, String.append_assoc]

@[simp] theorem text_marked : d.marked.text = d.definition := by
  rw [marked, definition, text_separated]
  split
  · rw [map_text_markedClass]
  · rw [map_text_markedCall]

theorem marks_markedClass : d.markedClass.flatMap marks = d.declaration.marks := by
  rw [markedClass, declaration, Declaration.marks]
  split <;> simp [List.flatMap_map, List.map_flatMap]

theorem marks_markedCall : d.markedCall.flatMap marks = d.declaration.marks := by
  simp [markedCall, declaration, Declaration.marks, List.flatMap_map, List.map_flatMap]

@[simp] theorem marks_marked : d.marked.marks = d.declaration.marks := by
  rw [marked, marks_separated]
  split
  · exact d.marks_markedClass
  · exact d.marks_markedCall

end TypedDict

/-! ## Import statements -/

namespace Import

variable (i : Import)

/-- The statement for an import alone. -/
def statement : ImportStatement :=
  if i.name = "" then .whole i.source i.asName else .names i.source [(i.name, i.asName)]

theorem itemText_eq : ImportStatement.itemText (i.name, i.asName) = i.nameText := by
  rw [nameText]
  cases i.asName <;> rfl

theorem text_statement : i.statement.text = i.text := by
  rw [statement, text]
  split
  · rw [ImportStatement.text]
    cases i.asName <;> simp [ImportStatement.itemText, String.append_assoc]
  · rw [ImportStatement.text, List.map_singleton, String.intercalate_singleton, itemText_eq]

theorem imports_statement : i.statement.imports = [i] := by
  rw [statement]
  split
  · next hname => rw [ImportStatement.imports, ← hname]
  · rfl

end Import

namespace ImportGroup

variable {g : ImportGroup}

/-- The statement for some imports. -/
def statement (g : ImportGroup) : ImportStatement :=
  match g.imports with
  | [i] => i.statement
  | is => .names g.source (is.map fun i => (i.name, i.asName))

theorem text_statement (g : ImportGroup) : g.statement.text = g.text := by
  obtain ⟨source, is⟩ := g
  match is with
  | [i] => exact i.text_statement
  | [] => rfl
  | i :: j :: is =>
      simp [statement, text, ImportStatement.text, Function.comp_def, Import.itemText_eq]

/-- A statement imports what it was written for. -/
theorem imports_statement (h : ∀ i ∈ g.imports, i.source = g.source) :
    g.statement.imports = g.imports := by
  obtain ⟨source, is⟩ := g
  match is with
  | [i] => exact i.imports_statement
  | [] => rfl
  | i :: j :: is =>
      have hsame : ∀ k ∈ i :: j :: is, (⟨source, k.name, k.asName⟩ : Import) = id k := by
        intro k hk
        have hsource : source = k.source := (h k hk).symm
        rw [hsource]
        rfl
      rw [statement, ImportStatement.imports, List.map_map]
      exact (List.map_congr_left hsame).trans (List.map_id _)

theorem mem_bound_statement {i : Import} (hi : i ∈ g.imports) (halias : i.asName = none)
    (hname : i.name ≠ "") : i.name ∈ g.statement.bound := by
  obtain ⟨source, is⟩ := g
  match is with
  | [j] =>
      obtain rfl := List.mem_singleton.mp hi
      simp [statement, Import.statement, ImportStatement.bound, hname, halias]
  | j :: k :: is =>
      have hitem : (i.name, i.asName) ∈ (j :: k :: is).map fun i => (i.name, i.asName) :=
        List.mem_map_of_mem hi
      exact List.mem_map.mpr ⟨_, hitem, by rw [halias]; rfl⟩

end ImportGroup

end ServiceStubs
