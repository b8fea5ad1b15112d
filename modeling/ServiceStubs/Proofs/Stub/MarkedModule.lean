import ServiceStubs.Proofs.Stub.Marking
import ServiceStubs.Stub.Package

/-!
# Marks in modules

The text of a module with its marks.  What is marked is what the record of the module
says of it, and nothing else: the statements that it imports with, the names that its
body declares, those that its annotations use and those that it exports, in the order
of the text.  Each declaration is a stretch of its own.

## Main definitions

* `Stub.Body.declarations` — what a body declares, with the names that it uses.
* `Stub.Module.statements` — all imports of a module, those for type checking only
  among them.
* `Stub.Module.marked` — the text with its marks, and `Stub.Module.text_marked`.
* `Stub.Module.Reads` — what a text says of a module, with
  `Stub.Module.reads_marked`.
* `Stub.Module.isInfix_marked` — each declaration is a stretch of the text.
* `PackageStub.files_eq` — the files of a package are the marked texts of its modules.
-/

namespace ServiceStubs

open Stub MarkedText

namespace Stub

/-! ## Declarations -/

/-- What a body declares, with the names that are used in each declaration. -/
def Body.declarations : Body → List Declaration
  | aliases names => names.map fun (name, other) => ⟨.assignment, name, [other]⟩
  | classes cs => cs.map ClassStub.declaration
  | dicts ds => ds.map TypedDict.declaration
  | functions _ fs => fs.map FunctionStub.declaration

/-- The declarations of a body that take lines of their own. -/
def Body.markedBlocks : Body → List (List MarkedText)
  | aliases _ => []
  | classes cs => cs.map ClassStub.markedLines
  | dicts ds => ds.map fun d => [d.marked]
  | functions _ fs => fs.map FunctionStub.markedFunction

namespace Module

variable (m : Module)

/-- The imports of a module, those for type checking only among them. -/
def statements : List ImportGroup :=
  m.imports ++
    match m.body with
    | .functions types _ => types
    | _ => []

/-- The statement that puts off the evaluation of annotations. -/
def futureStatement : ImportStatement :=
  .names ⟨"__future__"⟩ [("annotations", none)]

/-- The import statements of a module: those for its imports, after the one that a
module of functions begins with. -/
def importStatements : List ImportStatement :=
  (match m.body with
    | .functions _ _ => [futureStatement]
    | _ => []) ++ m.statements.map ImportGroup.statement

/-! ## Texts with their marks -/

/-- The line that lists what a module exports. -/
def markedExports (names : List String) : MarkedText :=
  .plain "__all__ = (" ::
    names.flatMap (fun n => [.plain "\"", .exported n, .plain "\", "]) ++ [.plain ")"]

/-- The import statements, one on each line. -/
def markedImports (gs : List ImportGroup) : List MarkedText :=
  gs.map fun g => [.importing g.statement]

/-- The imports for type checking only. -/
def markedTypeImports (types : List ImportGroup) : List MarkedText :=
  [.plain "if TYPE_CHECKING:"]
    :: if types.isEmpty then [[.plain "    pass"]]
      else types.map fun g => [.plain "    ", .importing g.statement]

/-- Declarations, with the empty lines around them. -/
def markedDeclarations (declarations : List (List MarkedText)) : List MarkedText :=
  declarations.flatMap (fun d => plainLines ["", ""] ++ d) ++ plainLines [""]

/-- The lines after the banner. -/
def markedLines : List MarkedText :=
  match m.body with
  | .aliases names =>
    markedImports m.imports ++ plainLines [""]
      ++ names.map (fun (name, other) => [.declared .assignment name, .plain " = ", .used other])
      ++ [[.plain ""], markedExports m.exports]
  | .functions types _ =>
    [[.importing futureStatement], [.plain ""]] ++ markedImports m.imports ++ plainLines [""]
      ++ markedTypeImports types ++ [[.plain ""], markedExports m.exports]
      ++ markedDeclarations m.body.markedBlocks
  | _ =>
    markedImports m.imports ++ [[.plain ""], markedExports m.exports]
      ++ markedDeclarations m.body.markedBlocks

/-- The text of a module with its marks. -/
def marked : MarkedText :=
  ofLines (plainLines (m.banner.lines ++ [""]) ++ m.markedLines)

/-! ## The text -/

@[simp] theorem text_markedExports (names : List String) :
    (markedExports names).text = exportLine names := by
  simp [markedExports, exportLine, String.append_assoc]

@[simp] theorem map_text_markedImports (gs : List ImportGroup) :
    (markedImports gs).map MarkedText.text = gs.map ImportGroup.text := by
  simp [markedImports, ImportGroup.text_statement]

@[simp] theorem map_text_markedTypeImports (types : List ImportGroup) :
    (markedTypeImports types).map MarkedText.text = typeImportLines types := by
  rw [markedTypeImports, typeImportLines]
  split <;> simp [ImportGroup.text_statement]

@[simp] theorem map_text_markedDeclarations (declarations : List (List MarkedText)) :
    (markedDeclarations declarations).map MarkedText.text =
      blocks (declarations.map (·.map MarkedText.text)) := by
  simp [markedDeclarations, blocks, List.map_flatMap, List.flatMap_map]

theorem map_text_markedLines : m.markedLines.map MarkedText.text = m.bodyLines := by
  have hfuture : futureStatement.text = "from __future__ import annotations" := by decide +kernel
  obtain ⟨file, banner, imports, exports, body⟩ := m
  cases body with
  | aliases names =>
      simp [markedLines, bodyLines, importTexts, Function.comp_def, String.append_assoc]
  | _ =>
      simp [markedLines, bodyLines, importTexts, Body.markedBlocks, Function.comp_def, hfuture]

/-- **Without its marks, the marked text of a module is its text.** -/
theorem text_marked : m.marked.text = m.text := by
  rw [marked, text_ofLines, List.map_append, map_text_plainLines, map_text_markedLines, text]

/-! ## The marks -/

@[simp] theorem marks_markedExports (names : List String) :
    (markedExports names).marks = names.map .exported := by
  rw [List.map_eq_flatMap]
  simp [markedExports]

@[simp] theorem marks_markedImports (gs : List ImportGroup) :
    (markedImports gs).flatMap marks = gs.map (.importing ·.statement) := by
  rw [markedImports, List.flatMap_map, List.map_eq_flatMap]
  rfl

@[simp] theorem marks_markedTypeImports (types : List ImportGroup) :
    (markedTypeImports types).flatMap marks = types.map (.importing ·.statement) := by
  rw [markedTypeImports]
  split
  · next hempty => simp [List.isEmpty_iff.mp hempty]
  · rw [List.flatMap_cons, List.flatMap_map, List.map_eq_flatMap]
    rfl

@[simp] theorem marks_markedDeclarations (declarations : List (List MarkedText)) :
    (markedDeclarations declarations).flatMap marks =
      declarations.flatMap (·.flatMap marks) := by
  simp [markedDeclarations, List.flatMap_assoc]

/-- **The marks of a module** are its imports, its exports and the declarations of its
body.  Assignments stand before the exports. -/
theorem marks_marked : m.marked.marks = m.importStatements.map .importing ++
    match m.body with
    | .aliases _ => m.body.declarations.flatMap Declaration.marks ++ m.exports.map .exported
    | _ => m.exports.map .exported ++ m.body.declarations.flatMap Declaration.marks := by
  have hlines : m.marked.marks = m.markedLines.flatMap marks := by
    rw [marked, marks_ofLines, List.flatMap_append, flatMap_marks_plainLines, List.nil_append]
  rw [hlines]
  obtain ⟨file, banner, imports, exports, body⟩ := m
  cases body with
  | aliases names =>
      simp [markedLines, importStatements, statements, Body.declarations, Declaration.marks,
        List.flatMap_map]
  | _ =>
      simp [markedLines, importStatements, statements, Body.declarations, Body.markedBlocks,
        List.flatMap_map, Function.comp_def]

/-- What a text with marks says of a module: its text, and what it imports, declares,
uses and exports, in the order of the text. -/
structure Reads (ms : MarkedText) : Prop where
  text : ms.text = m.text
  statements : ms.statements = m.importStatements
  declared : ms.declared = m.body.declarations.map fun d => (d.kind, d.name)
  uses : ms.uses = m.body.declarations.flatMap (·.uses)
  exports : ms.exports = m.exports

/-- **The marked text of a module says what its record does.** -/
theorem reads_marked : m.Reads m.marked where
  text := m.text_marked
  statements := by
    rw [MarkedText.statements, ← filterMap_marks _ fun _ => rfl, marks_marked]
    split <;> simp [Declaration.marks, List.filterMap_flatMap]
  declared := by
    rw [List.map_eq_flatMap, MarkedText.declared, ← filterMap_marks _ fun _ => rfl, marks_marked]
    split <;> simp [Declaration.marks, List.filterMap_flatMap]
  uses := by
    rw [MarkedText.uses, ← filterMap_marks _ fun _ => rfl, marks_marked]
    split <;> simp [Declaration.marks, List.filterMap_flatMap]
  exports := by
    rw [MarkedText.exports, ← filterMap_marks _ fun _ => rfl, marks_marked]
    split <;> simp [Declaration.marks, List.filterMap_flatMap]

/-! ## Declarations and imports in the text -/

variable {m}

/-- The text of a module imports what its record does, and the evaluation of
annotations. -/
theorem eq_or_of_mem_statements {i : ImportStatement} (hi : i ∈ m.marked.statements) :
    i = futureStatement ∨ ∃ g ∈ m.statements, g.statement = i := by
  rw [m.reads_marked.statements, importStatements, List.mem_append, List.mem_map] at hi
  refine hi.imp_left fun hi => ?_
  split at hi
  · exact List.mem_singleton.mp hi
  · nomatch hi

theorem statement_mem_marked {g : ImportGroup} (hg : g ∈ m.statements) :
    g.statement ∈ m.marked.statements := by
  rw [m.reads_marked.statements]
  exact List.mem_append_right _ (List.mem_map_of_mem hg)

/-- What a text declares is what the record of the module declares. -/
theorem mem_declared_iff {kind : DeclarationKind} {n : String} :
    (kind, n) ∈ m.marked.declared ↔ ∃ d ∈ m.body.declarations, d.kind = kind ∧ d.name = n := by
  simp [m.reads_marked.declared]

/-- The marked lines of each declaration are a stretch of the text. -/
theorem isInfix_marked {b : List MarkedText} (hb : b ∈ m.body.markedBlocks) :
    ofLines b <:+: m.marked := by
  have hdeclarations : b <:+: markedDeclarations m.body.markedBlocks := by
    obtain ⟨before, after, heq⟩ := List.append_of_mem hb
    refine ⟨before.flatMap (fun d => plainLines ["", ""] ++ d) ++ plainLines ["", ""],
      after.flatMap (fun d => plainLines ["", ""] ++ d) ++ plainLines [""], ?_⟩
    simp [markedDeclarations, heq]
  have hlines : markedDeclarations m.body.markedBlocks <:+: m.markedLines := by
    obtain ⟨file, banner, imports, exports, body⟩ := m
    cases body with
    | aliases names => nomatch hb
    | _ => exact (List.suffix_append _ _).isInfix
  exact ofLines_isInfix ((hdeclarations.trans hlines).trans (List.suffix_append _ _).isInfix)

/-- The definition of each dictionary of a module is a stretch of its text. -/
theorem isInfix_of_mem_dicts {ds : List TypedDict} (hbody : m.body = .dicts ds) {d : TypedDict}
    (hd : d ∈ ds) : d.marked <:+: m.marked := by
  have hblock : [d.marked] ∈ m.body.markedBlocks := hbody ▸ List.mem_map_of_mem hd
  have hline : d.marked <+: ofLines [d.marked] := by simp [ofLines]
  exact hline.isInfix.trans (isInfix_marked hblock)

end Module

end Stub

/-! ## Files -/

namespace PackageStub

/-- **The files of a package are the marked texts of its modules**, without the
marks. -/
theorem files_eq (p : PackageStub) (settings : Settings) (st : Store) :
    p.files settings st = (p.modules settings st).map fun m => (m.file, m.marked.text) := by
  simp only [files, Module.text_marked]

end PackageStub

end ServiceStubs
