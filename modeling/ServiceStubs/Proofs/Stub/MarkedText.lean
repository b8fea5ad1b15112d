import Mathlib.Data.List.Basic
import ServiceStubs.Import.Group

/-!
# Texts with marks

The text of a module in stretches, as one who reads the language takes it in: a
stretch is an import statement, a name that is declared, used or exported, or
plain text between these.  Without its marks a marked text is a text, so that what
is said of the marks is said of names at their places in that text.

## Main definitions

* `ImportStatement` — an import statement, with its text, the names that it binds
  and what it imports.
* `Span`, `MarkedText` — stretches and texts made of them, with `MarkedText.text`.
* `Declaration` — a declared name with the names that are used in its declaration.
* `MarkedText.marks` — what is marked, in the order of the text.
* `MarkedText.statements`, `MarkedText.declared`, `MarkedText.uses`,
  `MarkedText.exports` — the marks of each kind.
* `MarkedText.WellBound` — all names that a text uses or exports are bound in it.
-/

namespace ServiceStubs.Stub

/-! ## Import statements -/

/-- A statement that imports a whole module, or names of a module.  Each of them may
be given another name. -/
inductive ImportStatement
  | whole (source : ModulePath) (asName : Option String)
  | names (source : ModulePath) (items : List (String × Option String))
  deriving DecidableEq

namespace ImportStatement

/-- What is imported, with its other name. -/
def itemText : String × Option String → String
  | (name, some other) => name ++ " as " ++ other
  | (name, none) => name

/-- The text of a statement. -/
def text : ImportStatement → String
  | whole source asName => "import " ++ itemText (source.path, asName)
  | names source items =>
    "from " ++ source.path ++ " import " ++ ", ".intercalate (items.map itemText)

/-- The names that a statement binds.  A module without another name is reached
through the first part of its path. -/
def bound : ImportStatement → List String
  | whole source asName =>
    [asName.getD (String.ofList (source.path.toList.takeWhile (· ≠ '.')))]
  | names _ items => items.map fun (name, asName) => asName.getD name

/-- What a statement imports. -/
def imports : ImportStatement → List Import
  | whole source asName => [⟨source, "", asName⟩]
  | names source items => items.map fun (name, asName) => ⟨source, name, asName⟩

end ImportStatement

/-! ## Stretches of text -/

/-- How a module declares a name. -/
inductive DeclarationKind
  | classDef
  | typedDict
  | functionDef
  | assignment
  deriving DecidableEq

/-- Whether the declaration is that of a type: of a class or a typed dictionary. -/
def DeclarationKind.isType : DeclarationKind → Bool
  | classDef | typedDict => true
  | functionDef | assignment => false

/-- A stretch of a text. -/
inductive Span
  | plain (text : String)
  | importing (statement : ImportStatement)
  | declared (kind : DeclarationKind) (name : String)
  | used (name : String)
  | exported (name : String)
  deriving DecidableEq

/-- The text of a stretch: of a name, the name itself. -/
def Span.text : Span → String
  | plain text => text
  | importing statement => statement.text
  | declared _ name => name
  | used name => name
  | exported name => name

@[simp] theorem Span.text_plain (t : String) : (plain t).text = t := rfl
@[simp] theorem Span.text_importing (i : ImportStatement) : (importing i).text = i.text := rfl
@[simp] theorem Span.text_declared (kind : DeclarationKind) (n : String) :
    (declared kind n).text = n := rfl
@[simp] theorem Span.text_used (n : String) : (used n).text = n := rfl
@[simp] theorem Span.text_exported (n : String) : (exported n).text = n := rfl

/-- Whether the stretch is marked. -/
def Span.isMark : Span → Bool
  | plain _ => false
  | _ => true

/-- A text in stretches. -/
abbrev MarkedText := List Span

/-- A declaration: how it declares which name, and the names that are used in it. -/
structure Declaration where
  kind : DeclarationKind
  name : String
  uses : List String

/-- The marks of a declaration: what it declares, then what it uses. -/
def Declaration.marks (d : Declaration) : MarkedText :=
  .declared d.kind d.name :: d.uses.map .used

namespace MarkedText

variable (ms ns : MarkedText) (s : Span)

/-- The text without its marks. -/
def text (ms : MarkedText) : String :=
  String.join (ms.map Span.text)

/-- What is marked. -/
def marks (ms : MarkedText) : MarkedText :=
  ms.filter Span.isMark

@[simp] theorem text_nil : text [] = "" := rfl

@[simp] theorem text_cons : text (s :: ms) = s.text ++ text ms := by
  simp [text]

@[simp] theorem text_append : text (ms ++ ns) = text ms ++ text ns := by
  simp [text]

@[simp] theorem text_flatMap {α : Type} (f : α → MarkedText) (xs : List α) :
    text (xs.flatMap f) = String.join (xs.map fun x => text (f x)) := by
  induction xs with
  | nil => rfl
  | cons x xs ih => rw [List.flatMap_cons, text_append, ih, List.map_cons, String.join_cons]

@[simp] theorem marks_nil : marks [] = [] := rfl

@[simp] theorem marks_plain (t : String) : marks (.plain t :: ms) = marks ms := rfl

@[simp] theorem marks_importing (i : ImportStatement) :
    marks (.importing i :: ms) = .importing i :: marks ms := rfl

@[simp] theorem marks_declared (kind : DeclarationKind) (n : String) :
    marks (.declared kind n :: ms) = .declared kind n :: marks ms := rfl

@[simp] theorem marks_used (n : String) : marks (.used n :: ms) = .used n :: marks ms := rfl

@[simp] theorem marks_exported (n : String) :
    marks (.exported n :: ms) = .exported n :: marks ms := rfl

@[simp] theorem marks_append : marks (ms ++ ns) = marks ms ++ marks ns :=
  List.filter_append ..

@[simp] theorem marks_flatMap {α : Type} (f : α → MarkedText) (xs : List α) :
    marks (xs.flatMap f) = xs.flatMap fun x => marks (f x) :=
  List.filter_flatMap ..

/-! ## Texts one after the other -/

/-- Some texts with a separator between them. -/
def separated (separator : String) (mss : List MarkedText) : MarkedText :=
  List.intercalate [.plain separator] mss

@[simp] theorem text_separated (separator : String) (mss : List MarkedText) :
    text (separated separator mss) = separator.intercalate (mss.map text) := by
  induction mss with
  | nil => rfl
  | cons ms rest ih =>
      cases rest with
      | nil => simp [separated, List.intercalate]
      | cons ns rest =>
          rw [separated, List.intercalate_cons_cons, ← separated, text_append, text_append, ih]
          simp

/-- The separators have no marks. -/
@[simp] theorem marks_separated (separator : String) (mss : List MarkedText) :
    marks (separated separator mss) = mss.flatMap marks := by
  induction mss with
  | nil => rfl
  | cons ms rest ih =>
      cases rest with
      | nil => simp [separated, List.intercalate]
      | cons ns rest =>
          rw [separated, List.intercalate_cons_cons, ← separated, marks_append, marks_append, ih]
          simp

/-- A name that is used with parameters, whose text is `inner`. -/
def subscripted (name : String) (inner : MarkedText) : MarkedText :=
  .used name :: .plain "[" :: inner ++ [.plain "]"]

@[simp] theorem text_subscripted (name : String) (inner : MarkedText) :
    text (subscripted name inner) = name ++ "[" ++ text inner ++ "]" := by
  simp [subscripted, String.append_assoc]

@[simp] theorem marks_subscripted (name : String) (inner : MarkedText) :
    marks (subscripted name inner) = .used name :: marks inner := by
  simp [subscripted]

/-- Some lines, each with its end. -/
def ofLines (lines : List MarkedText) : MarkedText :=
  lines.flatMap (· ++ [.plain "\n"])

@[simp] theorem text_ofLines (lines : List MarkedText) :
    text (ofLines lines) = String.join ((lines.map text).map (· ++ "\n")) := by
  simp [ofLines, Function.comp_def]

@[simp] theorem marks_ofLines (lines : List MarkedText) :
    marks (ofLines lines) = lines.flatMap marks := by
  simp [ofLines]

/-- Lines that follow each other among some lines do so in the text. -/
theorem ofLines_isInfix {ls ls' : List MarkedText} (h : ls <:+: ls') :
    ofLines ls <:+: ofLines ls' := by
  obtain ⟨before, after, rfl⟩ := h
  exact ⟨ofLines before, ofLines after, by simp [ofLines]⟩

/-- Lines without marks. -/
def plainLines (lines : List String) : List MarkedText :=
  lines.map fun l => [.plain l]

@[simp] theorem map_text_plainLines (lines : List String) :
    (plainLines lines).map text = lines := by
  simp [plainLines, Function.comp_def]

@[simp] theorem flatMap_marks_plainLines (lines : List String) :
    (plainLines lines).flatMap marks = [] := by
  simp [plainLines, List.flatMap_map]

/-! ## Marks of each kind -/

/-- The import statements in a text. -/
def statements (ms : MarkedText) : List ImportStatement :=
  ms.filterMap fun | .importing i => some i | _ => none

/-- The names that a text declares, each with the kind of its declaration. -/
def declared (ms : MarkedText) : List (DeclarationKind × String) :=
  ms.filterMap fun | .declared kind n => some (kind, n) | _ => none

/-- The names that a text uses. -/
def uses (ms : MarkedText) : List String :=
  ms.filterMap fun | .used n => some n | _ => none

/-- The names that a text exports. -/
def exports (ms : MarkedText) : List String :=
  ms.filterMap fun | .exported n => some n | _ => none

/-- What is read off the stretches, and is nothing for plain ones, is read off the
marks. -/
theorem filterMap_marks {α : Type} {f : Span → Option α} (hplain : ∀ t, f (.plain t) = none) :
    (marks ms).filterMap f = ms.filterMap f := by
  rw [marks, List.filterMap_filter]
  refine List.filterMap_congr fun s _ => ?_
  cases s with
  | plain t => simp [Span.isMark, hplain]
  | _ => rfl

/-! ## Names that are bound -/

/-- The names that need no import. -/
def builtInNames : List String :=
  ["int", "str", "bool", "float", "bytes", "None"]

/-- The name is built in, or an import statement of the text binds it, or the text
declares it. -/
def Binds (ms : MarkedText) (n : String) : Prop :=
  n ∈ builtInNames ∨ (∃ i ∈ ms.statements, n ∈ i.bound) ∨ n ∈ ms.declared.map Prod.snd

/-- Whatever the text uses or exports is bound in it. -/
def WellBound (ms : MarkedText) : Prop :=
  ∀ n ∈ ms.uses ++ ms.exports, ms.Binds n

end MarkedText

end ServiceStubs.Stub
