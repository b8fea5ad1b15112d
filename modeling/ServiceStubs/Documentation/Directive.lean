import ServiceStubs.Text.Blank

/-!
# Directives

A line of method documentation is a directive when it starts with a word of a
fixed list between colons, with a name before the second colon perhaps:

    :param Bucket: The bucket.
    :rtype: dict

## Main definitions

* `Directive` — a directive, with its name and the rest of the line.
* `Directive.ofLine?` — the directive that a line is.
-/

namespace ServiceStubs.Documentation

open Text

/-- What a directive is about.  Those that say nothing about the signature are
not told apart. -/
inductive DirectiveKind
  | param
  | type
  | returnType
  | remark
  deriving DecidableEq

/-- The words of directives. -/
def directiveWords : List (String × DirectiveKind) :=
  [("param", .param), ("type", .type), ("rtype", .returnType),
    ("return", .remark), ("returns", .remark), ("raise", .remark), ("raises", .remark)]

/-- A directive. -/
structure Directive where
  kind : DirectiveKind
  name : Option String
  rest : String
  deriving DecidableEq

namespace Directive

/-- A character that ends a word or a name. -/
def endsWord (c : Char) : Bool :=
  isBlank c || c = ':'

/-- The name before the second colon, if there is one, and the text after the
colon. -/
def nameAndRest? (cs : List Char) : Option (Option String × List Char) :=
  match trimStart cs with
  | ':' :: rest => some (none, rest)
  | cs =>
    let name := cs.takeWhile (!endsWord ·)
    match trimStart (cs.dropWhile (!endsWord ·)) with
    | ':' :: rest => some (some (String.ofList name), rest)
    | _ => none

/-- The directive that a line without blanks around it is. -/
def ofLine? : List Char → Option Directive
  | ':' :: cs => do
    let kind ← directiveWords.lookup (String.ofList (cs.takeWhile (!endsWord ·)))
    let (name, rest) ← nameAndRest? (cs.dropWhile (!endsWord ·))
    return { kind, name, rest := String.ofList (trim rest) }
  | _ => none

end Directive

end ServiceStubs.Documentation
