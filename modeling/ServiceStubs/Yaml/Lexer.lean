import ServiceStubs.Yaml.Scalar
import ServiceStubs.Yaml.Token

/-!
# Tokens of a YAML text

A text is taken apart from left to right.  Two things are known only later: that
a block ends, which the next smaller column shows, and that a scalar was a key,
which the colon after it shows.  A lexer therefore keeps the columns of the open
blocks, and for every open bracket the place where a key may have started; when
the colon comes, the tokens for the key are put in at that place.

## Main definitions

* `PendingKey` — what may turn out to be a key.
* `Lexer` — the state between two tokens.
* `Lexer.token` — reads one token.
* `tokens?` — the tokens of a text.
-/

namespace ServiceStubs.Yaml

/-- What may turn out to be a key when a colon follows. -/
structure PendingKey where
  /-- Whether nothing but a key can stand here. -/
  required : Bool
  /-- The number of tokens before it. -/
  place : Nat
  start : Cursor

/-- The state between two tokens. -/
structure Lexer where
  cursor : Cursor
  tokens : Array Token := #[]
  /-- The columns of the open blocks, the innermost first. -/
  blocks : List Nat := []
  /-- What may be a key inside each open bracket, the innermost first. -/
  brackets : List (Option PendingKey) := []
  /-- What may be a key outside of brackets. -/
  outer : Option PendingKey := none
  /-- Whether a key may start here. -/
  keyAllowed : Bool := true

namespace Lexer

/-! ## State -/

/-- Whether the lexer is between brackets. -/
def inFlow (l : Lexer) : Bool :=
  !l.brackets.isEmpty

/-- The column of the innermost block, or one less than zero. -/
def indent (l : Lexer) : Int :=
  match l.blocks with
  | [] => -1
  | n :: _ => n

/-- Adds a token. -/
def push (l : Lexer) (t : Token) : Lexer :=
  { l with tokens := l.tokens.push t }

/-- Adds a token that is written with `n` characters. -/
def pushMark (l : Lexer) (n : Nat) (t : Token) : Lexer :=
  { l.push t with cursor := l.cursor.skip n }

/-- Says whether a key may start at the next token. -/
def allowKey (l : Lexer) (b : Bool) : Lexer :=
  { l with keyAllowed := b }

/-! ## Blocks -/

/-- Closes the blocks that are indented more than a column. -/
def closeBlocks (l : Lexer) (column : Int) : Lexer :=
  if l.inFlow then l
  else
    let closed := l.blocks.takeWhile fun (n : Nat) => column < n
    { l with
      tokens := closed.foldl (fun ts _ => ts.push .closeBlock) l.tokens
      blocks := l.blocks.drop closed.length }

/-- Opens a block at a column, unless there is one that is indented as much.
Its token comes after `place` others. -/
def openBlock (l : Lexer) (column place : Nat) (t : Token) : Lexer :=
  if l.inFlow || (column : Int) ≤ l.indent then l
  else { l with tokens := l.tokens.insertIdxIfInBounds place t, blocks := column :: l.blocks }

/-- Opens a block where the lexer is. -/
def openBlockHere (l : Lexer) (t : Token) : Lexer :=
  l.openBlock l.cursor.column l.tokens.size t

/-! ## Keys -/

/-- What may be a key at this level of brackets. -/
def pending (l : Lexer) : Option PendingKey :=
  match l.brackets with
  | [] => l.outer
  | k :: _ => k

/-- Changes what may be a key at this level of brackets. -/
def setPending (l : Lexer) (k : Option PendingKey) : Lexer :=
  match l.brackets with
  | [] => { l with outer := k }
  | _ :: ks => { l with brackets := k :: ks }

/-- Gives up what may have been a key, unless it had to be one. -/
def dropKey (l : Lexer) : Option Lexer :=
  if l.pending.any (·.required) then none else some (l.setPending none)

/-- Notes that a key may start here. -/
def noteKey (l : Lexer) : Option Lexer := do
  if !l.keyAllowed then return l
  let l ← l.dropKey
  return l.setPending (some {
    required := !l.inFlow && l.indent = l.cursor.column
    place := l.tokens.size
    start := l.cursor })

/-- Whether a key that started at one place may go on until another.  A key is
on one line and not longer than 1024 characters. -/
def reaches (start here : Cursor) : Bool :=
  start.line = here.line && here.index ≤ start.index + 1024

/-- Gives up whatever cannot be a key any more. -/
def dropStaleKeys (l : Lexer) : Option Lexer :=
  let stale (k : PendingKey) : Bool := !reaches k.start l.cursor
  let kept (k : Option PendingKey) : Option PendingKey := k.filter (!stale ·)
  if (l.outer :: l.brackets).any (·.any fun k => stale k && k.required) then none
  else some { l with outer := kept l.outer, brackets := l.brackets.map kept }

/-! ## Blanks and comments -/

/-- Goes on to the next token.  A tab may stand before it only where no key can
start. -/
def toNextToken : (fuel : Nat) → Lexer → Lexer
  | 0, l => l
  | fuel + 1, l =>
    let c := if l.cursor.index = 0 && l.cursor.rest.head? = some '\uFEFF' then l.cursor.skip 1
      else l.cursor
    let c := c.skipWhile fun b => b = ' ' || ((l.inFlow || !l.keyAllowed) && b = '\t')
    let c := if c.rest.head? = some '#' then c.skipLine else c
    if c.rest.head?.any isBreak then
      toNextToken fuel { l with cursor := c.readBreak.2, keyAllowed := l.keyAllowed || !l.inFlow }
    else { l with cursor := c }

/-! ## Marks -/

/-- Closes all blocks. -/
def closeAll (l : Lexer) : Option Lexer :=
  (l.closeBlocks (-1)).dropKey

/-- Reads the mark of a document. -/
def documentMark (l : Lexer) (t : Token) : Option Lexer := do
  return ((← l.closeAll).allowKey false).pushMark 3 t

/-- Reads an opening bracket. -/
def openFlow (l : Lexer) (t : Token) : Option Lexer := do
  let l := (← l.noteKey).pushMark 1 t
  return { l with brackets := none :: l.brackets, keyAllowed := true }

/-- Reads a closing bracket. -/
def closeFlow (l : Lexer) (t : Token) : Option Lexer := do
  let l ← l.dropKey
  return ({ l with brackets := l.brackets.tail }.allowKey false).pushMark 1 t

/-- Reads a comma between brackets. -/
def flowEntry (l : Lexer) : Option Lexer := do
  return ((← l.dropKey).allowKey true).pushMark 1 .flowEntry

/-- Reads the dash of an item. -/
def blockEntry (l : Lexer) : Option Lexer := do
  if !l.inFlow && !l.keyAllowed then none
  let l := l.openBlockHere .openBlockSequence
  return ((← l.dropKey).allowKey true).pushMark 1 .blockEntry

/-- Reads the question mark of a key. -/
def explicitKey (l : Lexer) : Option Lexer := do
  if !l.inFlow && !l.keyAllowed then none
  let l := l.openBlockHere .openBlockMapping
  return ((← l.dropKey).allowKey (!l.inFlow)).pushMark 1 .key

/-- Reads the colon of a value. -/
def value (l : Lexer) : Option Lexer :=
  match l.pending with
  | some k =>
    let l := { l with tokens := l.tokens.insertIdxIfInBounds k.place .key }
    let l := l.openBlock k.start.column k.place .openBlockMapping
    some (((l.setPending none).allowKey false).pushMark 1 .value)
  | none =>
    if !l.inFlow && !l.keyAllowed then none
    else
      let l := l.openBlockHere .openBlockMapping
      some ((l.allowKey (!l.inFlow)).pushMark 1 .value)

/-! ## Names -/

/-- A character of a name. -/
def isNameChar (c : Char) : Bool :=
  c.isAlphanum || c = '_' || c = '-'

/-- Reads the name of an anchor or an alias. -/
def named (l : Lexer) (t : List Char → Token) : Option Lexer := do
  let l := (← l.noteKey).allowKey false
  let (name, c) := (l.cursor.skip 1).takeWhile isNameChar
  let ends := atWordEnd c.rest
    || c.rest.head?.any ['?', ':', ',', ']', '}', '%', '@', '\x60'].contains
  if name.isEmpty || !ends then none
  return { l.push (t name) with cursor := c }

/-- A character of a tag, apart from escapes. -/
def isTagChar (c : Char) : Bool :=
  isNameChar c || [';', '/', '?', ':', '@', '&', '=', '+', '$', '.', '!', '~', '*', '\x27',
    '(', ')'].contains c

/-- The number of bytes of the character that starts with a byte. -/
def utf8Width? (byte : Nat) : Option Nat :=
  if byte < 0x80 then some 1
  else if 0xC0 ≤ byte ∧ byte < 0xE0 then some 2
  else if 0xE0 ≤ byte ∧ byte < 0xF0 then some 3
  else if 0xF0 ≤ byte ∧ byte < 0xF8 then some 4
  else none

/-- Reads the characters of a tag; an escape gives the bytes of one
character. -/
def readTag (more : List Char) : (fuel : Nat) → (bytes : Nat) → List Char → Option (List Char)
  | 0, _, _ => none
  | fuel + 1, bytes, '%' :: a :: b :: cs => do
    let byte ← Text.hexNumber? [a, b]
    match bytes with
    | 0 => readTag more fuel ((← utf8Width? byte) - 1) cs
    | bytes + 1 => if 0x80 ≤ byte ∧ byte < 0xC0 then readTag more fuel bytes cs else none
  | fuel + 1, bytes, c :: cs =>
    if bytes ≠ 0 || c = '%' then none
    else if isTagChar c || more.contains c then readTag more fuel 0 cs
    else some (c :: cs)
  | _ + 1, bytes, [] => if bytes = 0 then some [] else none

/-- Reads some characters of a tag, at least one unless it may be empty. -/
def tagText (more : List Char) (mayBeEmpty : Bool) (cs : List Char) : Option (List Char) := do
  let rest ← readTag more (cs.length + 1) 0 cs
  if rest.length = cs.length && !mayBeEmpty then none else return rest

/-- The characters that a tag may have between angle brackets or in a
directive. -/
def looseTagChars : List Char := [',', '[', ']']

/-- A handle of tags: an exclamation mark, and a name and another one perhaps;
and whether the second one is there. -/
def readHandle : List Char → Option (List Char × Bool × List Char)
  | '!' :: cs =>
    let name := cs.takeWhile isNameChar
    match cs.dropWhile isNameChar with
    | '!' :: rest => some ('!' :: name ++ ['!'], true, rest)
    | rest => some ('!' :: name, false, rest)
  | _ => none

/-- Reads a tag. -/
def tag (l : Lexer) : Option Lexer := do
  let l := (← l.noteKey).allowKey false
  let (handle, rest) : Option (List Char) × List Char ← match l.cursor.rest with
    | '!' :: '<' :: cs =>
      match ← tagText looseTagChars false cs with
      | '>' :: rest => pure (none, rest)
      | _ => none
    | cs => do
      let (handle, closed, rest) ← readHandle cs
      if closed then pure (some handle, ← tagText [] false rest)
      else
        let rest ← tagText [] true rest
        pure (if cs.length = rest.length + 1 then none else some ['!'], rest)
  if !atWordEnd rest && !(l.inFlow && rest.head? = some ',') then none
  return { l.push (.tag handle) with cursor := l.cursor.skipTo rest }

/-! ## Directives -/

/-- The number of a version. -/
def versionNumber (cs : List Char) : Option (List Char × List Char) :=
  let digits := cs.takeWhile Char.isDigit
  if digits.isEmpty || 9 < digits.length then none
  else some (digits, cs.drop digits.length)

/-- What a directive says, and the rest of the line. -/
def directive (name cs : List Char) : Option (Token × List Char) :=
  let cs := cs.dropWhile isSpaceOrTab
  if name = "YAML".toList then do
    let (major, rest) ← versionNumber cs
    match rest with
    | '.' :: rest =>
      let (minor, rest) ← versionNumber rest
      return (.version major minor, rest)
    | _ => none
  else if name = "TAG".toList then do
    let (handle, closed, rest) ← readHandle cs
    if !closed && handle ≠ ['!'] then none
    if !rest.head?.any isSpaceOrTab then none
    let rest ← tagText looseTagChars false (rest.dropWhile isSpaceOrTab)
    if !atWordEnd rest then none
    return (.handle handle, rest)
  else none

/-- Reads a directive. -/
def directiveLine (l : Lexer) : Option Lexer := do
  let l := (← l.closeAll).allowKey false
  let (name, c) := (l.cursor.skip 1).takeWhile isNameChar
  if !atWordEnd c.rest then none
  let (t, rest) ← directive name c.rest
  let c := (c.skipTo rest).skipWhile isSpaceOrTab
  let c := if c.rest.head? = some '#' then c.skipLine else c
  if !atLineEnd c.rest then none
  return { l.push t with cursor := c.readBreak.2 }

/-! ## Scalars -/

/-- Goes on after a scalar. -/
def pushScalar (l : Lexer) (plain : Bool) (s : Scanned) : Lexer :=
  { l.push (.scalar plain s.text) with
    cursor := s.next
    keyAllowed := s.onNewLine }

/-- Reads a quoted scalar. -/
def quoted (l : Lexer) (quote : Char) : Option Lexer := do
  let l ← l.noteKey
  let s ← readQuoted quote (l.cursor.rest.length + 1) [] (l.cursor.skip 1)
  return l.pushScalar false s

/-- Reads a plain scalar. -/
def plain (l : Lexer) : Option Lexer := do
  let l ← l.noteKey
  let s ← readPlain l.inFlow (l.indent + 1).toNat (l.cursor.rest.length + 1) [] {} l.cursor
  return l.pushScalar true s

/-- Reads a block of lines. -/
def block (l : Lexer) (folded : Bool) : Option Lexer := do
  let l ← l.dropKey
  let s ← readBlock folded l.indent (l.cursor.skip 1)
  return l.pushScalar false s

/-! ## Tokens -/

/-- The characters that no plain scalar starts with. -/
def isIndicator (c : Char) : Bool :=
  ['-', '?', ':', ',', '[', ']', '{', '}', '#', '&', '*', '!', '|', '>', '\x27', '"', '%', '@',
    '\x60'].contains c

/-- Whether a plain scalar starts here. -/
def startsPlain (l : Lexer) (c : Char) (cs : List Char) : Bool :=
  !(isSpaceOrTab c || isIndicator c)
    || (c = '-' && !cs.head?.any isSpaceOrTab)
    || (!l.inFlow && (c = '?' || c = ':') && !atWordEnd cs)

/-- Reads the token that starts with a character. -/
def token (l : Lexer) (c : Char) (cs : List Char) : Option Lexer :=
  if c = '%' && l.cursor.column = 0 then l.directiveLine
  else if l.cursor.atMark ['-', '-', '-'] then l.documentMark .documentStart
  else if l.cursor.atMark ['.', '.', '.'] then l.documentMark .documentEnd
  else if c = '[' then l.openFlow .openFlowSequence
  else if c = '{' then l.openFlow .openFlowMapping
  else if c = ']' then l.closeFlow .closeFlowSequence
  else if c = '}' then l.closeFlow .closeFlowMapping
  else if c = ',' then l.flowEntry
  else if c = '-' && atWordEnd cs then l.blockEntry
  else if c = '?' && (l.inFlow || atWordEnd cs) then l.explicitKey
  else if c = ':' && (l.inFlow || atWordEnd cs) then l.value
  else if c = '*' then l.named .reference
  else if c = '&' then l.named .anchor
  else if c = '!' then l.tag
  else if c = '|' && !l.inFlow then l.block false
  else if c = '>' && !l.inFlow then l.block true
  else if c = '\x27' || c = '"' then l.quoted c
  else if l.startsPlain c cs then l.plain
  else none

/-- Reads the remaining tokens.  Every token is written with at least one
character. -/
def run : (fuel : Nat) → Lexer → Option (Array Token)
  | 0, _ => none
  | fuel + 1, l => do
    let l ← (toNextToken (l.cursor.rest.length + 1) l).dropStaleKeys
    let l := l.closeBlocks l.cursor.column
    match l.cursor.rest with
    | [] => return (← l.closeAll).tokens
    | c :: cs => run fuel (← l.token c cs)

end Lexer

/-- A character that may stand in a YAML text. -/
def isAdmitted (c : Char) : Bool :=
  let n := c.toNat
  n = 0x09 || n = 0x0A || n = 0x0D || (0x20 ≤ n && n ≤ 0x7E) || n = 0x85
    || (0xA0 ≤ n && n ≤ 0xFFFD) || 0x10000 ≤ n

/-- The tokens of a text, if it can be taken apart. -/
def tokens? (cs : List Char) : Option (List Token) :=
  if cs.all isAdmitted then
    ((Lexer.mk { rest := cs } #[] [] [] none true).run (cs.length + 1)).map Array.toList
  else none

end ServiceStubs.Yaml
