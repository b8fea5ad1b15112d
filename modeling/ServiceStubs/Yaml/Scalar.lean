import ServiceStubs.Text.Hex
import ServiceStubs.Yaml.Cursor

/-!
# YAML scalars

Scalars are written plainly, between quotes, or as a block of lines.  In the
first two, lines are folded: a single line break counts as a space, and of
several the first one does not count.

Every loop goes on by at least one character, so the length of the text bounds
it.

## Main definitions

* `Gap` — what stands between two words of a scalar, and `Gap.text`, what it
  counts as.
* `readPlain`, `readQuoted`, `readBlock` — the three kinds of scalars.
-/

namespace ServiceStubs.Yaml

/-! ## Gaps between words -/

/-- What stands between two words: blanks on one line, or line breaks. -/
structure Gap where
  blanks : List Char := []
  breaks : List (List Char) := []
  /-- Whether the first line break is escaped, and so counts for nothing. -/
  escaped : Bool := false

namespace Gap

/-- Whether the next word is on another line. -/
def isOnNewLine (g : Gap) : Bool :=
  g.escaped || !g.breaks.isEmpty

/-- What a gap counts as. -/
def text (g : Gap) : List Char :=
  if g.escaped then g.breaks.flatten
  else match g.breaks with
    | [] => g.blanks
    | [['\n']] => [' ']
    | ['\n'] :: more => more.flatten
    | breaks => breaks.flatten

end Gap

/-- Reads a gap.  On a new line no tab may stand left of `column`. -/
def readGap (column : Nat) : (fuel : Nat) → Gap → Cursor → Option (Gap × Cursor)
  | 0, _, _ => none
  | fuel + 1, g, c =>
    match c.rest with
    | [] => some (g, c)
    | b :: _ =>
      if isSpaceOrTab b then
        if g.isOnNewLine then
          if b = '\t' && c.column < column then none else readGap column fuel g (c.skip 1)
        else readGap column fuel { g with blanks := g.blanks ++ [b] } (c.skip 1)
      else if isBreak b then
        let (line, c) := c.readBreak
        readGap column fuel { g with breaks := g.breaks ++ [line] } c
      else some (g, c)

/-! ## Plain scalars -/

/-- The characters that structure collections between brackets. -/
def isFlowMark (c : Char) : Bool :=
  [',', '[', ']', '{', '}'].contains c

/-- A word of a plain scalar. -/
def plainWord (inFlow : Bool) : List Char → Option (List Char × List Char)
  | [] => some ([], [])
  | c :: cs =>
    if atWordEnd (c :: cs) then some ([], c :: cs)
    else if inFlow && c = ':' && cs.head?.any (fun d => isFlowMark d || d = '?') then none
    else if (c = ':' && atWordEnd cs) || (inFlow && isFlowMark c) then some ([], c :: cs)
    else do
      let (word, rest) ← plainWord inFlow cs
      return (c :: word, rest)

/-- A scalar that has been read: its text, whether what follows is on a new
line, and where that is. -/
structure Scanned where
  text : List Char
  onNewLine : Bool := false
  next : Cursor

/-- Reads a plain scalar, of which further lines must not start left of
`column`. -/
def readPlain (inFlow : Bool) (column : Nat) :
    (fuel : Nat) → List Char → Gap → Cursor → Option Scanned
  | 0, _, _, _ => none
  | fuel + 1, text, gap, c =>
    let done : Scanned := { text, onNewLine := gap.isOnNewLine, next := c }
    if c.atDocumentMark || c.rest.head? = some '#' then some done
    else do
      let (word, rest) ← plainWord inFlow c.rest
      if word.isEmpty then return done
      let text := text ++ gap.text ++ word
      let c := c.skipTo rest
      if c.rest.isEmpty || !atWordEnd c.rest then return { text, next := c }
      let (gap, c) ← readGap column (c.rest.length + 1) {} c
      if !inFlow && c.column < column then return { text, onNewLine := gap.isOnNewLine, next := c }
      readPlain inFlow column fuel text gap c

/-! ## Quoted scalars -/

/-- The character that a one-letter escape stands for. -/
def escaped? (c : Char) : Option Char :=
  [('0', '\x00'), ('a', '\x07'), ('b', '\x08'), ('t', '\t'), ('\t', '\t'), ('n', '\n'),
    ('v', '\x0b'), ('f', '\x0c'), ('r', '\r'), ('e', '\x1b'), (' ', ' '), ('"', '"'), ('/', '/'),
    ('\\', '\\'), ('N', '\u0085'), ('_', '\u00a0'), ('L', '\u2028'), ('P', '\u2029')].lookup c

/-- The character of a code point written in hexadecimal digits. -/
def codePoint? (digits : List Char) : Option Char := do
  let n ← Text.hexNumber? digits
  if n < 0xD800 ∨ (0xDFFF < n ∧ n ≤ 0x10FFFF) then return Char.ofNat n else none

/-- A part of a text between single quotes, up to a quote or the end of a
word. -/
def singleQuotedWord : List Char → Option (List Char × List Char)
  | '\x27' :: '\x27' :: cs => do
    let (word, rest) ← singleQuotedWord cs
    return ('\x27' :: word, rest)
  | c :: cs =>
    if c = '\x27' || atWordEnd (c :: cs) then some ([], c :: cs)
    else do
      let (word, rest) ← singleQuotedWord cs
      return (c :: word, rest)
  | [] => some ([], [])

/-- A part of a text between double quotes, up to a quote, the end of a word or
an escaped line break. -/
def doubleQuotedWord : List Char → Option (List Char × List Char)
  | '\\' :: 'x' :: a :: b :: cs => do
    let c ← codePoint? [a, b]
    let (word, rest) ← doubleQuotedWord cs
    return (c :: word, rest)
  | '\\' :: 'u' :: a :: b :: c :: d :: cs => do
    let c ← codePoint? [a, b, c, d]
    let (word, rest) ← doubleQuotedWord cs
    return (c :: word, rest)
  | '\\' :: 'U' :: a :: b :: c :: d :: e :: f :: g :: h :: cs => do
    let c ← codePoint? [a, b, c, d, e, f, g, h]
    let (word, rest) ← doubleQuotedWord cs
    return (c :: word, rest)
  | '\\' :: e :: cs =>
    if isBreak e then some ([], '\\' :: e :: cs)
    else do
      let c ← escaped? e
      let (word, rest) ← doubleQuotedWord cs
      return (c :: word, rest)
  | c :: cs =>
    if c = '"' || atWordEnd (c :: cs) then some ([], c :: cs)
    else if c = '\\' then none
    else do
      let (word, rest) ← doubleQuotedWord cs
      return (c :: word, rest)
  | [] => some ([], [])

/-- Reads a scalar after its opening quote. -/
def readQuoted (quote : Char) : (fuel : Nat) → List Char → Cursor → Option Scanned
  | 0, _, _ => none
  | fuel + 1, text, c => do
    if c.atDocumentMark || c.rest.isEmpty then none
    let (word, rest) ← if quote = '"' then doubleQuotedWord c.rest else singleQuotedWord c.rest
    let text := text ++ word
    let c := c.skipTo rest
    match c.rest with
    | [] => none
    | b :: _ =>
      if b = quote then return { text, next := c.skip 1 }
      let (start, c) : Gap × Cursor :=
        if b = '\\' then ({ escaped := true }, (c.skip 1).readBreak.2) else ({}, c)
      let (gap, c) ← readGap 0 (c.rest.length + 1) start c
      readQuoted quote fuel (text ++ gap.text) c

/-! ## Blocks -/

/-- What becomes of the line breaks at the end of a block. -/
inductive Chomping
  | strip
  | clip
  | keep
  deriving DecidableEq

/-- The chomping that a sign stands for. -/
def chomping? : Char → Option Chomping
  | '+' => some .keep
  | '-' => some .strip
  | _ => none

/-- The indentation that a digit stands for. -/
def indentation? (c : Char) : Option Nat :=
  if '1' ≤ c ∧ c ≤ '9' then some (c.toNat - '0'.toNat) else none

/-- The header of a block: how it ends and how far it is indented, in either
order. -/
def readBlockHeader : List Char → Chomping × Option Nat × List Char
  | a :: b :: cs =>
    match chomping? a, indentation? a, chomping? b, indentation? b with
    | some k, _, _, some n => (k, some n, cs)
    | some k, _, _, none => (k, none, b :: cs)
    | _, some n, some k, _ => (k, some n, cs)
    | _, some n, none, _ => (.clip, some n, b :: cs)
    | _, _, _, _ => (.clip, none, a :: b :: cs)
  | [a] => ((chomping? a).getD .clip, indentation? a,
      if (chomping? a).isSome || (indentation? a).isSome then [] else [a])
  | [] => (.clip, none, [])

/-- The empty lines before a line of a block, which leave out the indentation of
that line: the breaks, the widest line, and where the line starts.  The
indentation may not be known yet. -/
def readBlockBreaks (indent : Option Nat) :
    (fuel : Nat) → List (List Char) → (widest : Nat) → Cursor →
      Option (List (List Char) × Nat × Cursor)
  | 0, _, _, _ => none
  | fuel + 1, breaks, widest, c =>
    let inside (column : Nat) : Bool := indent.all (column < ·)
    let spaces := (c.rest.takeWhile (· = ' ')).length
    let c := c.skip (match indent with
      | some n => min spaces (n - c.column)
      | none => spaces)
    let widest := max widest c.column
    match c.rest with
    | [] => some (breaks, widest, c)
    | b :: _ =>
      if inside c.column && b = '\t' then none
      else if isBreak b then
        let (line, c) := c.readBreak
        readBlockBreaks indent fuel (breaks ++ [line]) widest c
      else some (breaks, widest, c)

/-- The lines of a block after the first one that is not empty. -/
def readBlockLines (folded : Bool) (indent : Nat) :
    (fuel : Nat) → (text lastBreak : List Char) → (breaks : List (List Char)) →
      (afterBlank : Bool) → Cursor → Option (List Char × List Char × List (List Char) × Cursor)
  | 0, _, _, _, _, _ => none
  | fuel + 1, text, lastBreak, breaks, afterBlank, c =>
    if c.column ≠ indent || c.rest.isEmpty then some (text, lastBreak, breaks, c)
    else do
      let blank := c.rest.head?.any isSpaceOrTab
      let joint :=
        if folded && lastBreak = ['\n'] && !afterBlank && !blank then
          if breaks.isEmpty then [' '] else []
        else lastBreak
      let (line, c) := c.takeWhile (!isBreak ·)
      let text := text ++ joint ++ breaks.flatten ++ line
      let (lastBreak, c) := c.readBreak
      let (breaks, _, c) ← readBlockBreaks (some indent) (c.rest.length + 1) [] 0 c
      readBlockLines folded indent fuel text lastBreak breaks blank c

/-- Reads a block after its mark, inside a block whose indentation is `outer`,
which is one less than zero at the top. -/
def readBlock (folded : Bool) (outer : Int) (c : Cursor) : Option Scanned := do
  let (chomping, given, rest) := readBlockHeader c.rest
  let c := (c.skipTo rest).skipWhile isSpaceOrTab
  let c := if c.rest.head? = some '#' then c.skipLine else c
  if !atLineEnd c.rest then none
  let c := c.readBreak.2
  let known := given.map fun n => outer.toNat + n
  let (breaks, widest, c) ← readBlockBreaks known (c.rest.length + 1) [] 0 c
  let indent := known.getD (max (max widest (outer + 1).toNat) 1)
  let (text, lastBreak, breaks, c) ←
    readBlockLines folded indent (c.rest.length + 1) [] [] breaks false c
  let ending := match chomping with
    | .strip => []
    | .clip => lastBreak
    | .keep => lastBreak ++ breaks.flatten
  return { text := text ++ ending, onNewLine := true, next := c }

end ServiceStubs.Yaml
