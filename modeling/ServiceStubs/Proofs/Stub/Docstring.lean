import ServiceStubs.Proofs.Text.Lines
import ServiceStubs.Proofs.Text.Replace
import ServiceStubs.Stub.Docstring

/-!
# Docstrings are closed by their last quotes

Between triple quotes a backslash takes the next character with it, and the first three
quotes in a row of which none is taken close the string.  Text that is escaped for a
docstring has at most two such quotes in a row, so it closes no string, and it reads as
the text that it was made from.

Indenting and trimming the lines may come before or after the escaping: a blank is never
escaped, and the last character of a text stays its last one.

## Main definitions

* `untilClosed?`, `unescaped?` — how a string between triple quotes is read.
* `escapeDoc_induction` — texts by what is escaped in them.
* `untilClosed?_escapeDoc`, `unescaped?_escapeDoc` — escaped text closes no string and is
  read as it was.
* `docBody` — the text that a docstring is read as.
* `docLines_closed` — a docstring ends with its last line and is read as its text.
-/

namespace ServiceStubs.Stub

open Text

variable {cs : List Char} {c : Char}

/-! ## Reading a string between triple quotes -/

/-- The text up to the three quotes that close a string between triple quotes, and what
follows them.  A backslash takes the next character with it. -/
def untilClosed? : List Char → Option (List Char × List Char)
  | [] => none
  | '"' :: '"' :: '"' :: rest => some ([], rest)
  | '\\' :: c :: cs => (untilClosed? cs).map fun (body, rest) => ('\\' :: c :: body, rest)
  | c :: cs => (untilClosed? cs).map fun (body, rest) => (c :: body, rest)

/-- The text that is read, if a backslash stands only in front of another one or of a
quote. -/
def unescaped? : List Char → Option (List Char)
  | [] => some []
  | '\\' :: '\\' :: cs => (unescaped? cs).map ('\\' :: ·)
  | '\\' :: '"' :: cs => (unescaped? cs).map ('"' :: ·)
  | '\\' :: _ => none
  | c :: cs => (unescaped? cs).map (c :: ·)

/-! ## Escaped text -/

/-- What is escaped, and how. -/
def escapes : List (List Char × List Char) :=
  [(['\\'], ['\\', '\\']), (tripleQuote, ['\\', '"', '\\', '"', '\\', '"'])]

/-- Escaped backslashes neither make nor break triple quotes. -/
theorem escapes_spared : escapes.Pairwise fun e e' => Spares e.1 e.2 e'.1 := by
  decide

/-- **Text is escaped in one pass.** -/
theorem escapeDoc_eq (cs : List Char) : escapeDoc cs = replaceAny escapes cs :=
  foldl_replace escapes_spared cs

@[simp] theorem escapeDoc_nil : escapeDoc [] = [] :=
  rfl

theorem escapeDoc_backslash (cs : List Char) :
    escapeDoc ('\\' :: cs) = '\\' :: '\\' :: escapeDoc cs := by
  rw [escapeDoc_eq, escapeDoc_eq, replaceAny_cons_of_some (e := (['\\'], ['\\', '\\'])) rfl]
  rfl

theorem escapeDoc_quotes (cs : List Char) :
    escapeDoc ('"' :: '"' :: '"' :: cs) =
      '\\' :: '"' :: '\\' :: '"' :: '\\' :: '"' :: escapeDoc cs := by
  rw [escapeDoc_eq, escapeDoc_eq, replaceAny_cons_of_some
    (e := (tripleQuote, ['\\', '"', '\\', '"', '\\', '"'])) rfl]
  rfl

theorem escapeDoc_char (hc : c ≠ '\\') (hquotes : ¬ tripleQuote <+: c :: cs) :
    escapeDoc (c :: cs) = c :: escapeDoc cs := by
  rw [escapeDoc_eq, escapeDoc_eq, replaceAny_cons_of_not_isPrefix]
  simp [escapes, hquotes, hc.symm]

/-- A text starts with what is escaped or with a character that stays. -/
theorem escapeDoc_induction {P : List Char → Prop} (nil : P [])
    (backslash : ∀ cs, P cs → P ('\\' :: cs)) (quotes : ∀ cs, P cs → P ('"' :: '"' :: '"' :: cs))
    (char : ∀ c cs, c ≠ '\\' → ¬ tripleQuote <+: c :: cs → P cs → P (c :: cs))
    (cs : List Char) : P cs := by
  induction hlength : cs.length using Nat.strongRecOn generalizing cs with
  | _ n ih =>
  subst hlength
  cases cs with
  | nil => exact nil
  | cons c cs =>
      by_cases hc : c = '\\'
      · exact hc ▸ backslash cs (ih _ (by simp) cs rfl)
      · by_cases hquotes : tripleQuote <+: c :: cs
        · obtain ⟨rest, hrest⟩ := hquotes
          rw [← hrest]
          exact quotes rest (ih _ (by simp [← hrest, tripleQuote]; omega) rest rfl)
        · exact char c cs hc hquotes (ih _ (by simp) cs rfl)

/-- **Escaped text is read as it was.** -/
theorem unescaped?_escapeDoc (cs : List Char) : unescaped? (escapeDoc cs) = some cs := by
  induction cs using escapeDoc_induction with
  | nil => rfl
  | backslash cs ih => simp [escapeDoc_backslash, unescaped?, ih]
  | quotes cs ih => simp [escapeDoc_quotes, unescaped?, ih]
  | char c cs hc hquotes ih =>
      rw [escapeDoc_char hc hquotes, unescaped?, ih, Option.map_some]
      all_goals simp_all

/-- A character that is not escaped divides the work. -/
theorem escapeDoc_append (hc : c ≠ '\\') (hquote : c ≠ '"') (x y : List Char) :
    escapeDoc (x ++ c :: y) = escapeDoc x ++ c :: escapeDoc y := by
  rw [escapeDoc_eq, escapeDoc_eq, escapeDoc_eq]
  exact replaceAny_append_cons (by simp [escapes, tripleQuote])
    (by simp [escapes, tripleQuote, hc, hquote]) x y

theorem escapeDoc_cons (hc : c ≠ '\\') (hquote : c ≠ '"') (cs : List Char) :
    escapeDoc (c :: cs) = c :: escapeDoc cs :=
  escapeDoc_append hc hquote [] cs

/-- Escaping brings no character but backslashes. -/
theorem mem_of_mem_escapeDoc (hc : c ≠ '\\') (h : c ∈ escapeDoc cs) : c ∈ cs := by
  induction cs using escapeDoc_induction with
  | nil => exact h
  | backslash cs ih => simp_all [escapeDoc_backslash]
  | quotes cs ih =>
      simp only [escapeDoc_quotes, List.mem_cons, hc, false_or] at h ⊢
      exact h.imp_right (.imp_right (.imp_right ih))
  | char d cs hd hquotes ih =>
      rw [escapeDoc_char hd hquotes, List.mem_cons] at h
      exact List.mem_cons.mpr (h.imp_right ih)

/-- The last character stays the last one. -/
theorem getLast?_escapeDoc (cs : List Char) : (escapeDoc cs).getLast? = cs.getLast? := by
  induction cs using escapeDoc_induction with
  | nil => rfl
  | backslash cs ih => simp [escapeDoc_backslash, List.getLast?_cons, ih]
  | quotes cs ih => simp [escapeDoc_quotes, List.getLast?_cons, ih]
  | char c cs hc hquotes ih => simp [escapeDoc_char hc hquotes, List.getLast?_cons, ih]

/-! ## Escaped text closes no string -/

theorem untilClosed?_char (hc : c ≠ '\\') (hquotes : ¬ tripleQuote <+: c :: cs) :
    untilClosed? (c :: cs) = (untilClosed? cs).map fun (body, rest) => (c :: body, rest) := by
  rw [untilClosed?]
  · rintro rest rfl rfl
    exact hquotes (List.prefix_append tripleQuote rest)
  · exact fun d cs h => absurd h hc

/-- A text that starts with another character than a quote does so when it is escaped. -/
theorem exists_escapeDoc_eq_cons (hne : cs ≠ []) (h : cs.head? ≠ some '"') :
    ∃ d es, escapeDoc cs = d :: es ∧ d ≠ '"' := by
  obtain ⟨c, cs, rfl⟩ := List.exists_cons_of_ne_nil hne
  by_cases hc : c = '\\'
  · exact ⟨'\\', _, by rw [hc, escapeDoc_backslash], by decide⟩
  · have hquote : c ≠ '"' := by simpa using h
    exact ⟨c, _, escapeDoc_cons hc hquote cs, hquote⟩

theorem not_quote_prefix_escapeDoc (hne : cs ≠ []) (h : cs.head? ≠ some '"')
    (quotes rest : List Char) : ¬ '"' :: quotes <+: escapeDoc cs ++ rest := by
  obtain ⟨d, es, hes, hd⟩ := exists_escapeDoc_eq_cons hne h
  rw [hes, List.cons_append, List.cons_prefix_cons]
  exact fun hprefix => hd hprefix.1.symm

/-- Where a text has no triple quotes, there are none when it is escaped, whatever
follows, if the text does not end with a quote. -/
theorem not_prefix_escapeDoc (hquotes : ¬ tripleQuote <+: c :: cs)
    (hlast : (c :: cs).getLast? ≠ some '"') (rest : List Char) :
    ¬ tripleQuote <+: c :: (escapeDoc cs ++ rest) := by
  intro h
  obtain ⟨hquote, hprefix⟩ := List.cons_prefix_cons.mp h
  subst hquote
  have hne : cs ≠ [] := by
    rintro rfl
    simp at hlast
  by_cases hhead : cs.head? = some '"'
  · -- A second quote: what follows it is there, and no quote.
    obtain ⟨cs, rfl⟩ := List.head?_eq_some_iff.mp hhead
    have hne' : cs ≠ [] := by
      rintro rfl
      simp at hlast
    have hhead' : cs.head? ≠ some '"' := by
      intro hhead'
      obtain ⟨cs, rfl⟩ := List.head?_eq_some_iff.mp hhead'
      exact hquotes (List.prefix_append tripleQuote cs)
    have hquotes' : ¬ tripleQuote <+: '"' :: cs := by
      rw [tripleQuote, List.cons_prefix_cons]
      rintro ⟨-, quotes, rfl⟩
      simp at hhead'
    rw [escapeDoc_char (by decide) hquotes', List.cons_append, List.cons_prefix_cons] at hprefix
    exact not_quote_prefix_escapeDoc hne' hhead' _ _ hprefix.2
  · exact not_quote_prefix_escapeDoc hne hhead _ _ hprefix

theorem getLast?_ne_of_cons (h : (c :: cs).getLast? ≠ some '"') : cs.getLast? ≠ some '"' :=
  fun hlast => h (by simp [List.getLast?_cons, hlast])

/-- **Escaped text closes no string**, unless it ends with a quote. -/
theorem untilClosed?_escapeDoc (hlast : cs.getLast? ≠ some '"') (rest : List Char) :
    untilClosed? (escapeDoc cs ++ (tripleQuote ++ rest)) = some (escapeDoc cs, rest) := by
  induction cs using escapeDoc_induction with
  | nil => rfl
  | backslash cs ih => simp [escapeDoc_backslash, untilClosed?, ih (getLast?_ne_of_cons hlast)]
  | quotes cs ih =>
      have hcs := getLast?_ne_of_cons (getLast?_ne_of_cons (getLast?_ne_of_cons hlast))
      simp [escapeDoc_quotes, untilClosed?, ih hcs]
  | char c cs hc hquotes ih =>
      rw [escapeDoc_char hc hquotes, List.cons_append,
        untilClosed?_char hc (not_prefix_escapeDoc hquotes hlast _),
        ih (getLast?_ne_of_cons hlast), Option.map_some]

/-! ## Escaping line by line -/

theorem chomp_escapeDoc (l : List Char) : chomp (escapeDoc l) = escapeDoc (chomp l) := by
  by_cases h : l.getLast? = some '\r'
  · obtain ⟨l, rfl⟩ := List.getLast?_eq_some_iff.mp h
    rw [escapeDoc_append (by decide) (by decide), escapeDoc_nil, chomp_return, chomp_return]
  · rw [chomp_of_getLast?_ne h, chomp_of_getLast?_ne (by rwa [getLast?_escapeDoc])]

theorem lines_escapeDoc (cs : List Char) : lines (escapeDoc cs) = (lines cs).map escapeDoc := by
  have hnewline {l : List Char} (hl : '\n' ∉ l) : '\n' ∉ escapeDoc l :=
    mt (mem_of_mem_escapeDoc (by decide)) hl
  induction cs using lines_induction with
  | nil => rfl
  | last l hl hne =>
      have hne' : escapeDoc l ≠ [] := by
        rwa [ne_eq, ← List.getLast?_eq_none_iff, getLast?_escapeDoc, List.getLast?_eq_none_iff]
      rw [lines_of_notMem hl hne, lines_of_notMem (hnewline hl) hne', List.map_singleton]
  | line l cs hl ih =>
      rw [escapeDoc_append (by decide) (by decide), lines_append (hnewline hl), lines_append hl,
        ih, List.map_cons, chomp_escapeDoc]

theorem ne_of_isBlank (hc : isBlank c) {d : Char} (hd : isBlank d = false) : c ≠ d := by
  rintro rfl
  simp [hc] at hd

theorem trimEnd_escapeDoc (l : List Char) : trimEnd (escapeDoc l) = escapeDoc (trimEnd l) := by
  induction l using List.reverseRecOn with
  | nil => rfl
  | append_singleton l c ih =>
      cases hc : isBlank c with
      | true =>
          rw [escapeDoc_append (ne_of_isBlank hc rfl) (ne_of_isBlank hc rfl), escapeDoc_nil,
            trimEnd_append_of_blank hc, trimEnd_append_of_blank hc, ih]
      | false =>
          have hlast : (escapeDoc (l ++ [c])).getLast? = some c := by
            rw [getLast?_escapeDoc, List.getLast?_concat]
          obtain ⟨l', hl'⟩ := List.getLast?_eq_some_iff.mp hlast
          rw [trimEnd_append_of_not_blank hc, hl', trimEnd_append_of_not_blank hc]

theorem isBlankText_escapeDoc (l : List Char) : isBlankText (escapeDoc l) = isBlankText l := by
  induction l using escapeDoc_induction with
  | nil => rfl
  | backslash cs ih => simp [escapeDoc_backslash, isBlankText, isBlank]
  | quotes cs ih => simp [escapeDoc_quotes, isBlankText, isBlank]
  | char c cs hc hquotes ih =>
      simp only [isBlankText] at ih
      simp [escapeDoc_char hc hquotes, isBlankText, ih]

theorem escapeDoc_padding (width : Nat) (cs : List Char) :
    escapeDoc (padding width ++ cs) = padding width ++ escapeDoc cs := by
  induction width with
  | zero => rfl
  | succ width ih =>
      rw [padding, List.replicate_succ, List.cons_append, escapeDoc_cons (by decide) (by decide)]
      exact congrArg (' ' :: ·) ih

/-- A line of a docstring as it is read: of a blank line nothing is left, and any other
is moved to the right, without the blanks at its end. -/
def docLine (width : Nat) (line : List Char) : List Char :=
  if isBlankText line then [] else padding width ++ trimEnd line

theorem indentLine_trimEnd_escapeDoc (width : Nat) (line : List Char) :
    indentLine width (trimEnd (escapeDoc line)) = escapeDoc (docLine width line) := by
  rw [indentLine, isBlankText_trimEnd, isBlankText_escapeDoc, docLine]
  split
  · rfl
  · rw [escapeDoc_padding, trimEnd_escapeDoc]

theorem intercalate_map_escapeDoc (ls : List (List Char)) :
    ['\n'].intercalate (ls.map escapeDoc) = escapeDoc (['\n'].intercalate ls) := by
  induction ls with
  | nil => rfl
  | cons l ls ih =>
      cases ls with
      | nil => simp
      | cons l' ls =>
          rw [List.map_cons] at ih
          rw [List.map_cons, List.map_cons, List.intercalate_cons_cons, ih,
            List.intercalate_cons_cons, List.append_assoc, List.append_assoc, List.singleton_append,
            List.singleton_append, escapeDoc_append (by decide) (by decide)]

/-! ## The text of a docstring -/

/-- The text that a docstring is read as: the lines of the trimmed text stand between an
empty line, which the opening quotes leave, and the blanks before the closing ones. -/
def docBody (width : Nat) (cs : List Char) : List Char :=
  ['\n'].intercalate ([[]] ++ (lines (trim cs)).map (docLine width) ++ [padding width])

theorem intercalate_concat {sep l : List Char} {ls : List (List Char)} (hne : ls ≠ []) :
    sep.intercalate (ls ++ [l]) = sep.intercalate ls ++ sep ++ l := by
  induction ls with
  | nil => exact absurd rfl hne
  | cons l' ls ih =>
      cases ls with
      | nil => simp
      | cons l'' ls =>
          have ih := ih (by simp)
          rw [List.cons_append] at ih
          simp [List.intercalate_cons_cons, ih]

theorem intercalate_append_cons (sep a l : List Char) (ls : List (List Char)) :
    sep.intercalate ((a ++ l) :: ls) = a ++ sep.intercalate (l :: ls) := by
  cases ls <;> simp [List.intercalate_cons_cons]

theorem docBody_eq (width : Nat) (cs : List Char) :
    docBody width cs = ['\n'].intercalate ([[]] ++ (lines (trim cs)).map (docLine width)) ++
      '\n' :: padding width := by
  rw [docBody, intercalate_concat (by simp)]
  simp

/-- The quotes stand around the escaped text. -/
theorem intercalate_quotedLines (width : Nat) (cs : List Char) :
    ['\n'].intercalate (quotedLines width cs) =
      padding width ++ tripleQuote ++ escapeDoc (docBody width cs) ++ tripleQuote := by
  have hlines : (lines (escapeDoc (trim cs))).map (fun line => indentLine width (trimEnd line)) =
      ((lines (trim cs)).map (docLine width)).map escapeDoc := by
    rw [lines_escapeDoc, List.map_map, List.map_map]
    exact List.map_congr_left fun line _ => indentLine_trimEnd_escapeDoc width line
  have hpadding : escapeDoc (padding width) = padding width := by
    simpa using escapeDoc_padding width []
  rw [docBody, ← intercalate_map_escapeDoc, List.map_append, List.map_append, quotedLines, hlines]
  generalize ((lines (trim cs)).map (docLine width)).map escapeDoc = ls
  have hopened : ['\n'].intercalate ((padding width ++ tripleQuote) :: ls) =
      padding width ++ tripleQuote ++ ['\n'].intercalate ([] :: ls) := by
    simpa using intercalate_append_cons ['\n'] (padding width ++ tripleQuote) [] ls
  rw [intercalate_concat (by simp), List.map_singleton, List.map_singleton, hpadding,
    intercalate_concat (by simp)]
  simp [hopened]

theorem getLast?_docBody_ne (width : Nat) (cs : List Char) :
    (docBody width cs).getLast? ≠ some '"' := by
  rw [docBody_eq]
  cases width <;> simp [padding, List.getLast?_cons, List.getLast?_replicate]

/-- **A docstring is closed by its last quotes, whatever follows, and it is read as its
text.** -/
theorem docLines_closed (width : Nat) (text : String) (h : isBlankText text.toList = false) :
    ∃ body,
      ("\n".intercalate (docLines width text)).toList =
        padding width ++ tripleQuote ++ body ++ tripleQuote ∧
      (∀ rest, untilClosed? (body ++ tripleQuote ++ rest) = some (body, rest)) ∧
      unescaped? body = some (docBody width text.toList) := by
  refine ⟨escapeDoc (docBody width text.toList), ?_, fun rest => ?_, unescaped?_escapeDoc _⟩
  · have hne : text ≠ "" := by
      rintro rfl
      simp [isBlankText] at h
    rw [docLines, if_neg hne, if_neg (by simp [h]), String.toList_intercalate, List.map_map,
      ← intercalate_quotedLines]
    simp
  · rw [List.append_assoc, untilClosed?_escapeDoc (getLast?_docBody_ne _ _)]

/-- Four quotes in a row, a backslash before the blanks at the end of a line, an empty
line, and a quote at the end. -/
def quotingText : String :=
  "\"\"\"\"Out\\  \n\nof \"it\""

/-- The fourth quote and those around the last word stand as they are. -/
theorem docLines_closed_quotingText :
    isBlankText quotingText.toList = false ∧
      docLines 4 quotingText =
        ["    \"\"\"", "    \\\"\\\"\\\"\"Out\\\\", "", "    of \"it\"", "    \"\"\""] ∧
      ∃ body,
        ("\n".intercalate (docLines 4 quotingText)).toList =
          padding 4 ++ tripleQuote ++ body ++ tripleQuote ∧
        (∀ rest, untilClosed? (body ++ tripleQuote ++ rest) = some (body, rest)) ∧
        unescaped? body = some "\n    \"\"\"\"Out\\\n\n    of \"it\"\n    ".toList := by
  have hblank : isBlankText quotingText.toList = false := by decide +kernel
  have hbody : docBody 4 quotingText.toList =
      "\n    \"\"\"\"Out\\\n\n    of \"it\"\n    ".toList := by decide +kernel
  exact ⟨hblank, by decide +kernel, hbody ▸ docLines_closed 4 quotingText hblank⟩

end ServiceStubs.Stub
