import ServiceStubs.Proofs.Json.Tokens

/-!
# Values are read back from their compact texts

A value is read from its compact text as it was, if its strings have texts and its
numbers can be written.  Reading a value stops where its text ends, whatever separates
it from the next one, and needs no more nested calls than the text has characters.

## Main definitions

* `Json.WellFormed` — the values that can be written.
* `Json.ReadsBack` — a value is read from its text.
* `Json.ofText?_compact` — the value of a compact text.
-/

namespace ServiceStubs.Json

/-- The value can be written: its strings have texts, and its numbers can be written. -/
inductive WellFormed : Json → Prop
  | null : WellFormed .null
  | bool {b} : WellFormed (.bool b)
  | number {n : Numeral} (h : n.WellFormed) : WellFormed (.number n)
  | string {s} : WellFormed (.string (some s))
  | list {items} (h : ∀ j ∈ items, WellFormed j) : WellFormed (.list items)
  | object {members : List (Option String × Json)} (hnames : ∀ m ∈ members, m.1.isSome)
      (h : ∀ m ∈ members, WellFormed m.2) : WellFormed (.object members)

/-- The value is read from its text, and what stands behind it is left. -/
def ReadsBack (j : Json) : Prop :=
  ∀ depth rest, (compactChars j).length ≤ depth → Follows rest →
    readValue depth (compactChars j ++ rest) = some (j, rest)

variable {j : Json} {js : List Json} {ms : List (Option String × Json)} {rest : List Char}
  {depth : Nat}

/-! ## Texts of values -/

theorem skipSpace_cons {c : Char} {cs : List Char} (hc : isSpace c = false) :
    skipSpace (c :: cs) = c :: cs :=
  List.dropWhile_cons_of_neg (by simp [hc])

/-- The text of a number starts with a digit or a sign. -/
theorem exists_text_eq {n : Numeral} (hn : n.WellFormed) :
    ∃ c cs, n.text = c :: cs ∧ (c = '-' ∨ c.isDigit) := by
  obtain ⟨c, cs, hwhole, hdigit⟩ := exists_whole_eq hn
  unfold Numeral.text
  cases n.negative with
  | true => exact ⟨'-', _, rfl, .inl rfl⟩
  | false =>
      rw [hwhole]
      exact ⟨c, _, rfl, .inr hdigit⟩

/-- What neither a digit nor a sign is. -/
theorem ne_of_numeral {c d : Char} (hc : c = '-' ∨ c.isDigit) (hd : d ≠ '-')
    (hdigit : d.isDigit = false) : c ≠ d := by
  rintro rfl
  rcases hc with hc | hc
  · exact hd hc
  · exact absurd hc (by simp [hdigit])

theorem isSpace_eq_false_of_numeral {c : Char} (hc : c = '-' ∨ c.isDigit) : isSpace c = false := by
  simp [isSpace, ne_of_numeral hc]

/-- The text of a value starts with a character of its own. -/
theorem exists_compactChars_eq (h : j.WellFormed) :
    ∃ c cs, compactChars j = c :: cs ∧ isSpace c = false ∧ c ≠ ']' := by
  cases h with
  | null => exact ⟨_, _, rfl, by decide⟩
  | @bool b => cases b <;> exact ⟨_, _, rfl, by decide⟩
  | @number n hn =>
      obtain ⟨c, cs, htext, hc⟩ := exists_text_eq hn
      exact ⟨c, cs, htext, isSpace_eq_false_of_numeral hc,
        ne_of_numeral hc (by decide) (by decide)⟩
  | string => exact ⟨_, _, rfl, by decide⟩
  | @list items _ => cases items <;> exact ⟨_, _, rfl, by decide⟩
  | @object members _ _ => cases members <;> exact ⟨_, _, rfl, by decide⟩

theorem length_compactChars_pos (h : j.WellFormed) : 0 < (compactChars j).length := by
  obtain ⟨c, cs, htext, -⟩ := exists_compactChars_eq h
  rw [htext]
  exact Nat.succ_pos _

/-- A value has some text, so there is a call for it. -/
theorem ReadsBack.of_succ (h : j.WellFormed)
    (hread : ∀ depth rest, (compactChars j).length ≤ depth + 1 → Follows rest →
      readValue (depth + 1) (compactChars j ++ rest) = some (j, rest)) : ReadsBack j := by
  intro depth rest hdepth hrest
  have hpos := length_compactChars_pos h
  cases depth with
  | zero => omega
  | succ depth => exact hread depth rest hdepth hrest

/-! ## The first character of a value -/

theorem readValue_quote (depth : Nat) (cs : List Char) :
    readValue (depth + 1) ('"' :: cs) = (readString cs).map fun (s, rest) => (.string s, rest) := by
  rw [readValue, skipSpace_cons (by decide)]
  dsimp only
  rw [if_pos rfl]
  cases readString cs <;> rfl

theorem readValue_numeral {c : Char} (hc : c = '-' ∨ c.isDigit) (depth : Nat) (cs : List Char) :
    readValue (depth + 1) (c :: cs) =
      (readNumeral (c :: cs)).map fun (n, rest) => (.number n, rest) := by
  have hquote : c ≠ '"' := ne_of_numeral hc (by decide) (by decide)
  have hbracket : c ≠ '[' := ne_of_numeral hc (by decide) (by decide)
  have hbrace : c ≠ '\x7b' := ne_of_numeral hc (by decide) (by decide)
  have hn : c ≠ 'n' := ne_of_numeral hc (by decide) (by decide)
  have ht : c ≠ 't' := ne_of_numeral hc (by decide) (by decide)
  have hf : c ≠ 'f' := ne_of_numeral hc (by decide) (by decide)
  rw [readValue, skipSpace_cons (isSpace_eq_false_of_numeral hc)]
  dsimp only
  rw [if_neg hquote, if_neg hbracket, if_neg hbrace, if_neg hn, if_neg ht, if_neg hf]
  cases readNumeral (c :: cs) <;> rfl

theorem readValue_items {c : Char} {cs : List Char} (hspace : isSpace c = false) (hc : c ≠ ']')
    (depth : Nat) :
    readValue (depth + 1) ('[' :: c :: cs) =
      (readItems depth (c :: cs)).map fun (js, rest) => (.list js, rest) := by
  rw [readValue, skipSpace_cons (by decide)]
  dsimp only
  rw [if_neg (by decide), if_pos rfl, skipSpace_cons hspace]
  split
  · next heq => exact absurd (List.cons.inj heq).1 hc
  · cases readItems depth (c :: cs) <;> rfl

theorem readValue_members (depth : Nat) (cs : List Char) :
    readValue (depth + 1) ('\x7b' :: '"' :: cs) =
      (readMembers depth ('"' :: cs)).map fun (ms, rest) => (.object ms, rest) := by
  rw [readValue, skipSpace_cons (by decide)]
  dsimp only
  rw [if_neg (by decide), if_neg (by decide), if_pos rfl, skipSpace_cons (by decide)]
  split
  · next heq => exact absurd (List.cons.inj heq).1 (by decide)
  · cases readMembers depth ('"' :: cs) <;> rfl

/-! ## Parts -/

theorem follows_compactItems (js : List Json) (rest : List Char) :
    Follows (compactItems js ++ rest) := by
  intro c hc
  cases js <;> obtain rfl := Option.some.inj hc <;> decide

theorem follows_compactMembers (ms : List (Option String × Json)) (rest : List Char) :
    Follows (compactMembers ms ++ rest) := by
  intro c hc
  cases ms with
  | nil =>
      obtain rfl := Option.some.inj hc
      decide
  | cons m ms =>
      obtain ⟨k, j⟩ := m
      obtain rfl := Option.some.inj hc
      decide

/-- The items of a list are read back if each of them is. -/
theorem readItems_compact (h : ∀ i ∈ j :: js, ReadsBack i)
    (hdepth : (compactChars j ++ compactItems js).length ≤ depth) (rest : List Char) :
    readItems depth (compactChars j ++ compactItems js ++ rest) = some (j :: js, rest) := by
  have hhead : ∀ depth, (compactChars j).length ≤ depth →
      readValue depth (compactChars j ++ (compactItems js ++ rest)) =
        some (j, compactItems js ++ rest) := fun depth hdepth =>
    h j List.mem_cons_self depth _ hdepth (follows_compactItems js rest)
  induction js generalizing j depth with
  | nil =>
      simp only [compactItems, List.length_append, List.length_singleton] at hdepth
      obtain ⟨depth, rfl⟩ : ∃ d, depth = d + 1 := ⟨depth - 1, by omega⟩
      rw [List.append_assoc, readItems, hhead depth (by omega)]
      rfl
  | cons j' js ih =>
      simp only [compactItems, List.length_append, List.length_cons] at hdepth
      obtain ⟨depth, rfl⟩ : ∃ d, depth = d + 1 := ⟨depth - 1, by omega⟩
      have htail : readItems depth (compactChars j' ++ compactItems js ++ rest) =
          some (j' :: js, rest) := by
        refine ih (fun i hi => h i (List.mem_cons_of_mem j hi)) ?_ ?_
        · rw [List.length_append]
          omega
        · exact fun depth hdepth => h j' (by simp) depth _ hdepth (follows_compactItems js rest)
      rw [List.append_assoc, readItems, hhead depth (by omega)]
      simp only [compactItems, List.cons_append, Option.bind_eq_bind, Option.bind_some,
        skipSpace_cons (show isSpace ',' = false by decide), htail]
      rfl

theorem quote_some (s : String) : quote (some s) = '"' :: (s.toList.flatMap quoteChar ++ ['"']) :=
  rfl

/-- A member that another one follows. -/
theorem readMembers_comma {k : String} {cs : List Char}
    (hvalue : readValue depth cs = some (j, ',' :: rest)) :
    readMembers (depth + 1) (quote (some k) ++ ':' :: cs) =
      (readMembers depth rest).map fun (ms, rest) => ((some k, j) :: ms, rest) := by
  have hcolon : skipSpace (':' :: cs) = ':' :: cs := skipSpace_cons (by decide)
  have hcomma : skipSpace (',' :: rest) = ',' :: rest := skipSpace_cons (by decide)
  rw [quote_some, List.cons_append, List.append_assoc, readMembers, skipSpace_cons (by decide)]
  simp only [List.singleton_append, readString_quote, Option.bind_eq_bind, Option.bind_some,
    hcolon, hvalue, hcomma]
  cases readMembers depth rest <;> rfl

/-- The last member. -/
theorem readMembers_brace {k : String} {cs : List Char}
    (hvalue : readValue depth cs = some (j, '\x7d' :: rest)) :
    readMembers (depth + 1) (quote (some k) ++ ':' :: cs) = some ([(some k, j)], rest) := by
  have hcolon : skipSpace (':' :: cs) = ':' :: cs := skipSpace_cons (by decide)
  have hbrace : skipSpace ('\x7d' :: rest) = '\x7d' :: rest := skipSpace_cons (by decide)
  rw [quote_some, List.cons_append, List.append_assoc, readMembers, skipSpace_cons (by decide)]
  simp only [List.singleton_append, readString_quote, Option.bind_eq_bind, Option.bind_some,
    hcolon, hvalue, hbrace]

/-- The members of an object are read back if each of their values is. -/
theorem readMembers_compact {k : String} (hnames : ∀ m ∈ ms, m.1.isSome) (hj : ReadsBack j)
    (h : ∀ m ∈ ms, ReadsBack m.2)
    (hdepth : (quote (some k) ++ ':' :: compactChars j ++ compactMembers ms).length ≤ depth)
    (rest : List Char) :
    readMembers depth (quote (some k) ++ ':' :: compactChars j ++ compactMembers ms ++ rest) =
      some ((some k, j) :: ms, rest) := by
  have hhead : ∀ depth, (compactChars j).length ≤ depth →
      readValue depth (compactChars j ++ (compactMembers ms ++ rest)) =
        some (j, compactMembers ms ++ rest) := fun depth hdepth =>
    hj depth _ hdepth (follows_compactMembers ms rest)
  induction ms generalizing j k depth with
  | nil =>
      simp only [List.length_append, List.length_cons] at hdepth
      obtain ⟨depth, rfl⟩ : ∃ d, depth = d + 1 := ⟨depth - 1, by omega⟩
      simp only [List.append_assoc, List.cons_append]
      exact readMembers_brace (hhead depth (by omega))
  | cons m ms ih =>
      obtain ⟨k', j'⟩ := m
      obtain ⟨k', rfl⟩ := Option.isSome_iff_exists.mp (hnames _ List.mem_cons_self)
      have hj' : ReadsBack j' := h _ List.mem_cons_self
      simp only [compactMembers, List.length_append, List.length_cons] at hdepth
      obtain ⟨depth, rfl⟩ : ∃ d, depth = d + 1 := ⟨depth - 1, by omega⟩
      have htail : readMembers depth
          (quote (some k') ++ ':' :: compactChars j' ++ compactMembers ms ++ rest) =
            some ((some k', j') :: ms, rest) := by
        refine ih (fun m hm => hnames m (List.mem_cons_of_mem _ hm)) hj'
          (fun m hm => h m (List.mem_cons_of_mem _ hm)) ?_ ?_
        · simp only [List.length_append, List.length_cons]
          omega
        · exact fun depth hdepth => hj' depth _ hdepth (follows_compactMembers ms rest)
      simp only [List.append_assoc, List.cons_append] at htail ⊢
      have hvalue := hhead depth (by omega)
      simp only [compactMembers, List.append_assoc, List.cons_append] at hvalue ⊢
      rw [readMembers_comma hvalue, htail, Option.map_some]

/-! ## Values -/

/-- **A value that can be written is read from its text.** -/
theorem WellFormed.readsBack (h : j.WellFormed) : ReadsBack j := by
  -- The bracket in front of a list or an object pays for the call that reads its parts.
  induction h with
  | null => exact .of_succ .null fun _ _ _ _ => rfl
  | @bool b =>
      refine .of_succ .bool fun _ _ _ _ => ?_
      cases b <;> rfl
  | @number n hn =>
      refine .of_succ (.number hn) fun depth rest _ hrest => ?_
      obtain ⟨c, cs, htext, hc⟩ := exists_text_eq hn
      have hread := readNumeral_text hn hrest
      rw [htext, List.cons_append] at hread
      rw [compactChars, htext, List.cons_append, readValue_numeral hc, hread]
      rfl
  | @string s =>
      refine .of_succ .string fun depth rest _ _ => ?_
      rw [compactChars, quote_some, List.cons_append, List.append_assoc, readValue_quote,
        List.singleton_append, readString_quote]
      rfl
  | @list items hitems ih =>
      refine .of_succ (.list hitems) fun depth rest hdepth _ => ?_
      cases items with
      | nil => rfl
      | cons j js =>
          obtain ⟨c, cs, htext, hspace, hc⟩ := exists_compactChars_eq (hitems j List.mem_cons_self)
          have hread := readItems_compact ih (Nat.le_of_succ_le_succ hdepth) rest
          simp only [htext, List.cons_append] at hread
          simp only [compactChars, htext, List.cons_append]
          rw [readValue_items hspace hc, hread]
          rfl
  | @object members hnames hmembers ih =>
      refine .of_succ (.object hnames hmembers) fun depth rest hdepth _ => ?_
      cases members with
      | nil => rfl
      | cons m ms =>
          obtain ⟨k, j⟩ := m
          obtain ⟨k, rfl⟩ := Option.isSome_iff_exists.mp (hnames _ List.mem_cons_self)
          have hread := readMembers_compact (fun m hm => hnames m (List.mem_cons_of_mem _ hm))
            (ih _ List.mem_cons_self) (fun m hm => ih m (List.mem_cons_of_mem _ hm))
            (Nat.le_of_succ_le_succ hdepth) rest
          simp only [quote_some, List.cons_append] at hread
          simp only [compactChars, quote_some, List.cons_append]
          rw [readValue_members, hread]
          rfl

/-- **The value of a compact text.** -/
theorem ofText?_compact (h : j.WellFormed) : ofText? j.compact = some j := by
  have hread := h.readsBack (2 * (compactChars j).length + 2) [] (by omega) nofun
  rw [List.append_nil] at hread
  rw [ofText?, compact, String.toList_ofList, ofChars?, hread]
  rfl

end ServiceStubs.Json
