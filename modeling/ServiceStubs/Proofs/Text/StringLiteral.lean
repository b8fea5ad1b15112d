import Mathlib.Data.List.TakeWhile
import ServiceStubs.Text.Hex

/-!
# Strings that are spelled as they are

In a stub module a string between double quotes ends at the first quote that is not taken
by a backslash, on the line where it began, and some of what follows a backslash stands for
another character: a line end for none, a digit for a number.  Behind any other character the
backslash stands for itself.

Text that is put between the quotes as it is, is read as it was only if it has none of this:
no quote, no line end, and no backslash that begins an escape.  An escape is always longer
than what it stands for, so nothing that has one is read as itself; and a quote that a
backslash takes is read as a quote, so the string cannot go on behind the text either.

## Main definitions

* `escape?`, `readString?` — how a string between double quotes is read.
* `isSelfSpelled` — text that may stand between the quotes as it is.
* `readString?_selfSpelled`, `isSelfSpelled_of_readString?` — it is read as it was, and
  nothing else is.
-/

namespace ServiceStubs.Text

variable {c : Char} {cs key rest rest' value : List Char} {n : Nat}

/-! ## Reading a string -/

/-- The character of a number, if it is the number of one. -/
def charOfNat? (n : Nat) : Option Char :=
  if n.isValidChar then some (Char.ofNat n) else none

/-- The characters that stand for one character behind a backslash. -/
def namedEscapes : List (Char × Char) :=
  [('\\', '\\'), ('\'', '\''), ('"', '"'), ('a', '\x07'), ('b', '\x08'), ('f', '\x0c'),
    ('n', '\n'), ('r', '\r'), ('t', '\t'), ('v', '\x0b')]

/-- The characters behind which a number stands in so many hexadecimal digits. -/
def hexEscapes : List (Char × Nat) :=
  [('x', 2), ('u', 4), ('U', 8)]

/-- A digit up to seven. -/
def isOctal (c : Char) : Bool :=
  '0' ≤ c && c ≤ '7'

/-- The value of some digits up to seven, the first one being the highest. -/
def octalNumber (digits : List Char) : Nat :=
  digits.foldl (fun n c => n * 8 + (c.toNat - '0'.toNat)) 0

/-- The digits of an octal number: three at most. -/
def octalDigits (cs : List Char) : List Char :=
  (cs.take 3).takeWhile isOctal

/-- What is read behind a backslash: the characters that are meant, and how many characters
this takes.  The names of characters, which stand behind an `N`, are not known here; none of
them means the characters that it is written with. -/
def escape? : List Char → Option (List Char × Nat)
  | [] => none
  | '\r' :: '\n' :: _ => some ([], 2)
  | c :: cs =>
    if c = '\n' ∨ c = '\r' then some ([], 1)
    else if isOctal c then
      (charOfNat? (octalNumber (octalDigits (c :: cs)))).map
        fun d => ([d], (octalDigits (c :: cs)).length)
    else match namedEscapes.lookup c, hexEscapes.lookup c with
      | some d, _ => some ([d], 1)
      | none, some width =>
        ((hexNumber? (cs.take width)).bind charOfNat?).map fun d => ([d], width + 1)
      | none, none => if c = 'N' then none else some (['\\'], 0)

/-- The characters that a string cannot have, unless a backslash takes them. -/
def barred : List Char :=
  ['\n', '\r', '\x00']

/-- The string up to the closing quote, and what is behind it; so many characters are taken
by a backslash already. -/
def readString? : (taken : Nat) → List Char → Option (List Char × List Char)
  | _, [] => none
  | taken + 1, _ :: cs => readString? taken cs
  | 0, c :: cs =>
    if c = '"' then some ([], cs)
    else if c ∈ barred then none
    else if c = '\\' then do
      let (value, taken) ← escape? cs
      let (text, rest) ← readString? taken cs
      some (value ++ text, rest)
    else do
      let (text, rest) ← readString? 0 cs
      some (c :: text, rest)

/-! ## Text that is spelled as it is -/

/-- Whether a backslash begins an escape in front of the character. -/
def startsEscape (c : Char) : Bool :=
  c = '\n' || c = '\r' || isOctal c || (namedEscapes.lookup c).isSome ||
    (hexEscapes.lookup c).isSome || c = 'N'

/-- The text can stand between double quotes as it is. -/
def isSelfSpelled : List Char → Bool
  | [] => true
  | c :: cs =>
    c ≠ '"' && !barred.contains c && (c ≠ '\\' || cs.head?.any (!startsEscape ·)) &&
      isSelfSpelled cs

/-! ## Escapes -/

theorem isSome_hexValue?_of_hexNumber? {digits : List Char} (h : hexNumber? digits = some n) :
    ∀ c ∈ digits, (hexValue? c).isSome := by
  suffices hall : ∀ m, digits.foldlM (fun n c => (hexValue? c).map (n * 16 + ·)) m = some n →
      ∀ c ∈ digits, (hexValue? c).isSome from hall 0 h
  clear h
  induction digits with
  | nil => simp
  | cons d digits ih =>
      intro m hm c hc
      rw [List.foldlM_cons] at hm
      cases hd : hexValue? d with
      | none => simp [hd] at hm
      | some v =>
          rcases List.mem_cons.mp hc with rfl | hc
          · rw [hd, Option.isSome_some]
          · exact ih (m * 16 + v) (by simpa [hd] using hm) c hc

theorem escape?_of_not_startsEscape (h : startsEscape c = false) :
    escape? (c :: cs) = some (['\\'], 0) := by
  simp only [startsEscape, Bool.or_eq_false_iff, decide_eq_false_iff_not, Option.isSome_eq_false_iff,
    Option.isNone_iff_eq_none] at h
  obtain ⟨⟨⟨⟨⟨hn, hr⟩, hoctal⟩, hnamed⟩, hhex⟩, hN⟩ := h
  rw [escape?]
  · simp [hn, hr, hoctal, hnamed, hhex, hN]
  · exact fun _ hc _ => hr hc

/-- Digits are no quotes. -/
theorem count_octalDigits (cs : List Char) : (octalDigits cs).count '"' = 0 := by
  rw [List.count_eq_zero]
  intro hquote
  exact absurd (List.mem_takeWhile_imp hquote) (by decide)

theorem count_take_hex {width : Nat} {d : Char}
    (h : (hexNumber? (cs.take width)).bind charOfNat? = some d) :
    (cs.take width).count '"' = 0 := by
  obtain ⟨n, hn, -⟩ := Option.bind_eq_some_iff.mp h
  rw [List.count_eq_zero]
  intro hquote
  exact absurd (isSome_hexValue?_of_hexNumber? hn '"' hquote) (by decide)

theorem take_length_octalDigits (cs : List Char) :
    cs.take (octalDigits cs).length = octalDigits cs :=
  (List.prefix_iff_eq_take.mp
    ((List.takeWhile_prefix isOctal).trans (List.take_prefix 3 cs))).symm

/-- The only character that means a quote is a quote, among those that mean one. -/
theorem count_namedEscapes {d : Char} (h : namedEscapes.lookup c = some d) :
    [c].count '"' ≤ [d].count '"' := by
  by_cases hc : c = '"'
  · subst hc
    obtain rfl := Option.some.inj h
    exact le_rfl
  · simp [hc]

/-- **Behind a backslash stands what begins no escape, or an escape**, which means one
character at most, and a quote if there is one in it. -/
theorem escape?_spec (h : escape? cs = some (value, n)) :
    (n = 0 ∧ value = ['\\'] ∧ ∃ c ∈ cs.head?, startsEscape c = false) ∨
      (0 < n ∧ value.length ≤ 1 ∧ (cs.take n).count '"' ≤ value.count '"') := by
  unfold escape? at h
  split at h
  · nomatch h
  · obtain ⟨rfl, rfl⟩ := Prod.mk.inj (Option.some.inj h)
    exact .inr (by simp)
  next c cs hreturn =>
  split at h
  · next hend =>
    obtain ⟨rfl, rfl⟩ := Prod.mk.inj (Option.some.inj h)
    exact .inr (by rcases hend with rfl | rfl <;> simp)
  next hend =>
  split at h
  · next hoctal =>
    obtain ⟨d, -, hd⟩ := Option.map_eq_some_iff.mp h
    obtain ⟨rfl, rfl⟩ := Prod.mk.inj hd
    refine .inr ⟨by simp [octalDigits, hoctal], le_rfl, ?_⟩
    rw [take_length_octalDigits, count_octalDigits]
    exact Nat.zero_le _
  next hoctal =>
  split at h
  · next d _ hd =>
    obtain ⟨rfl, rfl⟩ := Prod.mk.inj (Option.some.inj h)
    exact .inr ⟨Nat.one_pos, le_rfl, count_namedEscapes hd⟩
  · next width hnamed hwidth =>
    obtain ⟨d, hd, hvalue⟩ := Option.map_eq_some_iff.mp h
    obtain ⟨rfl, rfl⟩ := Prod.mk.inj hvalue
    have hquote : c ≠ '"' := by
      rintro rfl
      nomatch hnamed
    refine .inr ⟨Nat.succ_pos _, le_rfl, ?_⟩
    simp [List.take_succ_cons, hquote, count_take_hex hd]
  · next hnamed hhex =>
    split at h
    · nomatch h
    · next hN =>
      obtain ⟨rfl, rfl⟩ := Prod.mk.inj (Option.some.inj h)
      rw [not_or] at hend
      refine .inl ⟨rfl, rfl, c, rfl, ?_⟩
      simp [startsEscape, hend, hoctal, hnamed, hhex, hN]

/-! ## Reading what is spelled as it is -/

/-- What a backslash has taken is not read again. -/
theorem readString?_taken (n : Nat) (cs : List Char) :
    readString? n cs = readString? 0 (cs.drop n) := by
  induction cs generalizing n with
  | nil => cases n <;> rfl
  | cons c cs ih =>
      cases n with
      | zero => rfl
      | succ n => exact ih n

theorem isSelfSpelled_of_forall (h : ∀ c ∈ cs, c ≠ '"' ∧ c ∉ barred ∧ c ≠ '\\') :
    isSelfSpelled cs := by
  induction cs with
  | nil => rfl
  | cons c cs ih =>
      obtain ⟨hquote, hbarred, hslash⟩ := h c List.mem_cons_self
      simp [isSelfSpelled, hquote, hbarred, hslash, ih fun d hd => h d (List.mem_cons_of_mem _ hd)]

/-- **Text that is spelled as it is, is read as it was**, up to the quote behind it. -/
theorem readString?_selfSpelled (h : isSelfSpelled cs) (rest : List Char) :
    readString? 0 (cs ++ '"' :: rest) = some (cs, rest) := by
  induction cs with
  | nil => rfl
  | cons c cs ih =>
      simp only [isSelfSpelled, Bool.and_eq_true, decide_eq_true_eq, Bool.not_eq_true',
        Bool.or_eq_true] at h
      obtain ⟨⟨⟨hquote, hbarred⟩, hslash⟩, hcs⟩ := h
      rw [List.cons_append, readString?, if_neg hquote, if_neg (by simpa using hbarred)]
      split
      · next hc =>
        cases cs with
        | nil => simp [hc] at hslash
        | cons d cs =>
            have hstarts : startsEscape d = false := by simpa [hc] using hslash
            have hread := ih hcs
            rw [List.cons_append] at hread ⊢
            rw [escape?_of_not_startsEscape hstarts]
            simp [hread, hc]
      · simp [ih hcs]

/-- What is read is no longer than what it is read from, and has the quotes that are in it;
and if it is as long, then it is spelled as it is. -/
structure ReadFrom (key body : List Char) : Prop where
  length_le : key.length ≤ body.length
  count_le : body.count '"' ≤ key.count '"'
  same : key.length = body.length → key = body ∧ isSelfSpelled body

/-- A character that is read as itself. -/
theorem ReadFrom.cons (h : ReadFrom key cs) (hc : isSelfSpelled cs → isSelfSpelled (c :: cs)) :
    ReadFrom (c :: key) (c :: cs) where
  length_le := Nat.succ_le_succ h.length_le
  count_le := by
    have := h.count_le
    simp only [List.count_cons]
    omega
  same hlength := by
    obtain ⟨rfl, hcs⟩ := h.same (Nat.succ.inj hlength)
    exact ⟨rfl, hc hcs⟩

/-- An escape is longer than what it means. -/
theorem ReadFrom.escape {taken : List Char} (h : ReadFrom key cs) (htaken : taken ≠ [])
    (hvalue : value.length ≤ 1) (hcount : taken.count '"' ≤ value.count '"') :
    ReadFrom (value ++ key) ('\\' :: (taken ++ cs)) := by
  have hpos := List.length_pos_iff.mpr htaken
  have hlength := h.length_le
  have hquotes := h.count_le
  constructor
  · simp only [List.length_append, List.length_cons]
    omega
  · simp only [List.count_append, List.count_cons_of_ne (show '\\' ≠ '"' by decide)]
    omega
  · intro heq
    simp only [List.length_append, List.length_cons] at heq
    omega

/-- A string is read from the text in front of the quote that closes it. -/
theorem readString?_spec (h : readString? 0 cs = some (key, rest)) :
    ∃ body, cs = body ++ '"' :: rest ∧ ReadFrom key body := by
  induction hlength : cs.length using Nat.strongRecOn generalizing cs key with
  | _ length ih =>
  subst hlength
  cases cs with
  | nil => nomatch h
  | cons c cs =>
  rw [readString?] at h
  split_ifs at h with hquote hbarred hslash
  · obtain ⟨rfl, rfl⟩ := Prod.mk.inj (Option.some.inj h)
    exact ⟨[], by rw [hquote, List.nil_append], le_rfl, le_rfl, fun _ => ⟨rfl, rfl⟩⟩
  · obtain ⟨⟨value, n⟩, hescape, h⟩ := Option.bind_eq_some_iff.mp h
    obtain ⟨⟨text, rest'⟩, htext, h⟩ := Option.bind_eq_some_iff.mp h
    obtain ⟨rfl, rfl⟩ := Prod.mk.inj (Option.some.inj h)
    rw [readString?_taken] at htext
    have hless : (cs.drop n).length < (c :: cs).length :=
      Nat.lt_succ_of_le (List.drop_sublist n cs).length_le
    obtain ⟨body, hbody, hread⟩ := ih _ hless htext rfl
    have hcs : cs = cs.take n ++ (body ++ '"' :: rest') := by rw [← hbody, List.take_append_drop]
    refine ⟨'\\' :: (cs.take n ++ body), by simpa [hslash] using hcs, ?_⟩
    rcases escape?_spec hescape with ⟨rfl, rfl, d, hd, hstarts⟩ | ⟨hn, hvalue, hcount⟩
    · -- what begins no escape is no quote, so it belongs to the text
      refine hread.cons fun hself => ?_
      rw [List.take_zero, List.nil_append] at hcs
      have hhead : body.head? = some d := by
        cases body with
        | nil =>
            rw [hcs] at hd
            obtain rfl := Option.some.inj hd
            nomatch hstarts
        | cons e body => simpa [hcs] using hd
      simp [isSelfSpelled, hhead, hstarts, hself, barred]
    · refine hread.escape ?_ hvalue hcount
      intro hempty
      rw [List.take_eq_nil_iff] at hempty
      rcases hempty with rfl | rfl
      · exact absurd hn (Nat.lt_irrefl 0)
      · simp at hbody
  · obtain ⟨⟨text, rest'⟩, htext, h⟩ := Option.bind_eq_some_iff.mp h
    obtain ⟨rfl, rfl⟩ := Prod.mk.inj (Option.some.inj h)
    obtain ⟨body, rfl, hread⟩ := ih _ (by simp) htext rfl
    refine ⟨c :: body, rfl, hread.cons fun hself => ?_⟩
    simp [isSelfSpelled, hquote, hbarred, hslash, hself]

/-- **Nothing else is read as it was**, wherever the string may end.  Before the quote behind
the text, what is read is shorter; behind it, there is a quote too many. -/
theorem isSelfSpelled_of_readString? (h : readString? 0 (cs ++ '"' :: rest) = some (cs, rest')) :
    isSelfSpelled cs := by
  obtain ⟨body, heq, hread⟩ := readString?_spec h
  rcases List.append_eq_append_iff.mp heq with ⟨more, hbody, hmore⟩ | ⟨more, hcs, hmore⟩
  · cases more with
    | nil =>
        rw [List.append_nil] at hbody
        exact hbody ▸ (hread.same (by rw [hbody])).2
    | cons d more =>
        obtain ⟨rfl, -⟩ := List.cons.inj hmore
        have hcount := hread.count_le
        simp only [hbody, List.count_append, List.count_cons_self] at hcount
        omega
  · have hlength := hread.length_le
    rw [hcs, List.length_append] at hlength
    obtain rfl : more = [] := List.length_eq_zero_iff.mp (by omega)
    rw [List.append_nil] at hcs
    exact hcs ▸ (hread.same (by rw [hcs])).2

end ServiceStubs.Text
