import Mathlib.Data.List.TakeWhile
import ServiceStubs.Json.Printer
import ServiceStubs.Json.Reader

/-!
# Strings and numbers are read back

A string that is written with escapes is read as it was, and so is a number that is
written by its digits, whatever stands behind them as long as it does not go on with the
number.

## Main definitions

* `readString_quote` — strings.
* `Numeral.WellFormed` — the numbers that can be written.
* `Follows` — what may stand behind a value.
* `readNumeral_text` — numbers.
-/

namespace ServiceStubs

open Text (hexNumber?)

namespace Json

/-! ## Strings -/

/-- The escape of a control character has four digits, which give the character. -/
theorem controlDigits_spec {n : Nat} (h : n < 0x20) :
    (controlDigits n).length = 4 ∧ hexNumber? (controlDigits n) = some n := by
  have hall : ∀ n < 0x20, (controlDigits n).length = 4 ∧
      hexNumber? (controlDigits n) = some n := by decide
  exact hall n h

theorem readPieces_unit {digits cs : List Char} {n : Nat} (hlength : digits.length = 4)
    (hvalue : hexNumber? digits = some n) :
    readPieces ('\\' :: 'u' :: digits ++ cs) =
      (readPieces cs).map fun (ps, rest) => (.ofUnit n :: ps, rest) := by
  obtain ⟨a, b, c, d, rfl⟩ : ∃ a b c d, digits = [a, b, c, d] := by
    match digits, hlength with
    | [a, b, c, d], _ => exact ⟨a, b, c, d, rfl⟩
  simp only [List.cons_append, List.nil_append, readPieces, hvalue]
  cases readPieces cs <;> rfl

/-- **A character is read as it was.** -/
theorem readPieces_quoteChar (c : Char) (cs : List Char) :
    readPieces (quoteChar c ++ cs) =
      (readPieces cs).map fun (ps, rest) => (.char c :: ps, rest) := by
  have hescape : ∀ e, escaped? e = some c → e ≠ 'u' → readPieces ('\\' :: e :: cs) =
      (readPieces cs).map fun (ps, rest) => (.char c :: ps, rest) := by
    intro e he hu
    rw [readPieces]
    · simp only [he, Option.bind_eq_bind, Option.bind_some]
      cases readPieces cs <;> rfl
    · intro a b d f cs' heq
      exact absurd heq hu
  unfold quoteChar
  split_ifs with hquote hslash hb ht hn hf hr hcontrol
  · exact hescape '"' (by rw [hquote]; rfl) (by decide)
  · exact hescape '\\' (by rw [hslash]; rfl) (by decide)
  · exact hescape 'b' (by rw [hb]; rfl) (by decide)
  · exact hescape 't' (by rw [ht]; rfl) (by decide)
  · exact hescape 'n' (by rw [hn]; rfl) (by decide)
  · exact hescape 'f' (by rw [hf]; rfl) (by decide)
  · exact hescape 'r' (by rw [hr]; rfl) (by decide)
  · obtain ⟨hlength, hvalue⟩ := controlDigits_spec hcontrol
    have hunit : Piece.ofUnit c.toNat = .char c := by
      have hlow : ¬ (0xD800 ≤ c.toNat ∧ c.toNat ≤ 0xDFFF) := by omega
      rw [Piece.ofUnit, if_neg hlow, Char.ofNat_toNat]
    rw [readPieces_unit hlength hvalue, hunit]
  · have hplain : ¬ (c.toNat < 0x20 ∨ c = '\\') := not_or.mpr ⟨hcontrol, hslash⟩
    rw [List.singleton_append, readPieces, if_neg hplain]
    · cases readPieces cs <;> rfl
    · exact fun h => hquote h
    · exact fun _ _ _ _ _ h => absurd h hslash
    · exact fun _ _ h => absurd h hslash

theorem readPieces_quoted (s rest : List Char) :
    readPieces (s.flatMap quoteChar ++ '"' :: rest) = some (s.map .char, rest) := by
  induction s with
  | nil => rfl
  | cons c s ih =>
      rw [List.flatMap_cons, List.append_assoc, readPieces_quoteChar, ih]
      rfl

theorem joinPieces_map_char (s : List Char) : joinPieces (s.map .char) = some s := by
  induction s with
  | nil => rfl
  | cons c s ih => rw [List.map_cons, joinPieces, ih, Option.map_some]

/-- **A string is read as it was written.** -/
theorem readString_quote (s : String) (rest : List Char) :
    readString (s.toList.flatMap quoteChar ++ '"' :: rest) = some (some s, rest) := by
  simp only [readString, readPieces_quoted, joinPieces_map_char, Option.bind_eq_bind,
    Option.bind_some, Option.map_some, String.ofList_toList]
  rfl

end Json

/-! ## Numbers -/

/-- The number can be written: its digits before the point do not start with a zero that
could be left out, and there are digits behind the mark of an exponent. -/
structure Numeral.WellFormed (n : Numeral) : Prop where
  whole : n.whole = ['0'] ∨ ∃ c cs, n.whole = c :: cs ∧ c ≠ '0' ∧ ∀ d ∈ n.whole, d.isDigit
  fraction : ∀ d ∈ n.fraction, d.isDigit
  exponent : ∀ e ∈ n.exponent, e.2 ≠ [] ∧ ∀ d ∈ e.2, d.isDigit

namespace Json

/-- No character of the list stands in front. -/
def NotFirst (p : Char → Bool) (cs : List Char) : Prop :=
  ∀ c ∈ cs.head?, p c = false

/-- What may stand behind a value: nothing, or what separates values or ends a list or
an object. -/
def Follows (cs : List Char) : Prop :=
  ∀ c ∈ cs.head?, c ∈ [',', ']', '\x7d']

variable {p : Char → Bool} {ds rest : List Char}

/-- A character does not stand in front of what starts with another one. -/
theorem notFirst_cons {c : Char} (hc : p c = false) (cs : List Char) : NotFirst p (c :: cs) := by
  rintro d ⟨⟩
  exact hc

theorem takeWhile_append_notFirst (hds : ∀ d ∈ ds, p d) (hrest : NotFirst p rest) :
    (ds ++ rest).takeWhile p = ds ∧ (ds ++ rest).dropWhile p = rest := by
  rw [List.takeWhile_append_of_pos hds, List.dropWhile_append_of_pos hds]
  cases rest with
  | nil => simp
  | cons c cs =>
      have hc : p c = false := hrest c rfl
      simp [hc]

theorem Follows.notFirst (h : Follows rest) (hp : [',', ']', '\x7d'].all (!p ·)) :
    NotFirst p rest := fun c hc => by
  simpa using List.all_eq_true.mp hp c (h c hc)

theorem readWhole_append {n : Numeral} (hn : n.WellFormed) (hrest : NotFirst Char.isDigit rest) :
    readWhole (n.whole ++ rest) = some (n.whole, rest) := by
  rcases hn.whole with hzero | ⟨c, cs, hwhole, hc, hdigits⟩
  · rw [hzero]
    rfl
  · rw [hwhole] at hdigits ⊢
    obtain ⟨htake, hdrop⟩ := takeWhile_append_notFirst
      (fun d hd => hdigits d (List.mem_cons_of_mem c hd)) hrest
    rw [List.cons_append, readWhole, if_neg hc, if_pos (hdigits c List.mem_cons_self), htake, hdrop]

/-- The text of a fraction. -/
def fractionText (n : Numeral) : List Char :=
  if n.fraction.isEmpty then [] else '.' :: n.fraction

/-- The text of an exponent. -/
def exponentText (n : Numeral) : List Char :=
  match n.exponent with
  | none => []
  | some (negative, digits) => ['e', if negative then '-' else '+'] ++ digits

theorem readFraction_append {n : Numeral} (hn : n.WellFormed)
    (hrest : NotFirst (fun c => c.isDigit || c == '.') rest) :
    readFraction (fractionText n ++ rest) = some (n.fraction, rest) := by
  have hdigit : NotFirst Char.isDigit rest := fun c hc => by
    simpa using (Bool.or_eq_false_iff.mp (hrest c hc)).1
  unfold fractionText
  cases hfraction : n.fraction with
  | nil =>
      cases rest with
      | nil => rfl
      | cons c cs =>
          have hc : c ≠ '.' := by simpa using (Bool.or_eq_false_iff.mp (hrest c rfl)).2
          rw [List.isEmpty_nil, if_pos rfl, List.nil_append, readFraction]
          exact fun _ h => hc (List.cons.inj h).1
  | cons d ds =>
      obtain ⟨htake, hdrop⟩ := takeWhile_append_notFirst hn.fraction hdigit
      rw [hfraction] at htake hdrop
      rw [List.isEmpty_cons, if_neg (by decide), List.cons_append, readFraction, htake, hdrop]
      rfl

theorem readExponent_append {n : Numeral} (hn : n.WellFormed) (hrest : Follows rest) :
    readExponent (exponentText n ++ rest) = some (n.exponent, rest) := by
  have hdigit : NotFirst Char.isDigit rest := hrest.notFirst (by decide)
  unfold exponentText
  cases hexponent : n.exponent with
  | none =>
      cases rest with
      | nil => rfl
      | cons c cs =>
          have hother : NotFirst (fun c => c == 'e' || c == 'E') (c :: cs) :=
            hrest.notFirst (by decide)
          have hc : ¬ (c = 'e' ∨ c = 'E') := by simpa using hother c rfl
          rw [List.nil_append, readExponent, if_neg hc]
  | some e =>
      obtain ⟨negative, digits⟩ := e
      obtain ⟨hne, hdigits⟩ := hn.exponent _ hexponent
      obtain ⟨htake, hdrop⟩ := takeWhile_append_notFirst hdigits hdigit
      have hempty : digits.isEmpty = false := by simpa using hne
      cases negative <;>
        simp [readExponent, readSign, htake, hdrop, hempty]

theorem notFirst_exponentText (n : Numeral) (hrest : Follows rest) :
    NotFirst (fun c => c.isDigit || c == '.') (exponentText n ++ rest) := by
  unfold exponentText
  cases n.exponent with
  | none => exact hrest.notFirst (by decide)
  | some e =>
      intro c hc
      obtain rfl := Option.some.inj hc
      decide

theorem notFirst_fractionText (n : Numeral)
    (hrest : NotFirst (fun c => c.isDigit || c == '.') rest) :
    NotFirst Char.isDigit (fractionText n ++ rest) := by
  unfold fractionText
  split
  · intro c hc
    exact (Bool.or_eq_false_iff.mp (hrest c hc)).1
  · intro c hc
    obtain rfl := Option.some.inj hc
    decide

theorem readMagnitude_append {n : Numeral} (hn : n.WellFormed) (negative : Bool)
    (hrest : Follows rest) :
    readMagnitude negative (n.whole ++ (fractionText n ++ (exponentText n ++ rest))) =
      some ({ n with negative }, rest) := by
  have hexponent := notFirst_exponentText n hrest
  simp only [readMagnitude, readWhole_append hn (notFirst_fractionText n hexponent),
    readFraction_append hn hexponent, readExponent_append hn hrest, Option.bind_eq_bind,
    Option.bind_some]
  rfl

/-- The first digit of a number. -/
theorem exists_whole_eq {n : Numeral} (hn : n.WellFormed) :
    ∃ c cs, n.whole = c :: cs ∧ c.isDigit := by
  rcases hn.whole with hzero | ⟨c, cs, hwhole, -, hdigits⟩
  · exact ⟨'0', [], hzero, rfl⟩
  · exact ⟨c, cs, hwhole, hdigits c (hwhole ▸ List.mem_cons_self)⟩

/-- **A number is read as it was written.** -/
theorem readNumeral_text {n : Numeral} (hn : n.WellFormed) (hrest : Follows rest) :
    readNumeral (n.text ++ rest) = some (n, rest) := by
  have htext : n.text =
      (if n.negative then ['-'] else []) ++ n.whole ++ fractionText n ++ exponentText n := rfl
  have hread := readMagnitude_append hn n.negative hrest
  simp only [htext, List.append_assoc]
  cases hnegative : n.negative with
  | true =>
      rw [hnegative] at hread
      rw [if_pos rfl, List.singleton_append, readNumeral, hread, ← hnegative]
  | false =>
      obtain ⟨c, cs, hwhole, hdigit⟩ := exists_whole_eq hn
      have hc : c ≠ '-' := by
        rintro rfl
        revert hdigit
        decide
      rw [hnegative] at hread
      rw [if_neg (by decide), List.nil_append, hwhole, List.cons_append, readNumeral]
      · rw [← List.cons_append, ← hwhole, hread, ← hnegative]
      · exact fun _ h => hc (List.cons.inj h).1

end Json

/-! ## Numbers without a point -/

/-- The digits of a positive number do not start with a zero. -/
theorem exists_toDigits_eq {n : Nat} (hn : 0 < n) :
    ∃ c cs, Nat.toDigits 10 n = c :: cs ∧ c ≠ '0' := by
  induction n using Nat.base_induction 10 (by decide) with
  | single m hm =>
      refine ⟨m.digitChar, [], Nat.toDigits_of_lt_base hm, ?_⟩
      simpa using Nat.pos_iff_ne_zero.mp hn
  | digit m k hk hm ih =>
      obtain ⟨c, cs, hdigits, hc⟩ := ih hm
      refine ⟨c, cs ++ Nat.toDigits 10 k, ?_, hc⟩
      rw [← Nat.toDigits_append_toDigits (by decide) hm hk, hdigits, List.cons_append]

theorem wellFormed_ofNat (n : Nat) (negative : Bool) :
    Numeral.WellFormed { Numeral.ofNat n with negative } where
  whole := by
    rcases Nat.eq_zero_or_pos n with rfl | hn
    · exact .inl (Nat.toDigits_zero 10)
    · obtain ⟨c, cs, hdigits, hc⟩ := exists_toDigits_eq hn
      exact .inr ⟨c, cs, hdigits, hc, fun d hd =>
        Nat.isDigit_of_mem_toDigits (by decide) (by decide) hd⟩
  fraction := nofun
  exponent := nofun

/-- The number that the digits of a number form. -/
theorem foldl_toDigits (n : Nat) :
    (Nat.toDigits 10 n).foldl (fun n c => n * 10 + (c.toNat - '0'.toNat)) 0 = n := by
  have hfold := @Nat.ofDigitChars_ten_toDigits n
  rw [Nat.ofDigitChars_eq_foldl] at hfold
  simpa only [Nat.mul_comm 10] using hfold

end ServiceStubs
