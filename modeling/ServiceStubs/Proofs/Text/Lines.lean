import Mathlib.Data.List.Induction
import ServiceStubs.Text.Blank
import ServiceStubs.Text.Lines

/-!
# Lines and the blanks at their ends

The lines of a text are found from its first line feed on, and the blanks at the end of a
line from its last character back.

## Main definitions

* `chomp` — a line without its carriage return.
* `lines_append`, `lines_of_notMem` — the first line, and a last one without its end.
* `lines_induction` — texts by their lines.
* `trimEnd_append_of_blank`, `trimEnd_append_of_not_blank` — trimming, from the last character.
-/

namespace ServiceStubs.Text

variable {cs l : List Char} {c : Char}

/-! ## Lines -/

/-- A line without the carriage return at its end, if it has one. -/
def chomp (l : List Char) : List Char :=
  closeLine l.reverse

theorem chomp_return (l : List Char) : chomp (l ++ ['\r']) = l := by
  simp [chomp, closeLine]

theorem chomp_of_getLast?_ne (h : l.getLast? ≠ some '\r') : chomp l = l := by
  rw [chomp, closeLine, List.reverse_reverse]
  intro rev hrev
  refine h ?_
  rw [← List.head?_reverse, hrev, List.head?_cons]

theorem linesFrom_append (rev : List Char) {l : List Char} (hl : '\n' ∉ l) (cs : List Char) :
    linesFrom rev (l ++ '\n' :: cs) = closeLine (l.reverse ++ rev) :: linesFrom [] cs := by
  induction l generalizing rev with
  | nil => cases rev <;> simp [linesFrom]
  | cons c l ih =>
      obtain ⟨hc, hl⟩ := List.ne_and_not_mem_of_not_mem_cons hl
      cases rev <;> simp [linesFrom, Ne.symm hc, ih _ hl]

theorem linesFrom_of_notMem (rev : List Char) {l : List Char} (hl : '\n' ∉ l)
    (hne : l ≠ [] ∨ rev ≠ []) : linesFrom rev l = [rev.reverse ++ l] := by
  induction l generalizing rev with
  | nil =>
      cases rev with
      | nil => simp at hne
      | cons c rev => simp [linesFrom]
  | cons c l ih =>
      obtain ⟨hc, hl⟩ := List.ne_and_not_mem_of_not_mem_cons hl
      cases rev <;> simp [linesFrom, Ne.symm hc, ih _ hl]

theorem lines_append (hl : '\n' ∉ l) (cs : List Char) :
    lines (l ++ '\n' :: cs) = chomp l :: lines cs := by
  rw [lines, linesFrom_append [] hl, List.append_nil]
  rfl

theorem lines_of_notMem (hl : '\n' ∉ l) (hne : l ≠ []) : lines l = [l] :=
  linesFrom_of_notMem [] hl (.inl hne)

/-- A text has no line, or a last one without its end, or a first one and others. -/
theorem lines_induction {P : List Char → Prop} (nil : P [])
    (last : ∀ l, '\n' ∉ l → l ≠ [] → P l) (line : ∀ l cs, '\n' ∉ l → P cs → P (l ++ '\n' :: cs))
    (cs : List Char) : P cs := by
  induction hlength : cs.length using Nat.strongRecOn generalizing cs with
  | _ n ih =>
  subst hlength
  by_cases hmem : '\n' ∈ cs
  · obtain ⟨l, rest, rfl, hl⟩ := List.eq_append_cons_of_mem hmem
    exact line l rest hl (ih _ (by simp; omega) rest rfl)
  · by_cases hne : cs = []
    · exact hne ▸ nil
    · exact last cs hmem hne

/-! ## Blanks at the end -/

theorem trimEnd_append_of_blank (hc : isBlank c) (cs : List Char) :
    trimEnd (cs ++ [c]) = trimEnd cs := by
  simp [trimEnd, hc]

theorem trimEnd_append_of_not_blank (hc : isBlank c = false) (cs : List Char) :
    trimEnd (cs ++ [c]) = cs ++ [c] := by
  simp [trimEnd, hc]

/-- Only blanks are taken from the end of a text. -/
theorem isBlankText_trimEnd (cs : List Char) : isBlankText (trimEnd cs) = isBlankText cs := by
  induction cs using List.reverseRecOn with
  | nil => rfl
  | append_singleton cs c ih =>
      cases hc : isBlank c with
      | true =>
          rw [trimEnd_append_of_blank hc, ih]
          simp [isBlankText, hc]
      | false => rw [trimEnd_append_of_not_blank hc]

end ServiceStubs.Text
