import Mathlib.Data.List.TakeWhile
import ServiceStubs.Text.Split

/-!
# Texts and their parts

The parts of two texts with a separator between them are those of the one and
those of the other.  The last part stands behind the last separator, in front of
which all other parts are.

## Main definitions

* `Text.splitOn_ofList_append`, `Text.splitOn_of_notMem` — the parts of a text.
* `Text.splitLast_append`, `Text.splitLast_of_notMem` — the last part and what is in
  front of it.
* `Text.exists_last` — a text with a separator has a last one.
-/

namespace ServiceStubs.Text

variable {sep : Char} {cs : List Char}

/-! ## All parts -/

theorem splitAux_append (a b : List Char) :
    splitAux sep (a ++ sep :: b)
      = ((splitAux sep a).1, (splitAux sep a).2 ++ (splitAux sep b).1 :: (splitAux sep b).2) := by
  induction a with
  | nil => simp [splitAux]
  | cons c a ih =>
      simp only [List.cons_append, splitAux, ih]
      split <;> rfl

theorem splitAux_of_notMem (h : sep ∉ cs) : splitAux sep cs = (cs, []) := by
  induction cs with
  | nil => rfl
  | cons c cs ih =>
      obtain ⟨hc, hcs⟩ := List.ne_and_not_mem_of_not_mem_cons h
      simp [splitAux, ih hcs, Ne.symm hc]

/-- The parts of two texts with the character between them are those of the one
and those of the other. -/
theorem splitOn_ofList_append (a b : List Char) :
    splitOn sep (.ofList (a ++ sep :: b)) = splitOn sep (.ofList a) ++ splitOn sep (.ofList b) := by
  simp [splitOn, splitAux_append]

/-- A text without the character is its only part. -/
theorem splitOn_of_notMem {s : String} (h : sep ∉ s.toList) : splitOn sep s = [s] := by
  simp [splitOn, splitAux_of_notMem h]

variable (sep) in
theorem eq_or_mem_of_mem {c : Char} (hc : c ∈ cs) :
    c = sep ∨ c ∈ (splitAux sep cs).1 ∨ ∃ part ∈ (splitAux sep cs).2, c ∈ part := by
  induction cs with
  | nil => nomatch hc
  | cons d cs ih =>
      rw [splitAux]
      by_cases hd : d = sep
      · rcases List.mem_cons.mp hc with rfl | hc
        · exact .inl hd
        · rcases ih hc with hsep | hfirst | hlater
          · exact .inl hsep
          · exact .inr (.inr ⟨_, by simp [hd], hfirst⟩)
          · obtain ⟨part, hpart, hmem⟩ := hlater
            exact .inr (.inr ⟨part, by simp [hd, hpart], hmem⟩)
      · rcases List.mem_cons.mp hc with rfl | hc
        · exact .inr (.inl (by simp [hd]))
        · rcases ih hc with hsep | hfirst | hlater
          · exact .inl hsep
          · exact .inr (.inl (by simp [hd, hfirst]))
          · exact .inr (.inr (by simpa [hd] using hlater))

variable (sep) in
/-- Every character of a text is a separator or one of a part. -/
theorem eq_or_exists_splitOn {c : Char} {s : String} (hc : c ∈ s.toList) :
    c = sep ∨ ∃ part ∈ splitOn sep s, c ∈ part.toList := by
  rcases eq_or_mem_of_mem sep hc with hsep | hfirst | ⟨part, hpart, hmem⟩
  · exact .inl hsep
  · exact .inr ⟨.ofList (splitAux sep s.toList).1, by simp [splitOn], by simpa using hfirst⟩
  · refine .inr ⟨.ofList part, ?_, by simpa using hmem⟩
    exact List.mem_map_of_mem (List.mem_cons_of_mem _ hpart)

/-! ## The last part -/

/-- A text that has the character has a last one. -/
theorem exists_last (h : sep ∈ cs) : ∃ front last, cs = front ++ sep :: last ∧ sep ∉ last := by
  obtain ⟨last, front, hcs, hlast⟩ := List.eq_append_cons_of_mem (List.mem_reverse.mpr h)
  refine ⟨front.reverse, last.reverse, ?_, List.mem_reverse.not.mpr hlast⟩
  rw [← cs.reverse_reverse, hcs]
  simp

theorem splitLast_append {front last : List Char} (h : sep ∉ last) :
    splitLast sep (front ++ sep :: last) = (some front, last) := by
  have hlast : ∀ c ∈ last.reverse, decide (c ≠ sep) = true := by
    intro c hc
    exact decide_eq_true fun heq => h (heq ▸ List.mem_reverse.mp hc)
  have htake : (front ++ sep :: last).reverse.takeWhile (· ≠ sep) = last.reverse := by
    rw [List.reverse_append, List.reverse_cons, List.append_assoc,
      List.takeWhile_append_of_pos hlast]
    simp
  have hlength : (front ++ sep :: last).length = front.length + 1 + last.length := by
    simp only [List.length_append, List.length_cons]
    omega
  have hfront : (front ++ sep :: last).length - last.length - 1 = front.length := by omega
  rw [splitLast, htake, List.reverse_reverse, if_pos (by omega), hfront, List.take_left]

theorem splitLast_of_notMem (h : sep ∉ cs) : splitLast sep cs = (none, cs) := by
  have htake : cs.reverse.takeWhile (· ≠ sep) = cs.reverse := by
    refine List.takeWhile_eq_self_iff.mpr fun c hc => decide_eq_true fun heq => ?_
    exact h (heq ▸ List.mem_reverse.mp hc)
  rw [splitLast, htake, List.reverse_reverse, if_neg (lt_irrefl _)]

end ServiceStubs.Text
