import Mathlib.Data.List.Find
import Mathlib.Tactic.MkIffOfInductiveProp
import ServiceStubs.Text.Replace

/-!
# Replacing several patterns

A chain of replacements goes over the text once for each pattern, and so it might read
what an earlier replacement has put there.  It does not when no replacement makes or
breaks an occurrence of a later pattern: then the chain is one pass from left to right in
which no character is looked at twice.

## Main definitions

* `replaceAny` — the patterns of a table replaced in one pass.
* `Spares` — a replacement that neither makes nor breaks an occurrence of a pattern.
* `foldl_replace` — a chain of replacements that spare later patterns is one pass.
* `replaceAny_append_cons` — a character of no pattern divides the work.
-/

namespace ServiceStubs.Text

variable {p r q cs : List Char} {c : Char}

/-! ## One pattern -/

theorem occursIn_iff : occursIn p cs ↔ p <:+: cs := by
  induction cs with
  | nil => simp [occursIn]
  | cons c cs ih =>
      rw [occursIn, Bool.or_eq_true, List.isPrefixOf_iff_prefix, ih, List.infix_cons_iff]

theorem replaceFrom_eq_replace_drop (p r : List Char) (skip : Nat) (cs : List Char) :
    replaceFrom p r skip cs = replace p r (cs.drop skip) := by
  induction cs generalizing skip with
  | nil => cases skip <;> rfl
  | cons c cs ih =>
      cases skip with
      | zero => rfl
      | succ skip => exact ih skip

@[simp] theorem replace_nil (p r : List Char) : replace p r [] = [] :=
  rfl

theorem replace_cons_of_isPrefix (h : p <+: c :: cs) :
    replace p r (c :: cs) = r ++ replace p r (cs.drop (p.length - 1)) := by
  rw [replace, replaceFrom, if_pos (List.isPrefixOf_iff_prefix.mpr h),
    replaceFrom_eq_replace_drop]

theorem replace_cons_of_not_isPrefix (h : ¬ p <+: c :: cs) :
    replace p r (c :: cs) = c :: replace p r cs := by
  rw [replace, replaceFrom, if_neg (mt List.isPrefixOf_iff_prefix.mp h)]
  rfl

/-! ## Several patterns -/

/-- Replaces the patterns of a table in one pass: at each place the first entry counts
whose pattern stands there, and what is put in its place is not looked at again. -/
def replaceAny (table : List (List Char × List Char)) : List Char → List Char
  | [] => []
  | c :: cs =>
    match table.find? (·.1.isPrefixOf (c :: cs)) with
    | some (pattern, replacement) =>
      replacement ++ replaceAny table (cs.drop (pattern.length - 1))
    | none => c :: replaceAny table cs
termination_by cs => cs.length

variable {table : List (List Char × List Char)} {e : List Char × List Char}

@[simp] theorem replaceAny_nil (table : List (List Char × List Char)) :
    replaceAny table [] = [] := by
  rw [replaceAny]

theorem replaceAny_cons_of_some (h : table.find? (·.1.isPrefixOf (c :: cs)) = some e) :
    replaceAny table (c :: cs) = e.2 ++ replaceAny table (cs.drop (e.1.length - 1)) := by
  rw [replaceAny, h]

theorem replaceAny_cons_of_none (h : table.find? (·.1.isPrefixOf (c :: cs)) = none) :
    replaceAny table (c :: cs) = c :: replaceAny table cs := by
  rw [replaceAny, h]

/-- Where no pattern stands, the character stays. -/
theorem replaceAny_cons_of_not_isPrefix (h : ∀ e ∈ table, ¬ e.1 <+: c :: cs) :
    replaceAny table (c :: cs) = c :: replaceAny table cs := by
  refine replaceAny_cons_of_none (List.find?_eq_none.mpr fun e he => ?_)
  simpa using h e he

/-- With no patterns nothing is replaced. -/
@[simp] theorem replaceAny_no_patterns (cs : List Char) : replaceAny [] cs = cs := by
  induction cs with
  | nil => rw [replaceAny_nil]
  | cons c cs ih => rw [replaceAny_cons_of_none rfl, ih]

/-! ## Chains -/

/-- Replacing `p` by `r` neither makes nor breaks an occurrence of `q`: what is put in has
no character of `q`, and no occurrence of `p` starts inside `q`. -/
@[mk_iff]
structure Spares (p r q : List Char) : Prop where
  pattern_ne : q ≠ []
  replacement_ne : r ≠ []
  disjoint : ∀ c ∈ r, c ∉ q
  starts_outside : ∃ c ∈ p.head?, c ∉ q.tail

-- Stated with `all` and `any`, since a quantifier over characters would be decided by going
-- through all of them.
instance (p r q : List Char) : Decidable (Spares p r q) :=
  decidable_of_iff
    (q ≠ [] ∧ r ≠ [] ∧ r.all (!q.contains ·) ∧ p.head?.any (!q.tail.contains ·))
    (by simp [spares_iff, Option.any_eq_true])

/-- What follows the start of a pattern is there before the replacement exactly if it is
there afterwards. -/
theorem prefix_replace_iff {t : List Char} (hr : r ≠ []) (hdisjoint : ∀ c ∈ r, c ∉ t)
    (hp : ∃ c ∈ p.head?, c ∉ t) : t <+: replace p r cs ↔ t <+: cs := by
  induction t generalizing cs with
  | nil => simp
  | cons x t ih =>
      cases cs with
      | nil => simp
      | cons c cs =>
          by_cases h : p <+: c :: cs
          · -- The occurrence of `p` starts with a character that `t` lacks, and so does `r`.
            obtain ⟨a, ha, hat⟩ := hp
            obtain ⟨d, r', rfl⟩ := List.exists_cons_of_ne_nil hr
            obtain ⟨p', rfl⟩ := List.head?_eq_some_iff.mp ha
            obtain rfl := (List.cons_prefix_cons.mp h).1
            have hx : x ≠ d := fun hx => hdisjoint d List.mem_cons_self (hx ▸ List.mem_cons_self)
            have hxa : x ≠ a := fun hx => hat (hx ▸ List.mem_cons_self)
            simp [replace_cons_of_isPrefix h, List.cons_prefix_cons, hx, hxa]
          · rw [replace_cons_of_not_isPrefix h, List.cons_prefix_cons, List.cons_prefix_cons, ih]
            · exact fun c hc hmem => hdisjoint c hc (List.mem_cons_of_mem _ hmem)
            · exact hp.imp fun a ⟨ha, hat⟩ => ⟨ha, fun hmem => hat (List.mem_cons_of_mem _ hmem)⟩

/-- Characters with which `p` does not start are kept. -/
theorem replace_append {t : List Char} (hp : ∃ c ∈ p.head?, c ∉ t) (cs : List Char) :
    replace p r (t ++ cs) = t ++ replace p r cs := by
  induction t with
  | nil => rfl
  | cons x t ih =>
      obtain ⟨a, ha, hat⟩ := hp
      obtain ⟨p', rfl⟩ := List.head?_eq_some_iff.mp ha
      have hnot : ¬ a :: p' <+: x :: (t ++ cs) := fun h =>
        hat ((List.cons_prefix_cons.mp h).1 ▸ List.mem_cons_self)
      rw [List.cons_append, replace_cons_of_not_isPrefix hnot,
        ih ⟨a, ha, fun hmem => hat (List.mem_cons_of_mem _ hmem)⟩, List.cons_append]

/-- A pattern that is spared stands behind a kept character exactly if it stood there. -/
theorem Spares.prefix_cons_replace_iff (h : Spares p r q) :
    q <+: c :: replace p r cs ↔ q <+: c :: cs := by
  obtain ⟨x, t, rfl⟩ := List.exists_cons_of_ne_nil h.pattern_ne
  rw [List.cons_prefix_cons, List.cons_prefix_cons, prefix_replace_iff h.replacement_ne
    (fun c hc hmem => h.disjoint c hc (List.mem_cons_of_mem _ hmem)) h.starts_outside]

theorem Spares.drop_replace (h : Spares p r q) (hq : q <+: c :: cs) :
    (replace p r cs).drop (q.length - 1) = replace p r (cs.drop (q.length - 1)) := by
  obtain ⟨x, t, rfl⟩ := List.exists_cons_of_ne_nil h.pattern_ne
  obtain ⟨rest, rfl⟩ := (List.cons_prefix_cons.mp hq).2
  rw [replace_append (t := t) h.starts_outside]
  simp

/-- What is put in has no part of a pattern that is spared. -/
theorem replaceAny_append_of_spares (h : ∀ e ∈ table, Spares p r e.1) (cs : List Char) :
    replaceAny table (r ++ cs) = r ++ replaceAny table cs := by
  have hstays : ∀ t ⊆ r, replaceAny table (t ++ cs) = t ++ replaceAny table cs := by
    intro t ht
    induction t with
    | nil => rfl
    | cons d t ih =>
        obtain ⟨hd, ht⟩ := List.cons_subset.mp ht
        rw [List.cons_append, replaceAny_cons_of_not_isPrefix, ih ht, List.cons_append]
        intro e he hprefix
        obtain ⟨x, q, hq⟩ := List.exists_cons_of_ne_nil (h e he).pattern_ne
        rw [hq, List.cons_prefix_cons] at hprefix
        exact (h e he).disjoint d hd (by simp [hq, hprefix.1])
  exact hstays r fun _ => id

/-- Behind a kept character the same entry counts before and after a replacement that
spares the patterns. -/
theorem find?_cons_replace (h : ∀ e ∈ table, Spares p r e.1) (c : Char) (cs : List Char) :
    table.find? (·.1.isPrefixOf (c :: replace p r cs)) =
      table.find? (·.1.isPrefixOf (c :: cs)) := by
  refine List.find?_congr fun e he => ?_
  rw [Bool.eq_iff_iff, List.isPrefixOf_iff_prefix, List.isPrefixOf_iff_prefix]
  exact (h e he).prefix_cons_replace_iff

/-- A replacement that spares the patterns of a table can be made in the same pass. -/
theorem replaceAny_replace (h : ∀ e ∈ table, Spares p r e.1) (cs : List Char) :
    replaceAny table (replace p r cs) = replaceAny ((p, r) :: table) cs := by
  fun_induction replaceAny ((p, r) :: table) cs with
  | case1 => simp
  | case2 c cs pattern replacement hfind ih =>
      by_cases hp : p <+: c :: cs
      · rw [List.find?_cons_of_pos (by simpa using hp)] at hfind
        obtain ⟨rfl, rfl⟩ := Prod.mk.inj (Option.some.inj hfind)
        rw [replace_cons_of_isPrefix hp, replaceAny_append_of_spares h, ih]
      · rw [List.find?_cons_of_neg (by simpa using hp)] at hfind
        have hspares := h _ (List.mem_of_find?_eq_some hfind)
        have hprefix : pattern <+: c :: cs := by simpa using List.find?_some hfind
        rw [replace_cons_of_not_isPrefix hp,
          replaceAny_cons_of_some ((find?_cons_replace h c cs).trans hfind),
          hspares.drop_replace hprefix, ih]
  | case3 c cs hfind ih =>
      have hp : ¬ p <+: c :: cs := by simpa using List.find?_eq_none.mp hfind (p, r)
      rw [List.find?_cons_of_neg (by simpa using hp)] at hfind
      rw [replace_cons_of_not_isPrefix hp,
        replaceAny_cons_of_none ((find?_cons_replace h c cs).trans hfind), ih]

/-- **A chain of replacements, each of which spares the later patterns, is one pass.** -/
theorem foldl_replace (h : table.Pairwise fun e e' => Spares e.1 e.2 e'.1) (cs : List Char) :
    table.foldl (fun cs (pattern, replacement) => replace pattern replacement cs) cs =
      replaceAny table cs := by
  induction table generalizing cs with
  | nil => simp
  | cons e table ih =>
      obtain ⟨he, htable⟩ := List.pairwise_cons.mp h
      rw [List.foldl_cons, ih htable, replaceAny_replace he]

/-! ## Characters of no pattern -/

/-- A pattern does not reach over a character that it lacks. -/
theorem prefix_append_cons_iff {x y : List Char} (hc : c ∉ q) : q <+: x ++ c :: y ↔ q <+: x := by
  refine ⟨fun h => ?_, fun h => h.trans (List.prefix_append _ _)⟩
  rcases List.prefix_or_prefix_of_prefix h (List.prefix_append x (c :: y)) with hq | ⟨t, rfl⟩
  · exact hq
  · rw [List.prefix_append_right_inj] at h
    cases t with
    | nil => simp
    | cons d t =>
        obtain rfl := (List.cons_prefix_cons.mp h).1
        simp at hc

theorem find?_append_cons (hc : ∀ e ∈ table, c ∉ e.1) (x y : List Char) :
    table.find? (·.1.isPrefixOf (x ++ c :: y)) = table.find? (·.1.isPrefixOf x) := by
  refine List.find?_congr fun e he => ?_
  rw [Bool.eq_iff_iff, List.isPrefixOf_iff_prefix, List.isPrefixOf_iff_prefix]
  exact prefix_append_cons_iff (hc e he)

/-- **A character of no pattern divides the work.** -/
theorem replaceAny_append_cons (hne : ∀ e ∈ table, e.1 ≠ []) (hc : ∀ e ∈ table, c ∉ e.1)
    (x y : List Char) :
    replaceAny table (x ++ c :: y) = replaceAny table x ++ c :: replaceAny table y := by
  fun_induction replaceAny table x with
  | case1 =>
      refine replaceAny_cons_of_none ((find?_append_cons hc [] y).trans ?_)
      simpa using hne
  | case2 d x pattern replacement hfind ih =>
      have hprefix : pattern <+: d :: x := by simpa using List.find?_some hfind
      have hlength : pattern.length - 1 ≤ x.length := by
        have := hprefix.length_le
        simp only [List.length_cons] at this
        omega
      have hfind' := (find?_append_cons hc (d :: x) y).trans hfind
      rw [List.cons_append] at hfind' ⊢
      rw [replaceAny_cons_of_some hfind', List.drop_append_of_le_length hlength, ih,
        List.append_assoc]
  | case3 d x hfind ih =>
      have hfind' := (find?_append_cons hc (d :: x) y).trans hfind
      rw [List.cons_append] at hfind' ⊢
      rw [replaceAny_cons_of_none hfind', ih, List.cons_append]

end ServiceStubs.Text
