import ServiceStubs.Documentation.Directive
import ServiceStubs.Proofs.Json.Tokens

/-!
# The form of a directive

A directive is a colon, one of the words, perhaps a name behind blanks, perhaps more
blanks, and a second colon; the text after that is its rest.  Names hold no blanks and no
colons, so that a line is at most one directive.

## Main definitions

* `Directive.IsLine` — the lines that are a given directive.
* `Directive.ofLine?_eq_some_iff` — the reader takes just these lines for directives.
-/

namespace ServiceStubs.Documentation

open Text
open Json (NotFirst notFirst_cons takeWhile_append_notFirst)

namespace Directive

/-- The lines that are a directive: a colon, one of the words, perhaps blanks and a name,
perhaps blanks, a second colon, and the rest of the line. -/
inductive IsLine : Directive → List Char → Prop
  | unnamed {word : String} {kind : DirectiveKind} {gap rest : List Char} :
      (word, kind) ∈ directiveWords → isBlankText gap →
      IsLine ⟨kind, none, .ofList (trim rest)⟩ (':' :: (word.toList ++ (gap ++ ':' :: rest)))
  | named {word : String} {kind : DirectiveKind} {lead name gap rest : List Char} :
      (word, kind) ∈ directiveWords → lead ≠ [] → isBlankText lead →
      name ≠ [] → (∀ c ∈ name, endsWord c = false) → isBlankText gap →
      IsLine ⟨kind, some (.ofList name), .ofList (trim rest)⟩
        (':' :: (word.toList ++ (lead ++ (name ++ (gap ++ ':' :: rest)))))

variable {cs lead name gap rest : List Char}

/-! ## Blanks and words -/

theorem notFirst_dropWhile (p : Char → Bool) (cs : List Char) : NotFirst p (cs.dropWhile p) := by
  intro c hc
  have h := List.head?_dropWhile_not p cs
  rw [Option.mem_def.mp hc] at h
  exact h

/-- Neither a blank nor a colon goes on with a word. -/
theorem notFirst_of_blank (hgap : isBlankText gap) (hne : gap ≠ []) (rest : List Char) :
    NotFirst (!endsWord ·) (gap ++ rest) := by
  obtain ⟨c, gap, rfl⟩ := List.exists_cons_of_ne_nil hne
  have hc : isBlank c := List.all_eq_true.mp hgap c List.mem_cons_self
  exact notFirst_cons (by simp [endsWord, hc]) _

theorem notFirst_of_colon (hgap : isBlankText gap) (rest : List Char) :
    NotFirst (!endsWord ·) (gap ++ ':' :: rest) := by
  by_cases hne : gap = []
  · subst hne
    exact notFirst_cons (by decide) rest
  · exact notFirst_of_blank hgap hne _

/-- Blanks in front of a text are dropped. -/
theorem trimStart_append (hgap : isBlankText gap) (hrest : NotFirst isBlank rest) :
    trimStart (gap ++ rest) = rest :=
  (takeWhile_append_notFirst (List.all_eq_true.mp hgap) hrest).2

/-- Blanks and what is left without them are the whole text. -/
theorem exists_blanks (cs : List Char) : ∃ gap, isBlankText gap ∧ cs = gap ++ trimStart cs :=
  ⟨cs.takeWhile isBlank, List.all_takeWhile, List.takeWhile_append_dropWhile.symm⟩

/-- What ends no word is no blank and no colon. -/
theorem endsWord_eq_false_iff {c : Char} : endsWord c = false ↔ isBlank c = false ∧ c ≠ ':' := by
  simp [endsWord]

theorem directiveWords_spec :
    ∀ w ∈ directiveWords, w.1.toList.all (!endsWord ·) ∧
      directiveWords.lookup w.1 = some w.2 := by
  decide

/-! ## The name and the rest -/

theorem nameAndRest?_unnamed (hgap : isBlankText gap) (rest : List Char) :
    nameAndRest? (gap ++ ':' :: rest) = some (none, rest) := by
  rw [nameAndRest?, trimStart_append hgap (notFirst_cons (by decide) rest)]
  rfl

theorem nameAndRest?_named (hlead : isBlankText lead) (hne : name ≠ [])
    (hname : ∀ c ∈ name, endsWord c = false) (hgap : isBlankText gap) (rest : List Char) :
    nameAndRest? (lead ++ (name ++ (gap ++ ':' :: rest))) = some (some (.ofList name), rest) := by
  have hinside : ∀ c ∈ name, (!endsWord c) = true := fun c hc => by simp [hname c hc]
  obtain ⟨htake, hdrop⟩ := takeWhile_append_notFirst hinside (notFirst_of_colon hgap rest)
  obtain ⟨c, name, rfl⟩ := List.exists_cons_of_ne_nil hne
  obtain ⟨hblank, hcolon⟩ := endsWord_eq_false_iff.mp (hname c List.mem_cons_self)
  have htrim := trimStart_append hlead
    (notFirst_cons hblank (name ++ (gap ++ ':' :: rest)))
  rw [List.cons_append] at htake hdrop ⊢
  rw [nameAndRest?, htrim]
  split
  · next h => exact absurd (List.cons.inj h).1 hcolon
  · have hcolon' : NotFirst isBlank (':' :: rest) := notFirst_cons (by decide) rest
    simp only [htake, hdrop, trimStart_append hgap hcolon']

/-- What the reader takes for a name and a rest has one of the two forms. -/
theorem of_nameAndRest? {n : Option String} (h : nameAndRest? cs = some (n, rest)) :
    (n = none ∧ ∃ gap, isBlankText gap ∧ cs = gap ++ ':' :: rest) ∨
      ∃ lead name gap, n = some (.ofList name) ∧ isBlankText lead ∧ name ≠ [] ∧
        (∀ c ∈ name, endsWord c = false) ∧ isBlankText gap ∧
        cs = lead ++ (name ++ (gap ++ ':' :: rest)) := by
  obtain ⟨lead, hlead, hcs⟩ := exists_blanks cs
  have hfirst := notFirst_dropWhile isBlank cs
  unfold nameAndRest? at h
  split at h
  · next rest' htrim =>
      obtain ⟨rfl, rfl⟩ := Prod.mk.inj (Option.some.inj h)
      exact .inl ⟨rfl, lead, hlead, htrim ▸ hcs⟩
  · next cs' hcolon =>
      dsimp only at h
      split at h
      · next rest' htrim =>
          obtain ⟨rfl, rfl⟩ := Prod.mk.inj (Option.some.inj h)
          obtain ⟨gap, hgap, hdrop⟩ := exists_blanks ((trimStart cs).dropWhile (!endsWord ·))
          refine .inr ⟨lead, (trimStart cs).takeWhile (!endsWord ·), gap, rfl, hlead, ?_, ?_, hgap, ?_⟩
          · -- A text without blanks in front that starts with no name is empty or goes on
            -- with the colon.
            intro hnone
            cases hstart : trimStart cs with
            | nil =>
                rw [hstart] at htrim
                simp [trimStart] at htrim
            | cons c cs' =>
                have hblank : isBlank c = false := hfirst c (by rw [← trimStart, hstart]; rfl)
                have hc : c ≠ ':' := fun hc => hcolon cs' (hc ▸ hstart)
                have hends : endsWord c = false := endsWord_eq_false_iff.mpr ⟨hblank, hc⟩
                simp [hstart, hends] at hnone
          · intro c hc
            simpa using List.all_eq_true.mp List.all_takeWhile c hc
          · rw [← htrim, ← hdrop, List.takeWhile_append_dropWhile, ← hcs]
      · nomatch h

/-! ## Directives -/

/-- A word ends where no character of a name follows. -/
theorem takeWhile_word {word : String} {kind : DirectiveKind} (hword : (word, kind) ∈ directiveWords)
    (hrest : NotFirst (!endsWord ·) rest) :
    (word.toList ++ rest).takeWhile (!endsWord ·) = word.toList ∧
      (word.toList ++ rest).dropWhile (!endsWord ·) = rest :=
  takeWhile_append_notFirst (List.all_eq_true.mp (directiveWords_spec _ hword).1) hrest

theorem ofLine?_word {word : String} {kind : DirectiveKind} {n : Option String} {after : List Char}
    (hword : (word, kind) ∈ directiveWords) (hafter : NotFirst (!endsWord ·) after)
    (hname : nameAndRest? after = some (n, rest)) :
    ofLine? (':' :: (word.toList ++ after)) = some ⟨kind, n, .ofList (trim rest)⟩ := by
  obtain ⟨htake, hdrop⟩ := takeWhile_word hword hafter
  simp [ofLine?, htake, hdrop, hname, (directiveWords_spec _ hword).2]

/-- **The reader takes for a directive just the lines of its form.** -/
theorem ofLine?_eq_some_iff {line : List Char} {d : Directive} :
    ofLine? line = some d ↔ d.IsLine line := by
  constructor
  · intro h
    unfold ofLine? at h
    split at h
    · next cs =>
        simp only [Option.bind_eq_bind, Option.bind_eq_some_iff, Option.pure_def,
          Option.some.injEq] at h
        obtain ⟨kind, hkind, ⟨n, rest⟩, hname, rfl⟩ := h
        have hword : (String.ofList (cs.takeWhile (!endsWord ·)), kind) ∈ directiveWords := by
          obtain ⟨before, after, hsplit, -⟩ := List.lookup_eq_some_iff.mp hkind
          simp [hsplit]
        have hcs : cs = (String.ofList (cs.takeWhile (!endsWord ·))).toList ++
            cs.dropWhile (!endsWord ·) := by
          rw [String.toList_ofList, List.takeWhile_append_dropWhile]
        have hfirst := notFirst_dropWhile (!endsWord ·) cs
        rcases of_nameAndRest? hname with
          ⟨rfl, gap, hgap, hdrop⟩ | ⟨lead, name, gap, rfl, hlead, hne, hinside, hgap, hdrop⟩
        · rw [hcs, hdrop]
          exact .unnamed hword hgap
        · have hlead_ne : lead ≠ [] := by
            rintro rfl
            obtain ⟨c, name, rfl⟩ := List.exists_cons_of_ne_nil hne
            have hends := hfirst c (by simp [hdrop])
            simp [hinside c List.mem_cons_self] at hends
          rw [hcs, hdrop]
          exact .named hword hlead_ne hlead hne hinside hgap
    · nomatch h
  · rintro (⟨hword, hgap⟩ | ⟨hword, hlead_ne, hlead, hne, hname, hgap⟩)
    · exact ofLine?_word hword (notFirst_of_colon hgap _) (nameAndRest?_unnamed hgap _)
    · exact ofLine?_word hword (notFirst_of_blank hlead hlead_ne _)
        (nameAndRest?_named hlead hne hname hgap _)

end Directive

end ServiceStubs.Documentation
