import Mathlib.Data.List.Chain
import ServiceStubs.Proofs.Text.Replace
import ServiceStubs.Text.Markup

/-!
# Plain text

Every tag becomes a space, and every entity is decoded once: what an entity stands for is
never read as a part of a tag or of another entity.  The words of what is then left are
joined by single spaces.

## Main definitions

* `Untagged` — a text and the same text with a space for each tag.
* `entities_spared` — no entity that is decoded completes another one.
* `SingleSpaced` — a text whose only blanks are single spaces between words.
* `plain_spec` — what the plain text of a marked-up text is.
-/

namespace ServiceStubs.Text

variable {cs out : List Char}

/-! ## Tags -/

/-- A text, and what it is with a space for each tag.  A tag reaches from `<` to the first
`>` that follows; a `<` that no `>` follows stays. -/
inductive Untagged : List Char → List Char → Prop
  | nil : Untagged [] []
  | tag {inside cs out : List Char} :
      '>' ∉ inside → Untagged cs out → Untagged ('<' :: (inside ++ '>' :: cs)) (' ' :: out)
  | unclosed {cs out : List Char} :
      '>' ∉ cs → Untagged cs out → Untagged ('<' :: cs) ('<' :: out)
  | char {c : Char} {cs out : List Char} :
      c ≠ '<' → Untagged cs out → Untagged (c :: cs) (c :: out)

theorem withoutTagsFrom_inside {inside : List Char} (h : '>' ∉ inside) (cs : List Char) :
    withoutTagsFrom true (inside ++ '>' :: cs) = withoutTags cs := by
  induction inside with
  | nil => rfl
  | cons c inside ih =>
      obtain ⟨hc, hinside⟩ := List.ne_and_not_mem_of_not_mem_cons h
      have hstays : (c != '>') = true := by simpa using Ne.symm hc
      rw [List.cons_append, withoutTagsFrom, hstays, ih hinside]

theorem withoutTags_tag {inside : List Char} (h : '>' ∉ inside) (cs : List Char) :
    withoutTags ('<' :: (inside ++ '>' :: cs)) = ' ' :: withoutTags cs := by
  rw [withoutTags, withoutTagsFrom, if_pos (by simp), withoutTagsFrom_inside h]

theorem withoutTags_cons {c : Char} (h : c = '<' → '>' ∉ cs) :
    withoutTags (c :: cs) = c :: withoutTags cs := by
  rw [withoutTags, withoutTagsFrom, if_neg (by simpa using h)]
  rfl

theorem Untagged.eq (h : Untagged cs out) : out = withoutTags cs := by
  induction h with
  | nil => rfl
  | tag hinside _ ih => rw [withoutTags_tag hinside, ih]
  | unclosed hcs _ ih => rw [withoutTags_cons fun _ => hcs, ih]
  | char hc _ ih => rw [withoutTags_cons fun h => absurd h hc, ih]

theorem untagged_withoutTags (cs : List Char) : Untagged cs (withoutTags cs) := by
  induction hlength : cs.length using Nat.strongRecOn generalizing cs with
  | _ n ih =>
  subst hlength
  cases cs with
  | nil => exact .nil
  | cons c cs =>
      have hcs := ih _ (Nat.lt_succ_self _) cs rfl
      by_cases hc : c = '<'
      · subst hc
        by_cases hclosed : '>' ∈ cs
        · obtain ⟨inside, rest, rfl, hinside⟩ := List.eq_append_cons_of_mem hclosed
          rw [withoutTags_tag hinside]
          exact .tag hinside (ih _ (by simp; omega) rest rfl)
        · rw [withoutTags_cons fun _ => hclosed]
          exact .unclosed hclosed hcs
      · rw [withoutTags_cons fun h => absurd h hc]
        exact .char hc hcs

/-- **Every text has one form without tags.** -/
theorem untagged_iff : Untagged cs out ↔ out = withoutTags cs :=
  ⟨Untagged.eq, fun h => h ▸ untagged_withoutTags cs⟩

/-! ## Entities -/

/-- **No entity that is decoded completes another one**: what the earlier ones stand for
is no character of an entity. -/
theorem entities_spared :
    entities.Pairwise fun e e' => Spares e.1 e.2 e'.1 := by
  decide

/-- **Entities are decoded in one pass.** -/
theorem decodeEntities_eq (cs : List Char) : decodeEntities cs = replaceAny entities cs :=
  foldl_replace entities_spared cs

/-! ## Words -/

/-- The stretches between separators are the parts of the text that are not empty. -/
theorem piecesAux_spec (sep : Char → Bool) (cs : List Char) :
    ∃ parts, cs.splitOnP sep = (piecesAux sep cs).1 :: parts ∧
      (piecesAux sep cs).2 = parts.filter (!·.isEmpty) := by
  induction cs with
  | nil => exact ⟨[], List.splitOnP_nil, rfl⟩
  | cons c cs ih =>
      obtain ⟨parts, hsplit, hparts⟩ := ih
      rw [List.splitOnP_cons_eq_if_modifyHead, hsplit, piecesAux]
      by_cases hc : sep c
      · refine ⟨(piecesAux sep cs).1 :: parts, by simp [hc], ?_⟩
        simp only [hc, if_true, List.filter_cons, hparts]
        cases (piecesAux sep cs).1 <;> rfl
      · exact ⟨parts, by simp [hc], by simp [hc, hparts]⟩

theorem words_eq (cs : List Char) : words cs = (cs.splitOnP isBlank).filter (!·.isEmpty) := by
  obtain ⟨parts, hsplit, hparts⟩ := piecesAux_spec isBlank cs
  rw [hsplit, List.filter_cons, ← hparts, words, pieces]
  dsimp only
  cases (piecesAux isBlank cs).1 <;> rfl

/-- A word is not empty and holds no blank. -/
def IsWordText (w : List Char) : Prop :=
  w ≠ [] ∧ ∀ c ∈ w, isBlank c = false

theorem forall_piecesAux (cs : List Char) :
    (∀ c ∈ (piecesAux isBlank cs).1, isBlank c = false) ∧
      ∀ w ∈ (piecesAux isBlank cs).2, IsWordText w := by
  induction cs with
  | nil => simp [piecesAux]
  | cons c cs ih =>
      obtain ⟨hfirst, hothers⟩ := ih
      rw [piecesAux]
      dsimp only
      split_ifs with hc hempty
      · exact ⟨by simp, hothers⟩
      · refine ⟨by simp, List.forall_mem_cons.mpr ⟨⟨by simpa using hempty, hfirst⟩, hothers⟩⟩
      · exact ⟨List.forall_mem_cons.mpr ⟨by simpa using hc, hfirst⟩, hothers⟩

theorem isWordText_of_mem_words {w : List Char} (h : w ∈ words cs) : IsWordText w := by
  obtain ⟨hfirst, hothers⟩ := forall_piecesAux cs
  rw [words, pieces] at h
  dsimp only at h
  split_ifs at h with hempty
  · exact hothers w h
  · rcases List.mem_cons.mp h with rfl | h
    · exact ⟨by simpa using hempty, hfirst⟩
    · exact hothers w h

/-- The only blanks of the text are single spaces between words. -/
structure SingleSpaced (cs : List Char) : Prop where
  spaces : ∀ c ∈ cs, isBlank c → c = ' '
  first : ∀ c ∈ cs.head?, isBlank c = false
  last : ∀ c ∈ cs.getLast?, isBlank c = false
  apart : cs.IsChain fun c d => ¬ (isBlank c ∧ isBlank d)

theorem IsWordText.singleSpaced {w : List Char} (h : IsWordText w) : SingleSpaced w where
  spaces c hc hblank := absurd hblank (by simp [h.2 c hc])
  first c hc := h.2 c (List.mem_of_mem_head? hc)
  last c hc := h.2 c (List.mem_of_getLast? hc)
  apart := (List.pairwise_of_forall_mem_list fun c hc d _ => by simp [h.2 c hc]).isChain

theorem IsWordText.singleSpaced_append {w : List Char} (h : IsWordText w) (hcs : SingleSpaced cs)
    (hne : cs ≠ []) : SingleSpaced (w ++ [' '] ++ cs) where
  spaces c hc hblank := by
    simp only [List.mem_append, List.mem_singleton] at hc
    rcases hc with (hc | rfl) | hc
    · exact absurd hblank (by simp [h.2 c hc])
    · rfl
    · exact hcs.spaces c hc hblank
  first c hc := by
    obtain ⟨d, w, rfl⟩ := List.exists_cons_of_ne_nil h.1
    obtain rfl : d = c := by simpa using hc
    exact h.2 d List.mem_cons_self
  last c hc := by
    rw [List.getLast?_append_of_ne_nil _ hne] at hc
    exact hcs.last c hc
  apart := by
    rw [List.isChain_append, List.isChain_append]
    refine ⟨⟨h.singleSpaced.apart, List.isChain_singleton _, fun c hc _ _ => ?_⟩, hcs.apart,
      fun _ _ d hd => ?_⟩
    · simp [h.singleSpaced.last c hc]
    · simp [hcs.first d hd]

/-- **Words that are joined by spaces are single-spaced.** -/
theorem singleSpaced_intercalate {ws : List (List Char)} (h : ∀ w ∈ ws, IsWordText w) :
    SingleSpaced ([' '].intercalate ws) := by
  induction ws with
  | nil => exact ⟨by simp, by simp, by simp, by simp⟩
  | cons w ws ih =>
      obtain ⟨hw, hws⟩ := List.forall_mem_cons.mp h
      cases ws with
      | nil => simpa using hw.singleSpaced
      | cons w' ws =>
          rw [List.intercalate_cons_cons]
          refine hw.singleSpaced_append (ih hws) ?_
          have hne : w' ≠ [] := (hws w' List.mem_cons_self).1
          cases ws <;> simp [hne]

/-! ## Plain text -/

/-- **The plain text of a marked-up text**: a space for each tag, each entity decoded
once, and the words that this leaves with single spaces between them. -/
theorem plain_spec (s : String) :
    ∃ untagged, (∀ out, Untagged s.toList out ↔ out = untagged) ∧
      (plain s).toList = [' '].intercalate
        (((replaceAny entities untagged).splitOnP isBlank).filter (!·.isEmpty)) ∧
      SingleSpaced (plain s).toList := by
  refine ⟨withoutTags s.toList, fun _ => untagged_iff, ?_, ?_⟩
  · rw [plain, String.toList_ofList, words_eq, decodeEntities_eq]
  · rw [plain, String.toList_ofList]
    exact singleSpaced_intercalate fun w => isWordText_of_mem_words

example : plain "a&amp;lt;b<p>&lt;b>c" = "a&lt;b <b>c" := by decide +kernel

end ServiceStubs.Text
