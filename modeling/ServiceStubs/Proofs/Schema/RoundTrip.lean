import ServiceStubs.Proofs.Schema.Writing
import ServiceStubs.Proofs.Session.Execution
import ServiceStubs.Schema.Loading

/-!
# The text form of a schema

A schema that is read can be read back: its kinds come from tags, its numbers and the
values of its paging rules from texts.  So its own text, whichever way the text was
spelled that it was read from, is a text of the same schema.

## Main definitions

* `Schema.readable_of_read` — what is read can be read back.
* `Schema.Readable.loads` — the schemas that are loaded from their texts.
* `Schema.ofText_text` — a schema that was loaded is loaded from its own text.
-/

namespace ServiceStubs

open Json (Reader)

variable {j : Json} {s : Schema}

/-! ## What readers read -/

theorem Json.lt_of_word32 {n : Nat} (h : Reader.word32 j = some n) : n < Nat.pow 2 32 := by
  unfold Reader.word32 at h
  split at h
  · unfold Reader.boundedNat? at h
    dsimp only at h
    split at h
    · next hlt =>
        obtain rfl := Option.some.inj h
        exact hlt
    · simp at h
  · simp at h

/-- Null is read from null only. -/
theorem JsonValue.eq_null_of_ofJson? {depth : Nat} (h : ofJson? depth j = some .null) :
    j = .null := by
  cases j with
  | null => rfl
  | list => cases depth <;> simp [ofJson?] at h
  | object => cases depth <;> simp [ofJson?] at h
  | _ => simp [ofJson?] at h

namespace Schema

/-- The kind of a tag is the kind of its own tag. -/
theorem ShapeKind.ofTag_tag_ofTag (tag : String) : ofTag (ofTag tag).tag = ofTag tag := by
  have htags : ∀ t ∈ tags, ofTag t.2.tag = t.2 := by decide
  cases h : tags.lookup tag with
  | none => simp [ofTag, h, ShapeKind.tag]
  | some kind =>
      have hkind : ofTag tag = kind := by simp [ofTag, h]
      obtain ⟨before, after, heq, -⟩ := List.lookup_eq_some_iff.mp h
      have hmem : (tag, kind) ∈ tags := by simp [heq]
      rw [hkind, htags _ hmem]

theorem Shape.tagged_of_read {shape : Shape} (h : Shape.read j = some shape) : shape.Tagged := by
  simp only [Shape.read, Option.bind_eq_bind, Option.bind_eq_some_iff] at h
  obtain ⟨fields, -, h⟩ := h
  split at h
  · simp only [Option.bind_eq_some_iff, Option.pure_def, Option.some.injEq] at h
    obtain ⟨tag, -, _, -, _, -, _, -, _, -, _, -, _, -, _, -, _, -, rfl⟩ := h
    exact ShapeKind.ofTag_tag_ofTag tag
  · simp at h

theorem Model.tagged_of_read {m : Model} (h : Model.read j = some m) :
    ∀ shape ∈ m.shapes.values, shape.Tagged := by
  simp only [Model.read, Option.bind_eq_bind, Option.bind_eq_some_iff] at h
  obtain ⟨fields, -, h⟩ := h
  split at h
  · simp only [Option.bind_eq_some_iff, Option.pure_def, Option.some.injEq] at h
    obtain ⟨operations, -, shapes, hshapes, rfl⟩ := h
    intro shape hshape
    obtain ⟨_, hread⟩ := Json.exists_read_of_defaulted_map hshapes shape hshape
    exact Shape.tagged_of_read hread
  · simp at h

theorem PagingRule.keeps_of_read {p : PagingRule} (h : PagingRule.read j = some p) :
    ∀ v ∈ p.values, PagingRule.Keeps v := by
  have hkeeps : ∀ {f : Option Json} {o : Option JsonValue},
      Reader.optional readOutputValue f = some o → ∀ v ∈ o, PagingRule.Keeps v := by
    intro f o hread v hv
    obtain ⟨j, hnull, hj⟩ := Json.exists_read_of_optional hread v hv
    refine ⟨?_, JsonValue.kept_of_ofJson? hj⟩
    rintro rfl
    exact hnull (JsonValue.eq_null_of_ofJson? hj)
  simp only [PagingRule.read, Option.bind_eq_bind, Option.bind_eq_some_iff] at h
  obtain ⟨fields, -, h⟩ := h
  split at h
  · simp only [Option.bind_eq_some_iff, Option.pure_def, Option.some.injEq] at h
    obtain ⟨input, -, limit, -, output, houtput, result, hresult, rfl⟩ := h
    intro v hv
    rcases List.mem_append.mp hv with hv | hv
    · exact hkeeps houtput v (by simpa using hv)
    · exact hkeeps hresult v (by simpa using hv)
  · simp at h

theorem WaitingRule.fits_of_read {r : WaitingRule} (h : WaitingRule.read j = some r) : r.Fits := by
  have hfits : ∀ {f : Option Json} {o : Option Nat},
      Reader.optional Reader.word32 f = some o → ∀ n ∈ o, n < Nat.pow 2 32 := by
    intro f o hread n hn
    obtain ⟨j, -, hj⟩ := Json.exists_read_of_optional hread n hn
    exact Json.lt_of_word32 hj
  simp only [WaitingRule.read, Option.bind_eq_bind, Option.bind_eq_some_iff] at h
  obtain ⟨fields, -, h⟩ := h
  split at h
  · simp only [Option.bind_eq_some_iff, Option.pure_def, Option.some.injEq] at h
    obtain ⟨operation, -, delay, hdelay, attempts, hattempts, rfl⟩ := h
    intro n hn
    rcases List.mem_append.mp hn with hn | hn
    · exact hfits hdelay n (by simpa using hn)
    · exact hfits hattempts n (by simpa using hn)
  · simp at h

/-- **A schema that is read can be read back.** -/
theorem readable_of_read (h : Schema.read j = some s) : s.Readable := by
  simp only [Schema.read, Option.bind_eq_bind, Option.bind_eq_some_iff] at h
  obtain ⟨fields, -, h⟩ := h
  split at h
  · next model _ _ _ _ =>
      simp only [Option.bind_eq_some_iff, Option.pure_def, Option.some.injEq] at h
      obtain ⟨_, -, _, -, m, hmodel, paginators, hpaginators, waiters, hwaiters,
        _, -, _, -, rfl⟩ := h
      refine ⟨?_, ?_, ?_⟩
      · cases model with
        | none => simp [Reader.given] at hmodel
        | some model => exact Model.tagged_of_read hmodel
      · intro p hp
        obtain ⟨_, hread⟩ := Json.exists_read_of_defaulted_map hpaginators p hp
        exact PagingRule.keeps_of_read hread
      · intro r hr
        obtain ⟨_, hread⟩ := Json.exists_read_of_defaulted_map hwaiters r hr
        exact WaitingRule.fits_of_read hread
  · simp at h

/-! ## Texts -/

/-- A schema is loaded from a text if it is read from the value of the text and names its
service. -/
theorem ofText_eq_ok_iff {text : String} :
    ofText text = .ok s ↔
      ∃ j, Json.ofText? text = some j ∧ Schema.read j = some s ∧ s.serviceName ≠ "" := by
  unfold ofText
  cases Json.ofText? text with
  | none => simp
  | some j =>
      simp only [ofJson, Option.some.injEq, exists_eq_left']
      cases hread : Schema.read j with
      | none => simp
      | some t =>
          by_cases hname : t.serviceName = ""
          · simp only [hname, if_true, reduceCtorEq, Option.some.injEq, false_iff, not_and]
            rintro rfl
            exact not_not_intro hname
          · simp only [hname, if_false, Except.ok.injEq, Option.some.injEq]
            constructor
            · rintro rfl
              exact ⟨rfl, hname⟩
            · exact fun h => h.1

/-- **A schema that can be read and names its service is loaded from its text.** -/
theorem Readable.loads (h : s.Readable) (hfloat : s.holdsFloat = false)
    (hname : s.serviceName ≠ "") : ofText s.text = .ok s := by
  have hdenotes := h.denotes hfloat
  have hvalue : Json.ofText? s.text = some s.toJson := Json.ofText?_compact hdenotes.wellFormed
  exact ofText_eq_ok_iff.mpr ⟨s.toJson, hvalue, hdenotes.read, hname⟩

/-- **A schema is loaded from its own text**, whichever text it was loaded from.  So its
text is also the text of what is loaded from it. -/
theorem ofText_text {text : String} (h : ofText text = .ok s) (hfloat : s.holdsFloat = false) :
    ofText s.text = .ok s := by
  obtain ⟨j, -, hread, hname⟩ := ofText_eq_ok_iff.mp h
  have hreadable := readable_of_read hread
  exact hreadable.loads hfloat hname

end Schema

/-! ## A text in another spelling -/

/-- A text of a schema that is not spelled as its own text: lists stand for records, a
shape is given twice, a member stands out of order and another is not known, fields are
left out or null, and the sources of parameters are an object and a name that is not
known. -/
def looseText : String :=
  "[\"box\", \"\",
    \x7b\"shapes\": \x7b\"Lid\": [\"list\"],
      \"Lid\": \x7b\"color\": 1.5, \"type\": \"map\"\x7d\x7d\x7d,
    \x7b\x7d, \x7b\x7d,
    [[[], null, [[\"Open\", [[\"On\", \x7b\"input\": null\x7d], [\"By\", \"hand\"]]]]]]]"

-- The characters of the text are found by unification, one by one.
set_option maxRecDepth 4000 in
/-- The schema of the text is loaded from its own text. -/
theorem ofText_looseText :
    ∃ s resources, Schema.ofText looseText = .ok s ∧ s.holdsFloat = false ∧
      s.model.shapes.entries = [("Lid", { kind := .map })] ∧
      s.resources = some resources ∧
      resources.service.load = some { request := some ⟨"Open", [⟨"On", .input, none, none⟩,
        ⟨"By", .other, none, none⟩]⟩ } ∧
      Schema.ofText s.text = .ok s := by
  have hchars : looseText.toList = _ := String.toList_ofList
  have hcheck : (Schema.ofText looseText).toOption.any fun s => !s.holdsFloat &&
      decide (s.model.shapes.entries = [("Lid", { kind := .map })]) &&
      s.resources.any fun resources => decide (resources.service.load =
        some { request := some ⟨"Open", [⟨"On", .input, none, none⟩,
          ⟨"By", .other, none, none⟩]⟩ }) := by
    rw [Schema.ofText, Json.ofText?, hchars]
    decide +kernel
  obtain ⟨s, hs, hchecked⟩ := exists_of_any hcheck
  simp only [Bool.and_eq_true, Bool.not_eq_true', decide_eq_true_eq] at hchecked
  obtain ⟨⟨hfloat, hshapes⟩, hresources⟩ := hchecked
  obtain ⟨resources, hsome, hload⟩ := (Option.any_eq_true _ _).mp hresources
  exact ⟨s, resources, hs, hfloat, hshapes, hsome, of_decide_eq_true hload,
    Schema.ofText_text hs hfloat⟩

end ServiceStubs
