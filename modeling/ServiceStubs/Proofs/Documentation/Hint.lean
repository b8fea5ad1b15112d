import ServiceStubs.Proofs.Documentation.Known
import ServiceStubs.Proofs.Text.Split
import ServiceStubs.Proofs.TypeExpr.Legible
import ServiceStubs.TypeExpr.Definition

/-!
# What a type hint means

A hint is one of some words, a reference to a class, the path of a class, or a list or
sequence of what another hint means; any other hint means nothing, and stands for the
type of anything.  The path of a class is a dotted sequence of identifiers, so all that
a hint means can be imported.

Paths are told by their characters and by what stands around their last dot.  A text
may pass that is no path, such as a version number: then its type cannot be imported.
All other hints have the type that they mean.

## Main definitions

* `IsDotted`, `IsImport`, `Importable` — paths, the statements that import from them,
  and the types of which all parts can be imported.
* `Denotes` — what a hint means.
* `Misspelt` — the hints that are taken for paths and are none.
* `importable_typeOfHint` — the type of a hint.
-/

namespace ServiceStubs.Documentation

open Text
open TypeExpr (continuesIdentifier_of_isFieldIdentifier)

/-! ## What can be imported -/

/-- A dotted sequence of identifiers, none of them a keyword. -/
def IsDotted (path : String) : Prop :=
  ∀ part ∈ splitOn '.' path, isFieldIdentifier part

instance : DecidablePred IsDotted := fun path =>
  inferInstanceAs (Decidable (∀ part ∈ splitOn '.' path, isFieldIdentifier part))

/-- A statement that imports a name from a module. -/
def IsImport (statement : String) : Prop :=
  ∃ source name, IsDotted source ∧ isFieldIdentifier name ∧
    statement = "from " ++ source ++ " import " ++ name

/-- Every type of another package inside has an identifier for a name, and a module with
a dotted path, so what it needs is a statement that imports. -/
def Importable (a : TypeExpr) : Prop :=
  ∀ source name asName, .external source name asName ∈ a.nodes →
    IsDotted source.path ∧ isFieldIdentifier name ∧
      IsImport (TypeExpr.external source name asName).headImport.text

/-! ## The forms of hints -/

/-- A list of what another hint means. -/
def IsList (cs inner : List Char) : Prop :=
  cs = "list(".toList ++ inner ++ [')']

/-- A sequence of what another hint means. -/
def IsSequence (cs inner : List Char) : Prop :=
  cs = "sequence(".toList ++ inner ++ [')']

/-- A reference to the class of a name, which is the last part of a path. -/
def RefersTo (cs : List Char) (name : String) : Prop :=
  ∃ path, cs = ":py:class:`".toList ++ path ++ ['\x60'] ∧ path ≠ [] ∧ '\x60' ∉ path ∧
    '.' ∉ name.toList ∧ (path = name.toList ∨ ∃ front, path = front ++ '.' :: name.toList)

/-- One of the words, in upper or lower case. -/
def IsWord (cs : List Char) (word : String) : Prop :=
  word ∈ hintWords.map Prod.fst ∧ lowercased cs = word.toList

/-- The path of a class: that of its module, and its name. -/
def IsPath (cs source name : List Char) : Prop :=
  cs = source ++ '.' :: name ∧ IsDotted (.ofList source) ∧ isFieldIdentifier (.ofList name)

/-- A text of letters, digits, underscores and dots, with something before the last dot
and behind it. -/
structure LooksLikePath (cs source name : List Char) : Prop where
  eq : cs = source ++ '.' :: name
  last : '.' ∉ name
  source_ne : source ≠ []
  name_ne : name ≠ []
  chars : ∀ c ∈ cs, isPathChar c

/-- A hint that means something. -/
inductive Recognised (cs : List Char) : Prop
  | list {inner} (h : IsList cs inner)
  | sequence {inner} (h : IsSequence cs inner)
  | reference {name} (h : RefersTo cs name)
  | word {word} (h : IsWord cs word)
  | path {source name} (h : IsPath cs source name)

/-- What a hint means, given the names of the resources, whatever blanks stand around it
and around the hints inside. -/
inductive Denotes (resources : List String) : List Char → TypeExpr → Prop
  | list {cs inner a} (h : IsList (trim cs) inner) (ha : Denotes resources inner a) :
      Denotes resources cs (.listOf a)
  | sequence {cs inner a} (h : IsSequence (trim cs) inner) (ha : Denotes resources inner a) :
      Denotes resources cs (.subscript .sequence [a])
  | resource {cs name} (h : RefersTo (trim cs) name) (hname : name ∈ resources) :
      Denotes resources cs (.resource name)
  | stranger {cs name} (h : RefersTo (trim cs) name) (hname : name ∉ resources) :
      Denotes resources cs .any
  | word {cs word a} (h : IsWord (trim cs) word) (ha : (word, a) ∈ hintWords) :
      Denotes resources cs a
  | path {cs source name} (h : IsPath (trim cs) source name) :
      Denotes resources cs (.from? (.ofList source) (.ofList name))
  | nothing {cs} (h : ¬Recognised (trim cs)) : Denotes resources cs .any

/-- A hint that looks like a path and is none, or a list or sequence of one. -/
inductive Misspelt : List Char → Prop
  | list {cs inner} (h : IsList (trim cs) inner) (hinner : Misspelt inner) : Misspelt cs
  | sequence {cs inner} (h : IsSequence (trim cs) inner) (hinner : Misspelt inner) : Misspelt cs
  | path {cs source name} (h : LooksLikePath (trim cs) source name)
      (hnot : ¬IsPath (trim cs) source name) : Misspelt cs

variable {resources : List String} {cs inner lead last source name : List Char} {word : String}
  {a : TypeExpr} {depth depth' : Nat}

/-! ## Types that can be imported -/

theorem importable_scalar (c : Scalar) : Importable (.scalar c) := by
  simp [Importable]

theorem importable_resource (name : String) : Importable (.resource name) := by
  simp [Importable, TypeExpr.resource, TypeExpr.inModule]

theorem importable_from_iff {source name : String} :
    Importable (.from? source name) ↔ IsDotted source ∧ isFieldIdentifier name := by
  constructor
  · intro h
    obtain ⟨hsource, hname, -⟩ := h ⟨source⟩ name none (by simp [TypeExpr.from?])
    exact ⟨hsource, hname⟩
  · rintro ⟨hsource, hname⟩ source' name' asName hmem
    simp only [TypeExpr.from?, TypeExpr.nodes, List.mem_singleton, TypeExpr.external.injEq] at hmem
    obtain ⟨rfl, rfl, rfl⟩ := hmem
    have hne : name' ≠ "" := by
      rintro rfl
      exact absurd hname (by decide)
    exact ⟨hsource, hname, source, name', hsource, hname, if_neg hne⟩

theorem importable_subscript_iff {g : Generic} {args : List TypeExpr} :
    Importable (.subscript g args) ↔ ∀ a ∈ args, Importable a := by
  constructor
  · intro h a ha source name asName hmem
    exact h source name asName (TypeExpr.mem_nodes_subscript.mpr (.inr ⟨a, ha, hmem⟩))
  · intro h source name asName hmem
    rcases TypeExpr.mem_nodes_subscript.mp hmem with heq | ⟨a, ha, hmem⟩
    · nomatch heq
    · exact h a ha source name asName hmem

/-- All words mean types that can be imported. -/
theorem importable_hintWords : ∀ w ∈ hintWords, Importable w.2 := by
  have hdatetime : Importable .datetime := importable_from_iff.mpr (by decide +kernel)
  have hbody : Importable .streamingBody := importable_from_iff.mpr (by decide +kernel)
  simp [hintWords, importable_scalar, importable_subscript_iff, hdatetime, hbody, TypeExpr.str,
    TypeExpr.int, TypeExpr.bool, TypeExpr.float, TypeExpr.bytes, TypeExpr.any, TypeExpr.none,
    TypeExpr.looseDict, TypeExpr.dictOf, TypeExpr.listOf, TypeExpr.blobInput, TypeExpr.unionOf]

/-! ## Telling the forms apart -/

/-- What stands between a lead and an end is all that is left without them. -/
theorem between?_eq_some_iff : between? lead last cs = some inner ↔ cs = lead ++ inner ++ last := by
  unfold between?
  by_cases hlead : lead.isPrefixOf cs
  · obtain ⟨rest, rfl⟩ := List.isPrefixOf_iff_prefix.mp hlead
    rw [if_pos hlead, List.drop_left, List.append_assoc, List.append_cancel_left_eq]
    by_cases hlast : last.isSuffixOf rest
    · obtain ⟨front, rfl⟩ := List.isSuffixOf_iff_suffix.mp hlast
      simp
    · have hne : rest ≠ inner ++ last := fun heq =>
        hlast (List.isSuffixOf_iff_suffix.mpr ⟨inner, heq.symm⟩)
      simp [hlast, hne]
  · have hne : cs ≠ lead ++ inner ++ last := fun heq =>
      hlead (List.isPrefixOf_iff_prefix.mpr ⟨inner ++ last, by rw [heq, List.append_assoc]⟩)
    rw [if_neg hlead]
    exact ⟨nofun, fun heq => absurd heq hne⟩

theorem between?_eq_none (h : ∀ inner, cs ≠ lead ++ inner ++ last) : between? lead last cs = none :=
  Option.eq_none_iff_forall_ne_some.mpr fun inner heq => h inner (between?_eq_some_iff.mp heq)

/-- A hint that starts with one of these leads does so in lower case. -/
theorem lowercased_leads :
    lowercased "list(".toList = "list(".toList ∧
      lowercased "sequence(".toList = "sequence(".toList ∧
      lowercased ":py:class:`".toList = ":py:class:`".toList := by
  decide

/-- No word looks like a hint of another form. -/
theorem hintWords_plain : ∀ word ∈ hintWords.map Prod.fst,
    ¬"list(".toList <+: word.toList ∧ ¬"sequence(".toList <+: word.toList ∧
      ¬":py:class:`".toList <+: word.toList ∧ '.' ∉ word.toList := by
  decide

theorem lookup_hintWords : ∀ w ∈ hintWords, hintWords.lookup w.1 = some w.2 := by
  intro w hw
  simp only [hintWords, List.mem_cons, List.not_mem_nil, or_false] at hw
  rcases hw with rfl | rfl | rfl | rfl | rfl | rfl | rfl | rfl | rfl | rfl | rfl | rfl | rfl |
    rfl | rfl | rfl | rfl | rfl <;> rfl

namespace IsWord

variable (h : IsWord cs word)
include h

theorem prefix_of_prefix (hlead : lowercased lead = lead) (hcs : lead <+: cs) :
    lead <+: word.toList := by
  obtain ⟨rest, rfl⟩ := hcs
  refine ⟨lowercased rest, ?_⟩
  calc lead ++ lowercased rest = lowercased lead ++ lowercased rest := by rw [hlead]
    _ = lowercased (lead ++ rest) := List.flatMap_append.symm
    _ = word.toList := h.2

theorem not_isList : ¬IsList cs inner := fun hlist =>
  (hintWords_plain word h.1).1 (h.prefix_of_prefix lowercased_leads.1
    ⟨inner ++ [')'], by rw [hlist, List.append_assoc]⟩)

theorem not_isSequence : ¬IsSequence cs inner := fun hseq =>
  (hintWords_plain word h.1).2.1 (h.prefix_of_prefix lowercased_leads.2.1
    ⟨inner ++ [')'], by rw [hseq, List.append_assoc]⟩)

theorem not_refersTo (name : String) : ¬RefersTo cs name := by
  rintro ⟨path, hcs, -⟩
  exact (hintWords_plain word h.1).2.2.1 (h.prefix_of_prefix lowercased_leads.2.2
    ⟨path ++ ['\x60'], by rw [hcs, List.append_assoc]⟩)

theorem dot_not_mem : '.' ∉ cs := by
  intro hdot
  refine (hintWords_plain word h.1).2.2.2 ?_
  rw [← h.2]
  exact List.mem_flatMap.mpr ⟨'.', hdot, by decide⟩

end IsWord

/-- A sequence is no list, and a reference is neither. -/
theorem not_isList_of_isSequence (h : IsSequence cs inner) (inner' : List Char) :
    ¬IsList cs inner' := by
  intro hlist
  have heq := h.symm.trans hlist
  simp at heq

theorem not_isList_of_refersTo {name : String} (h : RefersTo cs name) : ¬IsList cs inner := by
  obtain ⟨path, hcs, -⟩ := h
  intro hlist
  have heq := hcs.symm.trans hlist
  simp at heq

theorem not_isSequence_of_refersTo {name : String} (h : RefersTo cs name) :
    ¬IsSequence cs inner := by
  obtain ⟨path, hcs, -⟩ := h
  intro hseq
  have heq := hcs.symm.trans hseq
  simp at heq

/-! ## Paths -/

theorem isPathChar_of_continuesIdentifier {c : Char} (h : continuesIdentifier c) :
    isPathChar c := by
  rw [isPathChar, Bool.or_eq_true]
  exact .inl h

/-- A path looks like one. -/
theorem IsPath.looksLikePath (h : IsPath cs source name) : LooksLikePath cs source name := by
  obtain ⟨hcs, hsource, hname⟩ := h
  have hchars := continuesIdentifier_of_isFieldIdentifier hname
  rw [String.toList_ofList] at hchars
  refine ⟨hcs, fun hdot => absurd (hchars '.' hdot) (by decide), ?_, ?_, ?_⟩
  · rintro rfl
    exact absurd hsource (by decide)
  · rintro rfl
    exact absurd hname (by decide)
  · intro c hc
    rw [hcs, List.mem_append, List.mem_cons] at hc
    rcases hc with hc | rfl | hc
    · rw [← String.toList_ofList (l := source)] at hc
      rcases eq_or_exists_splitOn '.' hc with rfl | ⟨part, hpart, hmem⟩
      · decide
      · exact isPathChar_of_continuesIdentifier
          (continuesIdentifier_of_isFieldIdentifier (hsource part hpart) c hmem)
    · decide
    · exact isPathChar_of_continuesIdentifier (hchars c hc)

namespace LooksLikePath

variable (h : LooksLikePath cs source name)
include h

theorem not_mem {c : Char} (hc : isPathChar c = false) : c ∉ cs := fun hmem =>
  Bool.false_ne_true (hc.symm.trans (h.chars c hmem))

theorem not_isList : ¬IsList cs inner := fun hlist =>
  h.not_mem (c := '(') (by decide) (hlist ▸ by simp)

theorem not_isSequence : ¬IsSequence cs inner := fun hseq =>
  h.not_mem (c := '(') (by decide) (hseq ▸ by simp)

theorem not_refersTo (name : String) : ¬RefersTo cs name := by
  rintro ⟨path, hcs, -⟩
  exact h.not_mem (c := ':') (by decide) (hcs ▸ by simp)

theorem not_isWord (word : String) : ¬IsWord cs word := fun hword =>
  hword.dot_not_mem (h.eq ▸ by simp)

/-- The parts are those around the last dot. -/
theorem unique {source' name' : List Char} (h' : LooksLikePath cs source' name') :
    source' = source ∧ name' = name := by
  have hsplit : splitLast '.' (source' ++ '.' :: name') = _ := splitLast_append h'.last
  rw [← h'.eq, h.eq, splitLast_append h.last] at hsplit
  simpa [eq_comm] using hsplit

/-- What only looks like a path means nothing. -/
theorem not_recognised (hnot : ¬IsPath cs source name) : ¬Recognised cs := by
  intro hrec
  cases hrec with
  | list hlist => exact h.not_isList hlist
  | sequence hseq => exact h.not_isSequence hseq
  | reference href => exact h.not_refersTo _ href
  | word hword => exact h.not_isWord _ hword
  | path hpath =>
      obtain ⟨rfl, rfl⟩ := h.unique hpath.looksLikePath
      exact hnot hpath

end LooksLikePath

/-- What looks like a path is taken for one. -/
theorem typeOfPath_of_looksLikePath (h : LooksLikePath cs source name) :
    typeOfPath cs = .from? (.ofList source) (.ofList name) := by
  have hall : cs.all isPathChar = true := List.all_eq_true.mpr h.chars
  rw [typeOfPath, h.eq, splitLast_append h.last, ← h.eq]
  simp [hall, h.source_ne, h.name_ne]

/-- Nothing else is. -/
theorem typeOfPath_eq_any (h : ∀ source name, ¬LooksLikePath cs source name) :
    typeOfPath cs = .any := by
  by_cases hdot : '.' ∈ cs
  · obtain ⟨source, name, hcs, hname⟩ := exists_last hdot
    rw [typeOfPath, hcs, splitLast_append hname, ← hcs]
    refine if_neg fun hpath => ?_
    simp only [Bool.and_eq_true, Bool.not_eq_true', List.isEmpty_eq_false_iff,
      List.all_eq_true] at hpath
    obtain ⟨⟨hchars, hsource⟩, hne⟩ := hpath
    exact h source name ⟨hcs, hname, hsource, hne, hchars⟩
  · rw [typeOfPath, splitLast_of_notMem hdot]

/-! ## Plain hints -/

/-- **References are recognised**, and their classes are named by the last part. -/
theorem referredClass?_eq_some_iff {name : String} :
    referredClass? cs = some name ↔ RefersTo cs name := by
  unfold referredClass?
  simp only [Option.bind_eq_bind, Option.bind_eq_some_iff, between?_eq_some_iff]
  refine exists_congr fun path => and_congr_right fun hcs => ?_
  simp only [Bool.or_eq_true, List.isEmpty_iff, List.contains_iff_mem]
  constructor
  · intro h
    split at h
    · exact absurd h.symm (Option.some_ne_none name)
    · rename_i hpath
      rw [not_or] at hpath
      obtain rfl := Option.some.inj h
      refine ⟨hpath.1, hpath.2, ?_⟩
      by_cases hdot : '.' ∈ path
      · obtain ⟨front, last, rfl, hlast⟩ := exists_last hdot
        simp [splitLast_append hlast, hlast]
      · simp [splitLast_of_notMem hdot, hdot]
  · rintro ⟨hne, htick, hdot, rfl | ⟨front, rfl⟩⟩
    · rw [if_neg (not_or.mpr ⟨hne, htick⟩), splitLast_of_notMem hdot, String.ofList_toList]
    · rw [if_neg (not_or.mpr ⟨hne, htick⟩), splitLast_append hdot, String.ofList_toList]

theorem typeOfPlainHint_of_refersTo {name : String} (h : RefersTo cs name) :
    typeOfPlainHint resources cs = if name ∈ resources then .resource name else .any := by
  rw [typeOfPlainHint, referredClass?_eq_some_iff.mpr h]
  simp only [List.contains_iff_mem]

theorem referredClass?_eq_none (h : ∀ name, ¬RefersTo cs name) : referredClass? cs = none :=
  Option.eq_none_iff_forall_ne_some.mpr fun name heq =>
    h name (referredClass?_eq_some_iff.mp heq)

theorem typeOfPlainHint_of_isWord (h : IsWord cs word) (ha : (word, a) ∈ hintWords) :
    typeOfPlainHint resources cs = a := by
  rw [typeOfPlainHint, referredClass?_eq_none h.not_refersTo]
  simp only [h.2, String.ofList_toList, lookup_hintWords _ ha]

theorem typeOfPlainHint_of_not (hreference : ∀ name, ¬RefersTo cs name)
    (hword : ∀ word, ¬IsWord cs word) : typeOfPlainHint resources cs = typeOfPath cs := by
  have hlookup : hintWords.lookup (.ofList (lowercased cs)) = none := by
    rw [Option.eq_none_iff_forall_ne_some]
    intro a ha
    obtain ⟨l₁, l₂, hsplit, -⟩ := List.lookup_eq_some_iff.mp ha
    refine hword (.ofList (lowercased cs)) ⟨?_, by simp⟩
    rw [hsplit]
    simp
  rw [typeOfPlainHint, referredClass?_eq_none hreference]
  simp only [hlookup]

/-! ## Hints around hints -/

theorem length_trim_le (cs : List Char) : (trim cs).length ≤ cs.length := by
  have hstart : (trimStart cs).length ≤ cs.length := (List.dropWhile_sublist _).length_le
  have hend := (List.dropWhile_sublist (l := (trimStart cs).reverse) isBlank).length_le
  rw [List.length_reverse] at hend
  rw [trim, trimEnd, List.length_reverse]
  exact hend.trans hstart

/-- What a hint wraps is shorter. -/
theorem length_lt_of_wraps (h : trim cs = lead ++ inner ++ [')']) : inner.length < cs.length := by
  have hlength := congrArg List.length h
  have htrim := length_trim_le cs
  rw [List.length_append, List.length_append, List.length_singleton] at hlength
  omega

theorem typeOfHintFrom_list (h : IsList (trim cs) inner) :
    typeOfHintFrom resources (depth + 1) cs = .listOf (typeOfHintFrom resources depth inner) := by
  simp only [typeOfHintFrom, between?_eq_some_iff.mpr h]

theorem typeOfHintFrom_sequence (h : IsSequence (trim cs) inner) :
    typeOfHintFrom resources (depth + 1) cs
      = .subscript .sequence [typeOfHintFrom resources depth inner] := by
  simp only [typeOfHintFrom, between?_eq_none (not_isList_of_isSequence h),
    between?_eq_some_iff.mpr h]

/-- A hint that wraps no other one, whatever the depth. -/
theorem typeOfHintFrom_plain (hdepth : cs.length ≤ depth) (hlist : ∀ inner, ¬IsList (trim cs) inner)
    (hseq : ∀ inner, ¬IsSequence (trim cs) inner) :
    typeOfHintFrom resources depth cs = typeOfPlainHint resources (trim cs) := by
  cases depth with
  | zero =>
      obtain rfl := List.eq_nil_of_length_eq_zero (Nat.le_zero.mp hdepth)
      rfl
  | succ depth =>
      simp only [typeOfHintFrom, between?_eq_none hlist, between?_eq_none hseq]

/-- All depths that cover the length of a hint are alike. -/
theorem typeOfHintFrom_eq (h : cs.length ≤ depth) (h' : cs.length ≤ depth') :
    typeOfHintFrom resources depth cs = typeOfHintFrom resources depth' cs := by
  -- Each hint that is unwrapped takes one from the depth and more than that from the length.
  induction depth generalizing depth' cs with
  | zero =>
      obtain rfl := List.eq_nil_of_length_eq_zero (Nat.le_zero.mp h)
      cases depth' <;> rfl
  | succ depth ih =>
      by_cases hlist : ∃ inner, IsList (trim cs) inner
      · obtain ⟨inner, hlist⟩ := hlist
        have hlt := length_lt_of_wraps hlist
        obtain ⟨depth', rfl⟩ : ∃ d, depth' = d + 1 := ⟨depth' - 1, by omega⟩
        rw [typeOfHintFrom_list hlist, typeOfHintFrom_list hlist,
          ih (by omega : _ ≤ depth) (by omega : _ ≤ depth')]
      · by_cases hseq : ∃ inner, IsSequence (trim cs) inner
        · obtain ⟨inner, hseq⟩ := hseq
          have hlt := length_lt_of_wraps hseq
          obtain ⟨depth', rfl⟩ : ∃ d, depth' = d + 1 := ⟨depth' - 1, by omega⟩
          rw [typeOfHintFrom_sequence hseq, typeOfHintFrom_sequence hseq,
            ih (by omega : _ ≤ depth) (by omega : _ ≤ depth')]
        · rw [typeOfHintFrom_plain h (not_exists.mp hlist) (not_exists.mp hseq),
            typeOfHintFrom_plain h' (not_exists.mp hlist) (not_exists.mp hseq)]

/-! ## The type of a hint -/

theorem typeOfHint_ofList (h : cs.length ≤ depth) :
    typeOfHint resources (.ofList cs) = typeOfHintFrom resources depth cs := by
  rw [typeOfHint, String.toList_ofList]
  exact typeOfHintFrom_eq le_rfl h

theorem typeOfHint_list (h : IsList (trim cs) inner) :
    typeOfHint resources (.ofList cs) = .listOf (typeOfHint resources (.ofList inner)) := by
  have hlt := length_lt_of_wraps h
  rw [typeOfHint_ofList cs.length.le_succ, typeOfHintFrom_list h, typeOfHint_ofList hlt.le]

theorem typeOfHint_sequence (h : IsSequence (trim cs) inner) :
    typeOfHint resources (.ofList cs)
      = .subscript .sequence [typeOfHint resources (.ofList inner)] := by
  have hlt := length_lt_of_wraps h
  rw [typeOfHint_ofList cs.length.le_succ, typeOfHintFrom_sequence h, typeOfHint_ofList hlt.le]

theorem typeOfHint_plain (hlist : ∀ inner, ¬IsList (trim cs) inner)
    (hseq : ∀ inner, ¬IsSequence (trim cs) inner) :
    typeOfHint resources (.ofList cs) = typeOfPlainHint resources (trim cs) := by
  rw [typeOfHint_ofList le_rfl, typeOfHintFrom_plain le_rfl hlist hseq]

theorem typeOfHint_of_refersTo {name : String} (h : RefersTo (trim cs) name) :
    typeOfHint resources (.ofList cs) = if name ∈ resources then .resource name else .any := by
  rw [typeOfHint_plain (fun _ => not_isList_of_refersTo h) fun _ => not_isSequence_of_refersTo h,
    typeOfPlainHint_of_refersTo h]

theorem typeOfHint_of_isWord (h : IsWord (trim cs) word) (ha : (word, a) ∈ hintWords) :
    typeOfHint resources (.ofList cs) = a := by
  rw [typeOfHint_plain (fun _ => h.not_isList) fun _ => h.not_isSequence,
    typeOfPlainHint_of_isWord h ha]

theorem typeOfHint_of_looksLikePath (h : LooksLikePath (trim cs) source name) :
    typeOfHint resources (.ofList cs) = .from? (.ofList source) (.ofList name) := by
  rw [typeOfHint_plain (fun _ => h.not_isList) fun _ => h.not_isSequence,
    typeOfPlainHint_of_not h.not_refersTo h.not_isWord, typeOfPath_of_looksLikePath h]

/-- A hint that neither means something nor looks like a path has the type of anything. -/
theorem typeOfHint_of_not_recognised (h : ¬Recognised (trim cs))
    (hpath : ∀ source name, ¬LooksLikePath (trim cs) source name) :
    typeOfHint resources (.ofList cs) = .any := by
  rw [typeOfHint_plain (fun _ hlist => h (.list hlist)) fun _ hseq => h (.sequence hseq),
    typeOfPlainHint_of_not (fun _ href => h (.reference href)) fun _ hword => h (.word hword),
    typeOfPath_eq_any hpath]

/-! ## What hints mean -/

/-- Every hint means something, if only the type of anything. -/
theorem exists_denotes (resources : List String) (cs : List Char) :
    ∃ a, Denotes resources cs a := by
  induction hlength : cs.length using Nat.strong_induction_on generalizing cs with
  | _ n ih =>
      subst hlength
      by_cases h : Recognised (trim cs)
      · cases h with
        | list h =>
            obtain ⟨a, ha⟩ := ih _ (length_lt_of_wraps h) _ rfl
            exact ⟨_, .list h ha⟩
        | sequence h =>
            obtain ⟨a, ha⟩ := ih _ (length_lt_of_wraps h) _ rfl
            exact ⟨_, .sequence h ha⟩
        | reference h =>
            rename_i name
            by_cases hname : name ∈ resources
            · exact ⟨_, .resource h hname⟩
            · exact ⟨_, .stranger h hname⟩
        | word h =>
            obtain ⟨⟨word, a⟩, ha, rfl⟩ := List.mem_map.mp h.1
            exact ⟨a, .word h ha⟩
        | path h => exact ⟨_, .path h⟩
      · exact ⟨_, .nothing h⟩

/-- All that a hint means can be imported. -/
theorem Denotes.importable (h : Denotes resources cs a) : Importable a := by
  induction h with
  | list _ _ ih => exact importable_subscript_iff.mpr (List.forall_mem_singleton.mpr ih)
  | sequence _ _ ih => exact importable_subscript_iff.mpr (List.forall_mem_singleton.mpr ih)
  | resource => exact importable_resource _
  | stranger => exact importable_scalar _
  | word _ ha => exact importable_hintWords _ ha
  | path h => exact importable_from_iff.mpr h.2
  | nothing => exact importable_scalar _

/-- A hint that is not misspelt has the type that it means. -/
theorem typeOfHint_of_denotes (h : Denotes resources cs a) (hspelt : ¬Misspelt cs) :
    typeOfHint resources (.ofList cs) = a := by
  induction h with
  | list h _ ih => rw [typeOfHint_list h, ih fun hinner => hspelt (.list h hinner)]
  | sequence h _ ih => rw [typeOfHint_sequence h, ih fun hinner => hspelt (.sequence h hinner)]
  | resource h hname => rw [typeOfHint_of_refersTo h, if_pos hname]
  | stranger h hname => rw [typeOfHint_of_refersTo h, if_neg hname]
  | word h ha => exact typeOfHint_of_isWord h ha
  | path h => exact typeOfHint_of_looksLikePath h.looksLikePath
  | nothing h =>
      refine typeOfHint_of_not_recognised h fun source name hlooks => ?_
      exact hspelt (.path hlooks fun hpath => h (.path hpath))

/-- A misspelt hint has a type that cannot be imported. -/
theorem Misspelt.not_importable (h : Misspelt cs) (resources : List String) :
    ¬Importable (typeOfHint resources (.ofList cs)) := by
  induction h with
  | list h _ ih =>
      rw [typeOfHint_list h]
      exact fun himp => ih (importable_subscript_iff.mp himp _ (List.mem_singleton_self _))
  | sequence h _ ih =>
      rw [typeOfHint_sequence h]
      exact fun himp => ih (importable_subscript_iff.mp himp _ (List.mem_singleton_self _))
  | path h hnot =>
      rw [typeOfHint_of_looksLikePath h]
      exact fun himp => hnot ⟨h.eq, importable_from_iff.mp himp⟩

/-- **Hints have the types that they mean**, all of which can be imported, unless they
are misspelt: then they have types that cannot. -/
theorem importable_typeOfHint (resources : List String) (hint : String) :
    (¬Misspelt hint.toList →
        ∀ a, typeOfHint resources hint = a ↔ Denotes resources hint.toList a) ∧
      (Importable (typeOfHint resources hint) ↔ ¬Misspelt hint.toList) ∧
      ∀ a, Denotes resources hint.toList a → Importable a := by
  obtain ⟨a, ha⟩ := exists_denotes resources hint.toList
  have htype : ¬Misspelt hint.toList → typeOfHint resources hint = a := fun hspelt => by
    rw [← typeOfHint_of_denotes ha hspelt, String.ofList_toList]
  refine ⟨fun hspelt b => ⟨?_, fun hb => ?_⟩, ⟨fun himp hmis => ?_, fun hspelt => ?_⟩,
    fun _ hb => hb.importable⟩
  · rintro rfl
    rwa [htype hspelt]
  · rw [← typeOfHint_of_denotes hb hspelt, String.ofList_toList]
  · exact hmis.not_importable resources (String.ofList_toList ▸ himp)
  · rw [htype hspelt]
    exact ha.importable

/-- A version number means nothing, yet is taken for a path, and cannot be imported. -/
theorem typeOfHint_version : ¬Recognised (trim "1.2".toList) ∧
    typeOfHint [] "1.2" = .from? "1" "2" ∧ ¬Importable (typeOfHint [] "1.2") := by
  have hlooks : LooksLikePath (trim "1.2".toList) ['1'] ['2'] :=
    ⟨by decide, by decide, by decide, by decide, List.all_eq_true.mp (by decide)⟩
  have hnot : ¬IsPath (trim "1.2".toList) ['1'] ['2'] := fun hpath =>
    absurd hpath.2.2 (by decide)
  have htype : typeOfHint [] "1.2" = .from? "1" "2" := typeOfHint_of_looksLikePath hlooks
  refine ⟨hlooks.not_recognised hnot, htype, fun himp => ?_⟩
  rw [htype] at himp
  exact absurd (importable_from_iff.mp himp).2 (by decide)

end ServiceStubs.Documentation
