import Mathlib.Data.List.Forall2
import ServiceStubs.Proofs.Documentation.Reading

/-!
# The meaning of a documentation

A documentation cannot be used exactly when a line of it is wrong by itself, or gives a
type for an argument that no line documents.  The first line of the former sort is
reported, and only if there is none the first one of the latter.

What a usable documentation says is found in its lines, and depends on the order of its
directives only within each of the three sorts that say something.

## Main definitions

* `LineFault`, `Orphan` — what is wrong with a line by itself, and beside the others.
* `ofText_eq_error_iff` — exactly when which error is reported.
* `MethodInfo.SaidBy` — what a documentation says, found in its lines.
* `Rearranged` — lines that differ in the order of their directives.
* `saidBy_of_ofText` — what is read is said, however the directives are arranged.
-/

namespace ServiceStubs.Documentation

open Text

/-! ## What is wrong with a line -/

/-- A line is wrong by itself: a directive that needs a name has none, or no type is given
where one is announced. -/
inductive LineFault : List Char → DocError → Prop
  | paramUnnamed {rest : String} {line : List Char} :
      Directive.IsLine ⟨.param, none, rest⟩ line → LineFault line (.missingName "param")
  | typeUnnamed {rest : String} {line : List Char} :
      Directive.IsLine ⟨.type, none, rest⟩ line → LineFault line (.missingName "type")
  | typeEmpty {name : String} {line : List Char} :
      Directive.IsLine ⟨.type, some name, ""⟩ line → LineFault line (.emptyType name)

/-- A line gives a type for an argument that none of the lines documents. -/
inductive Orphan (ls : List (List Char)) : List Char → DocError → Prop
  | type {name rest : String} {line : List Char} :
      Directive.IsLine ⟨.type, some name, rest⟩ line →
      (∀ l ∈ ls, ∀ rest, ¬ Directive.IsLine ⟨.param, some name, rest⟩ l) →
      Orphan ls line (.orphanType name)

/-- The error is that of the first line of which something is wrong. -/
def IsFirst (Wrong : List Char → DocError → Prop) (ls : List (List Char)) (e : DocError) : Prop :=
  ∃ before line after, ls = before ++ line :: after ∧ Wrong line e ∧
    ∀ l ∈ before, ∀ e', ¬ Wrong l e'

variable {resources : List String} {text : String} {ls : List (List Char)} {l : List Char}
  {e : DocError} {Wrong : List Char → DocError → Prop}

/-- Some line of which something is wrong is the first one. -/
theorem exists_isFirst (h : ∃ l ∈ ls, ∃ e, Wrong l e) : ∃ e, IsFirst Wrong ls e := by
  induction ls with
  | nil => simp at h
  | cons l ls ih =>
      by_cases hl : ∃ e, Wrong l e
      · obtain ⟨e, he⟩ := hl
        exact ⟨e, [], l, ls, rfl, he, by simp⟩
      · obtain ⟨l', hl', he⟩ := h
        have hls : ∃ l ∈ ls, ∃ e, Wrong l e := by
          rcases List.mem_cons.mp hl' with rfl | hl'
          · exact absurd he hl
          · exact ⟨l', hl', he⟩
        obtain ⟨e, before, line, after, rfl, hline, hbefore⟩ := ih hls
        refine ⟨e, l :: before, line, after, rfl, hline, ?_⟩
        exact List.forall_mem_cons.mpr ⟨not_exists.mp hl, hbefore⟩

theorem Directive.kind_of_fault {d : Directive} (h : d.fault? = some e) :
    d.kind = .param ∨ d.kind = .type := by
  obtain ⟨kind, name, rest⟩ := d
  cases kind with
  | param => exact .inl rfl
  | type => exact .inr rfl
  | returnType => simp [Directive.fault?] at h
  | remark => simp [Directive.fault?] at h

/-- What is wrong with a line by itself is what is wrong with its directive. -/
theorem lineFault_iff : LineFault l e ↔ ∃ d : Directive, d.IsLine l ∧ d.fault? = some e := by
  constructor
  · rintro (h | h | h) <;> exact ⟨_, h, rfl⟩
  · rintro ⟨⟨kind, name, rest⟩, hd, hfault⟩
    rcases Directive.kind_of_fault hfault with rfl | rfl
    · cases name with
      | none =>
          obtain rfl := Option.some.inj hfault
          exact .paramUnnamed hd
      | some name => simp [Directive.fault?] at hfault
    · cases name with
      | none =>
          obtain rfl := Option.some.inj hfault
          exact .typeUnnamed hd
      | some name =>
          by_cases hrest : rest = ""
          · subst hrest
            obtain rfl := Option.some.inj hfault
            exact .typeEmpty hd
          · simp [Directive.fault?, hrest] at hfault

theorem lineFault?_eq_some_iff : lineFault? l = some e ↔ LineFault l e := by
  rw [lineFault?, Option.bind_eq_some_iff, lineFault_iff]
  simp only [Directive.ofLine?_eq_some_iff]

theorem lineFault?_eq_none (h : ∀ e, ¬ LineFault l e) : lineFault? l = none :=
  Option.eq_none_iff_forall_ne_some.mpr fun e he => h e (lineFault?_eq_some_iff.mp he)

/-! ## Documented arguments and hints -/

theorem mem_ofKind_iff {kind : DirectiveKind} {d : Directive} :
    d ∈ ofKind kind ls ↔ d.kind = kind ∧ ∃ l ∈ ls, d.IsLine l := by
  simp [ofKind, directives, Directive.ofLine?_eq_some_iff, and_comm]

theorem mem_documentedNames_iff {name : String} :
    name ∈ documentedNames (ofKind .param ls) ↔
      ∃ l ∈ ls, ∃ rest, Directive.IsLine ⟨.param, some name, rest⟩ l := by
  rw [documentedNames, List.mem_filterMap]
  constructor
  · rintro ⟨⟨kind, n, rest⟩, hd, rfl⟩
    obtain ⟨rfl, l, hl, hline⟩ := mem_ofKind_iff.mp hd
    exact ⟨l, hl, rest, hline⟩
  · rintro ⟨l, hl, rest, hline⟩
    exact ⟨_, mem_ofKind_iff.mpr ⟨rfl, l, hl, hline⟩, rfl⟩

theorem mem_hintsOf_iff {hint : String × String} :
    hint ∈ hintsOf (ofKind .type ls) ↔
      ∃ l ∈ ls, Directive.IsLine ⟨.type, some hint.1, hint.2⟩ l := by
  rw [hintsOf, List.mem_filterMap]
  constructor
  · rintro ⟨⟨kind, n, rest⟩, hd, hhint⟩
    obtain ⟨rfl, l, hl, hline⟩ := mem_ofKind_iff.mp hd
    obtain ⟨name, rfl, rfl⟩ := Option.map_eq_some_iff.mp hhint
    exact ⟨l, hl, hline⟩
  · rintro ⟨l, hl, hline⟩
    exact ⟨_, mem_ofKind_iff.mpr ⟨rfl, l, hl, hline⟩, rfl⟩

theorem hintsOf_append {before after : List (List Char)} {name rest : String}
    (h : Directive.IsLine ⟨.type, some name, rest⟩ l) :
    hintsOf (ofKind .type (before ++ l :: after)) =
      hintsOf (ofKind .type before) ++ (name, rest) :: hintsOf (ofKind .type after) := by
  simp [hintsOf, ofKind, directives, Directive.ofLine?_eq_some_iff.mpr h]

/-- A line that is no orphan gives a type for an argument that some line documents. -/
theorem mem_documentedNames_of_not_orphan {name rest : String}
    (h : Directive.IsLine ⟨.type, some name, rest⟩ l) (hl : ∀ e, ¬ Orphan ls l e) :
    name ∈ documentedNames (ofKind .param ls) := by
  by_contra hname
  refine hl _ (.type h fun l' hl' rest' hline => hname ?_)
  exact mem_documentedNames_iff.mpr ⟨l', hl', rest', hline⟩

/-! ## Documentation that cannot be used -/

theorem ofText_of_isFirst_lineFault (h : IsFirst LineFault (textLines text) e) :
    MethodInfo.ofText resources text = .error e := by
  obtain ⟨before, line, after, htext, hline, hbefore⟩ := h
  exact ofText_of_fault htext (fun l hl => lineFault?_eq_none (hbefore l hl))
    (lineFault?_eq_some_iff.mpr hline)

theorem ofText_of_isFirst_orphan (hlines : ∀ l ∈ textLines text, ∀ e, ¬ LineFault l e)
    (h : IsFirst (Orphan (textLines text)) (textLines text) e) :
    MethodInfo.ofText resources text = .error e := by
  obtain ⟨before, line, after, htext, hline, hbefore⟩ := h
  obtain @⟨name, rest, _, hline, hname⟩ := hline
  have hhints : hintsOf (ofKind .type (textLines text)) =
      hintsOf (ofKind .type before) ++ (name, rest) :: hintsOf (ofKind .type after) := by
    rw [htext, hintsOf_append hline]
  refine ofText_of_orphan (fun l hl => lineFault?_eq_none (hlines l hl)) hhints ?_ ?_
  · intro hint hhint
    obtain ⟨l, hl, hl'⟩ := mem_hintsOf_iff.mp hhint
    exact mem_documentedNames_of_not_orphan hl' (hbefore l hl)
  · intro hmem
    obtain ⟨l, hl, rest', hl'⟩ := mem_documentedNames_iff.mp hmem
    exact hname l hl rest' hl'

/-- Documentation of which nothing is wrong is read. -/
theorem ofText_of_nothing_wrong
    (h : ¬ ∃ l ∈ textLines text, ∃ e, LineFault l e ∨ Orphan (textLines text) l e) :
    MethodInfo.ofText resources text = .ok (said resources (textLines text)) := by
  simp only [not_exists, not_and, not_or] at h
  refine ofText_of_sound (fun l hl => lineFault?_eq_none fun e => (h l hl e).1) fun hint hhint => ?_
  obtain ⟨l, hl, hline⟩ := mem_hintsOf_iff.mp hhint
  exact mem_documentedNames_of_not_orphan hline fun e => (h l hl e).2

/-- The error that is reported: that of the first line that is wrong by itself or, if there
is none, that of the first one that gives a type for an argument which is not documented. -/
def Reported (ls : List (List Char)) (e : DocError) : Prop :=
  IsFirst LineFault ls e ∨
    (∀ l ∈ ls, ∀ e', ¬ LineFault l e') ∧ IsFirst (Orphan ls) ls e

theorem ofText_of_reported (h : Reported (textLines text) e) :
    MethodInfo.ofText resources text = .error e := by
  rcases h with h | ⟨hlines, h⟩
  · exact ofText_of_isFirst_lineFault h
  · exact ofText_of_isFirst_orphan hlines h

theorem exists_reported (h : ∃ l ∈ ls, ∃ e, LineFault l e ∨ Orphan ls l e) :
    ∃ e, Reported ls e := by
  by_cases hlines : ∃ l ∈ ls, ∃ e, LineFault l e
  · obtain ⟨e, he⟩ := exists_isFirst hlines
    exact ⟨e, .inl he⟩
  · simp only [not_exists, not_and] at hlines
    obtain ⟨l, hl, e, hwrong⟩ := h
    obtain ⟨e, he⟩ := exists_isFirst ⟨l, hl, e, hwrong.resolve_left (hlines l hl e)⟩
    exact ⟨e, .inr ⟨hlines, he⟩⟩

/-- A documentation that cannot be used has a line of which something is wrong. -/
theorem exists_wrong_of_error (h : MethodInfo.ofText resources text = .error e) :
    ∃ l ∈ textLines text, ∃ e, LineFault l e ∨ Orphan (textLines text) l e := by
  by_contra hnothing
  nomatch h.symm.trans (ofText_of_nothing_wrong hnothing)

/-- Only arguments and their types can be wrong. -/
theorem exists_isLine_of_wrong (h : LineFault l e ∨ Orphan ls l e) :
    ∃ d : Directive, d.IsLine l ∧ (d.kind = .param ∨ d.kind = .type) := by
  rcases h with h | ⟨h, -⟩
  · obtain ⟨d, hline, hfault⟩ := lineFault_iff.mp h
    exact ⟨d, hline, Directive.kind_of_fault hfault⟩
  · exact ⟨_, h, .inr rfl⟩

/-- **Exactly when a documentation cannot be used, and why**: some line is wrong by itself
or beside the others, which only directives for arguments and types are, and the first one
is reported. -/
theorem ofText_eq_error_iff (resources : List String) (text : String) :
    ((∃ e, MethodInfo.ofText resources text = .error e) ↔
      ∃ l ∈ textLines text, ∃ e, LineFault l e ∨ Orphan (textLines text) l e) ∧
    (∀ e, MethodInfo.ofText resources text = .error e ↔ Reported (textLines text) e) ∧
    ∀ l ∈ textLines text, ∀ e, LineFault l e ∨ Orphan (textLines text) l e →
      ∃ d : Directive, d.IsLine l ∧ (d.kind = .param ∨ d.kind = .type) := by
  refine ⟨⟨fun ⟨e, he⟩ => exists_wrong_of_error he, fun h => ?_⟩, fun e => ⟨fun h => ?_, ?_⟩,
    fun l _ e => exists_isLine_of_wrong⟩
  · obtain ⟨e, he⟩ := exists_reported h
    exact ⟨e, ofText_of_reported he⟩
  · obtain ⟨e', he'⟩ := exists_reported (exists_wrong_of_error h)
    obtain rfl := Except.error.inj (h.symm.trans (ofText_of_reported he'))
    exact he'
  · exact ofText_of_reported

example : MethodInfo.ofText [] ":type Key: string\n:param: nameless" =
    .error (.missingName "param") := by
  rfl

/-! ## What is said -/

/-- What the lines of a documentation say about a method. -/
structure MethodInfo.SaidBy (info : MethodInfo) (resources : List String)
    (ls : List (List Char)) : Prop where
  /-- The description is made of the lines before the first directive. -/
  description : info.description = plain (.ofList ([' '].intercalate (prose ls)))
  /-- Each documented argument is there once, in the order in which they come up. -/
  names : info.arguments.map (·.name) = (documentedNames (ofKind .param ls)).eraseDups
  /-- The first line for an argument says whether it is required. -/
  required : ∀ a ∈ info.arguments, a.required ↔
    ∃ d ∈ (named a.name (ofKind .param ls)).head?, "[REQUIRED]".toList <:+: d.rest.toList
  /-- The last type that is given for an argument counts, wherever it is given. -/
  type : ∀ a ∈ info.arguments, a.type =
    ((named a.name (ofKind .type ls)).getLast?.map (typeOfHint resources ·.rest)).getD .any
  /-- The last type that is returned counts. -/
  returnType : info.returnType =
    ((ofKind .returnType ls).filter (·.rest ≠ "")).getLast?.map (typeOfHint resources ·.rest)

theorem filter_hintsOf (name : String) (types : List Directive) :
    (hintsOf types).filter (·.1 = name) = (named name types).map fun d => (name, d.rest) := by
  induction types with
  | nil => rfl
  | cons d types ih =>
      obtain ⟨kind, n, rest⟩ := d
      simp only [hintsOf, named] at ih
      by_cases hn : n = some name
      · simp [hintsOf, named, hn, ih]
      · cases n with
        | none => simp [hintsOf, named, ih]
        | some n => simp_all [hintsOf, named]

theorem withType_hintsOf (types : List Directive) (a : ArgumentInfo) :
    withType resources (hintsOf types) a = { a with
      type := ((named a.name types).getLast?.map (typeOfHint resources ·.rest)).getD a.type } := by
  rw [withType, filter_hintsOf, List.getLast?_map]
  cases (named a.name types).getLast? <;> rfl

theorem arguments_said (resources : List String) (ls : List (List Char)) :
    (said resources ls).arguments =
      (documentedNames (ofKind .param ls)).eraseDups.map fun name =>
        { name
          type := ((named name (ofKind .type ls)).getLast?.map
            (typeOfHint resources ·.rest)).getD .any
          required := isRequired (ofKind .param ls) name } := by
  rw [said, documentedArguments, List.map_map]
  exact List.map_congr_left fun name _ => withType_hintsOf _ _

theorem isRequired_iff {params : List Directive} {name : String} : isRequired params name ↔
    ∃ d ∈ (named name params).head?, "[REQUIRED]".toList <:+: d.rest.toList := by
  rw [isRequired, Option.any_eq_true]
  simp only [occursIn_iff, Option.mem_def]

theorem said_saidBy (resources : List String) (ls : List (List Char)) :
    (said resources ls).SaidBy resources ls where
  description := rfl
  names := by
    rw [arguments_said, List.map_map]
    exact List.map_id _
  required a ha := by
    rw [arguments_said, List.mem_map] at ha
    obtain ⟨name, -, rfl⟩ := ha
    exact isRequired_iff
  type a ha := by
    rw [arguments_said, List.mem_map] at ha
    obtain ⟨name, -, rfl⟩ := ha
    rfl
  returnType := rfl

/-! ## The order of directives -/

/-- Lines of which some that are directives have changed places with each other: the other
lines are where they were, and the directives of each sort that says something come in the
order in which they came. -/
structure Rearranged (ls ls' : List (List Char)) : Prop where
  places : List.Forall₂ (fun l l' =>
    l' = l ∨ (Directive.ofLine? l).isSome ∧ (Directive.ofLine? l').isSome) ls ls'
  order : ∀ kind ≠ .remark, ofKind kind ls' = ofKind kind ls

namespace Rearranged

variable {ls' : List (List Char)}

/-- The first directive stays where it was, and so does what stands before it. -/
theorem prose_eq (h : Rearranged ls ls') : prose ls' = prose ls := by
  obtain ⟨hplaces, -⟩ := h
  induction hplaces with
  | nil => rfl
  | @cons l l' ls ls' hline _ ih =>
      rcases hline with rfl | ⟨hl, hl'⟩
      · cases hd : Directive.ofLine? l' with
        | some d => rw [prose_cons_of_some hd, prose_cons_of_some hd]
        | none => rw [prose_cons_of_none hd, prose_cons_of_none hd, ih]
      · obtain ⟨d, hd⟩ := Option.isSome_iff_exists.mp hl
        obtain ⟨d', hd'⟩ := Option.isSome_iff_exists.mp hl'
        rw [prose_cons_of_some hd, prose_cons_of_some hd']

theorem said_eq (h : Rearranged ls ls') : said resources ls' = said resources ls := by
  rw [said, said, h.prose_eq, h.order .param nofun, h.order .type nofun, h.order .returnType nofun]

/-- A line for an argument or a type is one of those that were there. -/
theorem exists_isLine (h : Rearranged ls ls') {d : Directive} (hkind : d.kind ≠ .remark) :
    (∃ l ∈ ls', d.IsLine l) ↔ ∃ l ∈ ls, d.IsLine l := by
  have hmem : d ∈ ofKind d.kind ls' ↔ d ∈ ofKind d.kind ls := by rw [h.order d.kind hkind]
  simpa [mem_ofKind_iff] using hmem

/-- What is wrong afterwards was wrong before. -/
theorem exists_wrong (h : Rearranged ls ls')
    (hwrong : ∃ l ∈ ls', ∃ e, LineFault l e ∨ Orphan ls' l e) :
    ∃ l ∈ ls, ∃ e, LineFault l e ∨ Orphan ls l e := by
  obtain ⟨l', hl', e, hfault | ⟨hline, hname⟩⟩ := hwrong
  · obtain ⟨d, hline, hfault⟩ := lineFault_iff.mp hfault
    have hkind : d.kind ≠ .remark := by
      rcases Directive.kind_of_fault hfault with hkind | hkind <;> simp [hkind]
    obtain ⟨l, hl, hline⟩ := (h.exists_isLine hkind).mp ⟨l', hl', hline⟩
    exact ⟨l, hl, e, .inl (lineFault_iff.mpr ⟨d, hline, hfault⟩)⟩
  · obtain ⟨l, hl, hline⟩ := (h.exists_isLine (by simp)).mp ⟨l', hl', hline⟩
    refine ⟨l, hl, _, .inr (.type hline fun l₀ hl₀ rest₀ hline₀ => ?_)⟩
    obtain ⟨l₁, hl₁, hline₁⟩ := (h.exists_isLine (by simp)).mpr ⟨l₀, hl₀, hline₀⟩
    exact hname l₁ hl₁ rest₀ hline₁

end Rearranged

/-- Documentation that is read has no line of which something is wrong. -/
theorem not_wrong_of_ofText {info : MethodInfo} (h : MethodInfo.ofText resources text = .ok info) :
    ¬ ∃ l ∈ textLines text, ∃ e, LineFault l e ∨ Orphan (textLines text) l e := by
  intro hwrong
  obtain ⟨e, he⟩ := exists_reported hwrong
  nomatch h.symm.trans (ofText_of_reported he)

/-- **What a documentation says is found in its lines, and saying it in another order of
the directives says the same.** -/
theorem saidBy_of_ofText {info : MethodInfo} (h : MethodInfo.ofText resources text = .ok info) :
    info.SaidBy resources (textLines text) ∧
      ∀ text', Rearranged (textLines text) (textLines text') →
        MethodInfo.ofText resources text' = .ok info := by
  have hright := not_wrong_of_ofText h
  obtain rfl := Except.ok.inj (h.symm.trans (ofText_of_nothing_wrong hright))
  refine ⟨said_saidBy resources _, fun text' hrearranged => ?_⟩
  rw [ofText_of_nothing_wrong (mt hrearranged.exists_wrong hright), hrearranged.said_eq]

/-! ## A documentation in two arrangements -/

/-- The key has a type before its line and another one behind it, it is documented twice,
and the type that is returned is given before it is left out. -/
def keyText : String :=
"Copies a key.
:type Key: string
:returns: the copy
:param Key: [REQUIRED] the key
:rtype: dict
:param Size: how much
:type Key: integer
:param Key: again
:rtype:
Done."

/-- The same lines, with those for the types behind those for the arguments. -/
def keyText' : String :=
"Copies a key.
:rtype: dict
:param Key: [REQUIRED] the key
:param Size: how much
:rtype:
:type Key: string
:param Key: again
:type Key: integer
:returns: the copy
Done."

-- The characters of the texts are found by unification, one by one.
set_option maxRecDepth 4000 in
theorem rearranged_keyText : Rearranged (textLines keyText) (textLines keyText') := by
  have hchars : keyText.toList = _ := String.toList_ofList
  have hchars' : keyText'.toList = _ := String.toList_ofList
  rw [textLines, textLines, hchars, hchars']
  refine ⟨by decide +kernel, fun kind hkind => ?_⟩
  cases kind with
  | param => decide +kernel
  | type => decide +kernel
  | returnType => decide +kernel
  | remark => exact absurd rfl hkind

set_option maxRecDepth 4000 in
/-- The key is an integer that is required, and of the size nothing more is known. -/
theorem saidBy_keyText :
    ∃ info, MethodInfo.ofText [] keyText = .ok info ∧ info.SaidBy [] (textLines keyText) ∧
      Rearranged (textLines keyText) (textLines keyText') ∧
      MethodInfo.ofText [] keyText' = .ok info ∧ info.description = "Copies a key." ∧
      info.arguments.map (fun a => (a.name, a.type.text, a.required)) =
        [("Key", "int", true), ("Size", "Any", false)] ∧
      info.returnType.map TypeExpr.text = some "Dict[str, Any]" := by
  have hchars : keyText.toList = _ := String.toList_ofList
  have hcheck : (MethodInfo.ofText [] keyText).toOption.any fun info =>
      decide (info.description = "Copies a key.") &&
      decide (info.arguments.map (fun a => (a.name, a.type.text, a.required)) =
        [("Key", "int", true), ("Size", "Any", false)]) &&
      decide (info.returnType.map TypeExpr.text = some "Dict[str, Any]") := by
    rw [MethodInfo.ofText, hchars]
    decide +kernel
  obtain ⟨info, hinfo, hchecked⟩ := exists_of_any hcheck
  simp only [Bool.and_eq_true, decide_eq_true_eq] at hchecked
  obtain ⟨hsaid, hsame⟩ := saidBy_of_ofText hinfo
  exact ⟨info, hinfo, hsaid, rearranged_keyText, hsame _ rearranged_keyText, hchecked.1.1,
    hchecked.1.2, hchecked.2⟩

end ServiceStubs.Documentation
