import Mathlib.Data.List.Induction
import ServiceStubs.Documentation.Basic
import ServiceStubs.Proofs.Documentation.Directive
import ServiceStubs.Proofs.Session.Execution
import ServiceStubs.Proofs.Text.Replace

/-!
# What the lines of a documentation say

Documentation is read line by line, and hints are given to arguments when all lines are
read.  What comes out can be looked up in the lines: an argument is required if its first
line says so, its type is the last one that is given, and so is the type that is returned.

## Main definitions

* `textLines`, `directives`, `ofKind`, `prose` — the lines of a documentation, the
  directives among them, and the description before these.
* `readOf` — what is read, as look-ups in the lines.
* `foldlM_addLine` — lines of which none is faulty are read so.
* `foldlM_giveType` — every argument gets the last type that is given for it.
* `said`, `ofText_of_sound` — what a documentation says of which nothing is wrong.
-/

namespace ServiceStubs.Documentation

open Text

/-! ## Lines -/

/-- The lines of a documentation, without the blanks around them. -/
def textLines (text : String) : List (List Char) :=
  (lines text.toList).map trim

/-- The directives among some lines. -/
def directives (ls : List (List Char)) : List Directive :=
  ls.filterMap Directive.ofLine?

/-- The directives of one kind. -/
def ofKind (kind : DirectiveKind) (ls : List (List Char)) : List Directive :=
  (directives ls).filter (·.kind = kind)

/-- The lines before the first directive that are not empty. -/
def prose (ls : List (List Char)) : List (List Char) :=
  (ls.takeWhile fun l => (Directive.ofLine? l).isNone).filter (!·.isEmpty)

variable {ls : List (List Char)} {l : List Char} {d : Directive}

theorem ofKind_concat (kind : DirectiveKind) (h : Directive.ofLine? l = some d) :
    ofKind kind (ls ++ [l]) = ofKind kind ls ++ if d.kind = kind then [d] else [] := by
  simp [ofKind, directives, h, List.filter_cons]

theorem ofKind_concat_of_none (kind : DirectiveKind) (h : Directive.ofLine? l = none) :
    ofKind kind (ls ++ [l]) = ofKind kind ls := by
  simp [ofKind, directives, h]

theorem prose_cons_of_some (h : Directive.ofLine? l = some d) (ls : List (List Char)) :
    prose (l :: ls) = [] := by
  simp [prose, h]

theorem prose_cons_of_none (h : Directive.ofLine? l = none) (ls : List (List Char)) :
    prose (l :: ls) = (if l.isEmpty then [] else [l]) ++ prose ls := by
  cases l <;> simp [prose, h]

/-- Directives are no description. -/
theorem prose_concat_of_some (h : Directive.ofLine? l = some d) (ls : List (List Char)) :
    prose (ls ++ [l]) = prose ls := by
  induction ls with
  | nil => exact prose_cons_of_some h []
  | cons l' ls ih =>
      cases h' : Directive.ofLine? l' with
      | some d' => rw [List.cons_append, prose_cons_of_some h', prose_cons_of_some h']
      | none => rw [List.cons_append, prose_cons_of_none h', prose_cons_of_none h', ih]

/-- Behind the first directive there is no description. -/
theorem prose_concat_of_none (h : Directive.ofLine? l = none) (ls : List (List Char)) :
    prose (ls ++ [l]) = prose ls ++
      if (ls.any fun l => (Directive.ofLine? l).isSome) || l.isEmpty then [] else [l] := by
  induction ls with
  | nil => cases l <;> simp [prose, h]
  | cons l' ls ih =>
      cases h' : Directive.ofLine? l' with
      | some d' => simp [prose_cons_of_some h', h']
      | none => simp [prose_cons_of_none h', ih, h']

/-! ## Look-ups -/

/-- The names of the arguments that are documented, as often as they are. -/
def documentedNames (params : List Directive) : List String :=
  params.filterMap (·.name)

/-- The directives that have the name. -/
def named (name : String) (ds : List Directive) : List Directive :=
  ds.filter (·.name = some name)

/-- The first directive for an argument says that it is required. -/
def isRequired (params : List Directive) (name : String) : Bool :=
  (named name params).head?.any fun d => occursIn "[REQUIRED]".toList d.rest.toList

/-- The arguments that are documented, each once. -/
def documentedArguments (params : List Directive) : List ArgumentInfo :=
  (documentedNames params).eraseDups.map fun name =>
    { name, required := isRequired params name }

/-- The hints with the names of their arguments. -/
def hintsOf (types : List Directive) : List (String × String) :=
  types.filterMap fun d => d.name.map (·, d.rest)

/-- The last type that is returned. -/
def returnSaid (resources : List String) (returns : List Directive) : Option TypeExpr :=
  (returns.filter (·.rest ≠ "")).getLast?.map (typeOfHint resources ·.rest)

/-- What has been read of some lines of which none is faulty. -/
def readOf (resources : List String) (ls : List (List Char)) : Reading where
  inDirectives := ls.any fun l => (Directive.ofLine? l).isSome
  description := prose ls
  arguments := documentedArguments (ofKind .param ls)
  hints := hintsOf (ofKind .type ls)
  returnType := returnSaid resources (ofKind .returnType ls)

variable {resources : List String} {params : List Directive} {name : String} {e : DocError}

theorem eraseDups_concat (names : List String) (name : String) :
    (names ++ [name]).eraseDups =
      names.eraseDups ++ if name ∈ names then [] else [name] := by
  rw [List.eraseDups_append]
  split <;> simp_all [List.removeAll, List.eraseDups_cons]

theorem named_eq_nil_iff : named name params = [] ↔ name ∉ documentedNames params := by
  simp [named, documentedNames, List.filter_eq_nil_iff, List.mem_filterMap]

theorem named_append (name : String) (ds ds' : List Directive) :
    named name (ds ++ ds') = named name ds ++ named name ds' :=
  List.filter_append ds ds'

/-- What the first directive says is not changed by others. -/
theorem isRequired_append (h : name ∈ documentedNames params) (ds : List Directive) :
    isRequired (params ++ ds) name = isRequired params name := by
  have hne : named name params ≠ [] := mt named_eq_nil_iff.mp (not_not_intro h)
  obtain ⟨d, rest, hd⟩ := List.exists_cons_of_ne_nil hne
  simp [isRequired, named_append, hd]

/-- A directive for an argument that is not documented yet is its first one. -/
theorem isRequired_concat (h : name ∉ documentedNames params) (hname : d.name = some name) :
    isRequired (params ++ [d]) name = occursIn "[REQUIRED]".toList d.rest.toList := by
  have hd : named name [d] = [d] := by simp [named, hname]
  rw [isRequired, named_append, named_eq_nil_iff.mpr h, hd]
  rfl

theorem documentedArguments_concat (hname : d.name = some name) :
    documentedArguments (params ++ [d]) = documentedArguments params ++
      if name ∈ documentedNames params then []
      else [{ name, required := occursIn "[REQUIRED]".toList d.rest.toList }] := by
  have hnames : documentedNames (params ++ [d]) = documentedNames params ++ [name] := by
    simp [documentedNames, hname]
  have hold : ∀ n ∈ (documentedNames params).eraseDups,
      ({ name := n, required := isRequired (params ++ [d]) n } : ArgumentInfo) =
        { name := n, required := isRequired params n } := by
    intro n hn
    rw [isRequired_append (List.mem_eraseDups.mp hn)]
  rw [documentedArguments, hnames, eraseDups_concat, List.map_append, List.map_congr_left hold]
  split
  · rfl
  · next h => rw [List.map_singleton, isRequired_concat h hname]; rfl

/-- An argument is known when it is documented. -/
theorem any_documentedArguments :
    (documentedArguments params).any (·.name = name) ↔ name ∈ documentedNames params := by
  simp [documentedArguments]

theorem addArgument_eq {r : Reading} {rest : String} (hname : d.name = some name)
    (hrest : d.rest = rest) (hr : r.arguments = documentedArguments params) :
    r.addArgument name rest = { r with arguments := documentedArguments (params ++ [d]) } := by
  rw [documentedArguments_concat hname, Reading.addArgument, hr, hrest]
  by_cases h : name ∈ documentedNames params
  · rw [if_pos (any_documentedArguments.mpr h), if_pos h, List.append_nil, ← hr]
  · rw [if_neg (mt any_documentedArguments.mp h), if_neg h]

/-! ## Faults of a line -/

/-- What is wrong with a directive by itself. -/
def Directive.fault? (d : Directive) : Option DocError :=
  match d.kind, d.name with
  | .param, none => some (.missingName "param")
  | .type, none => some (.missingName "type")
  | .type, some name => if d.rest = "" then some (.emptyType name) else none
  | _, _ => none

/-- What is wrong with a line by itself. -/
def lineFault? (l : List Char) : Option DocError :=
  (Directive.ofLine? l).bind Directive.fault?

theorem addLine_of_fault (h : lineFault? l = some e) (r : Reading) :
    r.addLine resources l = .error e := by
  obtain ⟨d, hd, hfault⟩ := Option.bind_eq_some_iff.mp h
  obtain ⟨kind, name, rest⟩ := d
  rw [Reading.addLine, hd]
  cases kind <;> cases name <;> simp_all [Directive.fault?, Reading.addDirective]

/-- What is read with one more directive. -/
theorem readOf_concat (hd : Directive.ofLine? l = some d) :
    readOf resources (ls ++ [l]) =
      { inDirectives := true
        description := prose ls
        arguments := documentedArguments (ofKind .param ls ++ if d.kind = .param then [d] else [])
        hints := hintsOf (ofKind .type ls ++ if d.kind = .type then [d] else [])
        returnType := returnSaid resources
          (ofKind .returnType ls ++ if d.kind = .returnType then [d] else []) } := by
  rw [readOf, ofKind_concat _ hd, ofKind_concat _ hd, ofKind_concat _ hd, prose_concat_of_some hd]
  simp [hd]

theorem addDirective_readOf (hd : Directive.ofLine? l = some d) (h : d.fault? = none) :
    (readOf resources ls).addDirective resources d = .ok (readOf resources (ls ++ [l])) := by
  obtain ⟨kind, name, rest⟩ := d
  rw [readOf_concat hd, Reading.addDirective]
  cases kind with
  | param =>
      cases name with
      | none => simp [Directive.fault?] at h
      | some name =>
          simp only [if_true, reduceCtorEq, if_false, List.append_nil]
          have hread : (readOf resources ls).arguments = documentedArguments (ofKind .param ls) :=
            rfl
          exact congrArg Except.ok (addArgument_eq (d := ⟨.param, some name, rest⟩) rfl rfl hread)
  | type =>
      cases name with
      | none => simp [Directive.fault?] at h
      | some name =>
          have hrest : rest ≠ "" := by simpa [Directive.fault?] using h
          simp [hrest, readOf, hintsOf]
  | returnType =>
      by_cases hrest : rest = ""
      · simp [hrest, readOf, returnSaid]
      · simp [hrest, readOf, returnSaid]
  | remark => simp [readOf]

/-- A line of which nothing is wrong is read, and what it says is looked up with the rest. -/
theorem addLine_readOf (h : lineFault? l = none) :
    (readOf resources ls).addLine resources l = .ok (readOf resources (ls ++ [l])) := by
  rw [Reading.addLine]
  cases hd : Directive.ofLine? l with
  | some d =>
      rw [lineFault?, hd, Option.bind_some] at h
      exact addDirective_readOf hd h
  | none =>
      have hread : readOf resources (ls ++ [l]) =
          { readOf resources ls with description := prose (ls ++ [l]) } := by
        simp [readOf, ofKind_concat_of_none _ hd, hd]
      rw [hread, prose_concat_of_none hd]
      have hinDirectives : (readOf resources ls).inDirectives =
          ls.any fun l => (Directive.ofLine? l).isSome := rfl
      simp only [← hinDirectives]
      split
      · rw [List.append_nil]
        rfl
      · rfl

/-- **Lines of which none is faulty are read, and what they say is looked up.** -/
theorem foldlM_addLine (resources : List String) (h : ∀ l ∈ ls, lineFault? l = none) :
    ls.foldlM (Reading.addLine resources) {} = .ok (readOf resources ls) := by
  induction ls using List.reverseRecOn with
  | nil => rfl
  | append_singleton ls l ih =>
      rw [List.forall_mem_append] at h
      rw [List.foldlM_append, bind_eq_ok_iff]
      refine ⟨_, ih h.1, ?_⟩
      rw [List.foldlM_cons, addLine_readOf (h.2 l List.mem_cons_self)]
      rfl

/-- **The first faulty line ends the reading.** -/
theorem foldlM_addLine_of_fault (resources : List String) {before : List (List Char)}
    (hbefore : ∀ l ∈ before, lineFault? l = none) (h : lineFault? l = some e)
    (after : List (List Char)) :
    (before ++ l :: after).foldlM (Reading.addLine resources) {} = .error e := by
  rw [List.foldlM_append, foldlM_addLine resources hbefore]
  change (l :: after).foldlM (Reading.addLine resources) (readOf resources before) = _
  rw [List.foldlM_cons, addLine_of_fault h]
  rfl

/-! ## Types of arguments -/

/-- The argument with the last type that is given for it, if there is one. -/
def withType (resources : List String) (hints : List (String × String)) (a : ArgumentInfo) :
    ArgumentInfo :=
  match (hints.filter (·.1 = a.name)).getLast? with
  | some hint => { a with type := typeOfHint resources hint.2 }
  | none => a

variable {hints : List (String × String)} {hint : String × String} {as : List ArgumentInfo}

/-- The argument with the type of the hint, if it is for this argument. -/
def withHint (resources : List String) (hint : String × String) (a : ArgumentInfo) :
    ArgumentInfo :=
  if a.name = hint.1 then { a with type := typeOfHint resources hint.2 } else a

theorem name_withHint (a : ArgumentInfo) : (withHint resources hint a).name = a.name := by
  unfold withHint
  split <;> rfl

theorem any_name_iff : (as.any (·.name = name)) ↔ name ∈ as.map (·.name) := by
  simp

theorem giveType_of_mem (h : hint.1 ∈ as.map (·.name)) :
    giveType resources as hint = .ok (as.map (withHint resources hint)) := by
  rw [giveType, if_pos (any_name_iff.mpr h)]
  rfl

theorem giveType_of_notMem (h : hint.1 ∉ as.map (·.name)) :
    giveType resources as hint = .error (.orphanType hint.1) := by
  rw [giveType, if_neg (mt any_name_iff.mp h)]

/-- The type of a hint is replaced by those of later ones for the same argument. -/
theorem withType_cons (a : ArgumentInfo) :
    withType resources (hint :: hints) a = withType resources hints (withHint resources hint a) := by
  rw [withType, withType, name_withHint, withHint]
  by_cases h : a.name = hint.1
  · rw [if_pos h, List.filter_cons_of_pos (by simp [h]), List.getLast?_cons]
    cases (hints.filter (·.1 = a.name)).getLast? <;> rfl
  · rw [if_neg h, List.filter_cons_of_neg (by simp [Ne.symm h])]

/-- **Every argument gets the last type that is given for it.** -/
theorem foldlM_giveType (resources : List String) (h : ∀ hint ∈ hints, hint.1 ∈ as.map (·.name)) :
    hints.foldlM (giveType resources) as = .ok (as.map (withType resources hints)) := by
  induction hints generalizing as with
  | nil => exact congrArg Except.ok (List.map_id as).symm
  | cons hint hints ih =>
      obtain ⟨hhint, hhints⟩ := List.forall_mem_cons.mp h
      have hnames : (as.map (withHint resources hint)).map (·.name) = as.map (·.name) := by
        rw [List.map_map]
        exact List.map_congr_left fun a _ => name_withHint a
      rw [List.foldlM_cons, bind_eq_ok_iff]
      refine ⟨_, giveType_of_mem hhint, ?_⟩
      rw [ih fun hint' h' => hnames ▸ hhints hint' h', List.map_map]
      exact congrArg Except.ok (List.map_congr_left fun a _ => (withType_cons a).symm)

/-- **The first hint for an argument that is not documented ends the reading.** -/
theorem foldlM_giveType_of_notMem (resources : List String) {before : List (String × String)}
    (hbefore : ∀ hint ∈ before, hint.1 ∈ as.map (·.name)) (h : hint.1 ∉ as.map (·.name))
    (after : List (String × String)) :
    (before ++ hint :: after).foldlM (giveType resources) as = .error (.orphanType hint.1) := by
  have hnames : (as.map (withType resources before)).map (·.name) = as.map (·.name) := by
    rw [List.map_map]
    refine List.map_congr_left fun a _ => ?_
    unfold withType
    dsimp only [Function.comp_apply]
    split <;> rfl
  rw [List.foldlM_append, foldlM_giveType resources hbefore]
  change (hint :: after).foldlM (giveType resources) (as.map (withType resources before)) = _
  rw [List.foldlM_cons, giveType_of_notMem (hnames ▸ h)]
  rfl

/-! ## Documentation of which nothing is wrong -/

/-- What some lines say about a method. -/
def said (resources : List String) (ls : List (List Char)) : MethodInfo where
  description := plain (.ofList ([' '].intercalate (prose ls)))
  arguments := (documentedArguments (ofKind .param ls)).map
    (withType resources (hintsOf (ofKind .type ls)))
  returnType := returnSaid resources (ofKind .returnType ls)

theorem mem_map_name_documentedArguments :
    name ∈ (documentedArguments params).map (·.name) ↔ name ∈ documentedNames params := by
  simp [documentedArguments]

/-- **Documentation without faulty lines, in which types are given only for documented
arguments, says what is looked up in its lines.** -/
theorem ofText_of_sound {text : String} (hlines : ∀ l ∈ textLines text, lineFault? l = none)
    (hhints : ∀ hint ∈ hintsOf (ofKind .type (textLines text)),
      hint.1 ∈ documentedNames (ofKind .param (textLines text))) :
    MethodInfo.ofText resources text = .ok (said resources (textLines text)) := by
  have hknown : ∀ hint ∈ hintsOf (ofKind .type (textLines text)),
      hint.1 ∈ (documentedArguments (ofKind .param (textLines text))).map (·.name) := fun hint h =>
    mem_map_name_documentedArguments.mpr (hhints hint h)
  rw [MethodInfo.ofText, bind_eq_ok_iff]
  refine ⟨_, foldlM_addLine resources hlines, ?_⟩
  rw [bind_eq_ok_iff]
  exact ⟨_, foldlM_giveType resources hknown, rfl⟩

theorem ofText_of_fault {text : String} {before after : List (List Char)}
    (htext : textLines text = before ++ l :: after)
    (hbefore : ∀ l ∈ before, lineFault? l = none) (h : lineFault? l = some e) :
    MethodInfo.ofText resources text = .error e := by
  have hread := foldlM_addLine_of_fault resources hbefore h after
  rw [← htext, textLines] at hread
  rw [MethodInfo.ofText, hread]
  rfl

theorem ofText_of_orphan {text : String} {before after : List (String × String)}
    {hint : String × String} (hlines : ∀ l ∈ textLines text, lineFault? l = none)
    (hhints : hintsOf (ofKind .type (textLines text)) = before ++ hint :: after)
    (hbefore : ∀ hint ∈ before, hint.1 ∈ documentedNames (ofKind .param (textLines text)))
    (h : hint.1 ∉ documentedNames (ofKind .param (textLines text))) :
    MethodInfo.ofText resources text = .error (.orphanType hint.1) := by
  have htypes := foldlM_giveType_of_notMem resources
    (fun hint h => mem_map_name_documentedArguments.mpr (hbefore hint h))
    (mt mem_map_name_documentedArguments.mp h) after
  rw [← hhints] at htypes
  have hread := foldlM_addLine resources hlines
  rw [textLines] at hread htypes
  rw [MethodInfo.ofText, hread]
  change (hintsOf _).foldlM (giveType resources) (documentedArguments _) >>= _ = _
  rw [htypes]
  rfl

end ServiceStubs.Documentation
