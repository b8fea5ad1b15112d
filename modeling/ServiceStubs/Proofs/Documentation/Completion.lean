import ServiceStubs.Proofs.Declaration.Signature

/-!
# Completing a method

Documentation completes what the schema says of a method and takes nothing back.
The arguments that the schema gives stay what they are; the documented ones that
are missing are sorted in among them, and a method that had none takes them by name.
What is complete is not completed again.

## Main definitions

* `MethodArguments` — the instance, perhaps the mark, and the other arguments.
* `MethodArguments.withMore` — they and some more, the required ones first.
* `MethodInfo.Completed` — what a completed method has from where.
* `MethodInfo.complete_spec` — a completed method has all that.
-/

namespace ServiceStubs.Documentation

open FunctionStub

/-! ## The parts of a signature -/

/-- The arguments of a method: the instance, perhaps the mark after which arguments
must be given by name, and others, none of which is the instance or a mark. -/
structure MethodArguments where
  self : Argument
  mark : Option Argument
  others : List Argument
  name_self : self.name = "self"
  mark_isMark : ∀ a ∈ mark, a.isKeywordMark
  others_plain : ∀ a ∈ others, a.name ≠ "self" ∧ a.isKeywordMark = false

namespace MethodArguments

/-- All of them, in order. -/
def toList (p : MethodArguments) : List Argument :=
  p.self :: p.mark.toList ++ p.others

/-- The names of the arguments, the instance and the mark apart. -/
def names (p : MethodArguments) : List String :=
  p.others.map (·.name)

/-- The mark that the method has, or the one that it gets with further arguments if
it had none but the instance. -/
def markWithMore (p : MethodArguments) : Option Argument :=
  p.mark.or (if p.others.isEmpty then some .keywordMark else none)

/-- The arguments and some more, the required ones first. -/
def withMore (p : MethodArguments) (extra : List Argument)
    (h : ∀ a ∈ extra, a.name ≠ "self" ∧ a.isKeywordMark = false) : MethodArguments where
  self := p.self
  mark := p.markWithMore
  others := requiredFirst (p.others ++ extra)
  name_self := p.name_self
  mark_isMark a ha := by
    rcases Option.or_eq_some_iff.mp ha with ha | ⟨-, ha⟩
    · exact p.mark_isMark a ha
    · split at ha
      · obtain rfl := Option.some.inj ha
        rfl
      · nomatch ha
  others_plain a ha := by
    rcases List.mem_append.mp ((requiredFirst_perm _).mem_iff.mp ha) with ha | ha
    · exact p.others_plain a ha
    · exact h a ha

variable {p : MethodArguments} {extra : List Argument}

theorem toList_markWithMore (p : MethodArguments) : p.markWithMore.toList =
    if p.mark.isSome ∨ p.others = [] then [p.mark.getD .keywordMark] else [] := by
  unfold markWithMore
  cases p.mark with
  | some m => rfl
  | none => cases p.others <;> rfl

/-- With more arguments the method keeps those that it has. -/
theorem mem_withMore (h : ∀ a ∈ extra, a.name ≠ "self" ∧ a.isKeywordMark = false) {a : Argument}
    (ha : a ∈ p.toList) : a ∈ (p.withMore extra h).toList := by
  simp only [toList, withMore, markWithMore, List.cons_append, List.mem_cons, List.mem_append,
    Option.mem_toList, (requiredFirst_perm _).mem_iff] at ha ⊢
  rcases ha with rfl | ha | ha
  · exact .inl rfl
  · exact .inr (.inl (Option.or_eq_some_iff.mpr (.inl ha)))
  · exact .inr (.inr (.inl ha))

theorem staysInFront_self (p : MethodArguments) : staysInFront p.self = true := by
  simp [staysInFront, p.name_self]

theorem staysInFront_mark {a : Argument} (ha : a ∈ p.mark) : staysInFront a = true := by
  simp [staysInFront, p.mark_isMark a ha]

theorem staysInFront_others {a : Argument} (ha : a ∈ p.others) : staysInFront a = false := by
  simp [staysInFront, p.others_plain a ha]

theorem name_mark {a : Argument} (ha : a ∈ p.mark) : a.name = "" := by
  have hmark := p.mark_isMark a ha
  simp only [Argument.isKeywordMark, Bool.and_eq_true, decide_eq_true_eq] at hmark
  exact hmark.1

/-- Arguments that stay in front are kept there, and the others are sorted. -/
theorem sorted_behind_front {front others : List Argument} (hfront : ∀ a ∈ front, staysInFront a)
    (hothers : ∀ a ∈ others, staysInFront a = false) (extra : List Argument) :
    (front ++ others).takeWhile staysInFront
        ++ requiredFirst ((front ++ others).dropWhile staysInFront ++ extra) =
      front ++ requiredFirst (others ++ extra) := by
  have hnone : others.takeWhile staysInFront = [] ∧ others.dropWhile staysInFront = others := by
    cases others with
    | nil => exact ⟨rfl, rfl⟩
    | cons a as =>
        have ha : ¬ staysInFront a := by simp [hothers a List.mem_cons_self]
        exact ⟨List.takeWhile_cons_of_neg ha, List.dropWhile_cons_of_neg ha⟩
  rw [List.takeWhile_append_of_pos hfront, List.dropWhile_append_of_pos hfront, hnone.1, hnone.2,
    List.append_nil]

/-- Only the instance is called so. -/
theorem all_self_iff (p : MethodArguments) :
    p.toList.all (·.name = "self") ↔ p.mark = none ∧ p.others = [] := by
  simp only [List.all_eq_true, decide_eq_true_eq]
  constructor
  · intro h
    refine ⟨Option.eq_none_iff_forall_not_mem.mpr fun m hm => ?_,
      List.eq_nil_iff_forall_not_mem.mpr fun a ha => ?_⟩
    · have hname := h m (by simp [toList, Option.mem_def.mp hm])
      simp [name_mark hm] at hname
    · exact (p.others_plain a ha).1 (h a (by simp [toList, ha]))
  · rintro ⟨hmark, hothers⟩ a ha
    simp only [toList, hmark, hothers, Option.toList_none, List.append_nil,
      List.mem_singleton] at ha
    rw [ha, p.name_self]

/-- **Further arguments are sorted in behind the instance and the mark.** -/
theorem withExtraArguments_toList (p : MethodArguments)
    (h : ∀ a ∈ extra, a.name ≠ "self" ∧ a.isKeywordMark = false) :
    withExtraArguments p.toList extra = (p.withMore extra h).toList := by
  unfold withExtraArguments
  dsimp only
  split
  · next hall =>
      obtain ⟨hmark, hothers⟩ := p.all_self_iff.mp hall
      have hnew : staysInFront .keywordMark = true := rfl
      have hfront : ∀ a ∈ [p.self, .keywordMark], staysInFront a := by
        simp [p.staysInFront_self, hnew]
      have hnone : ∀ a ∈ ([] : List Argument), staysInFront a = false := nofun
      have hsorted := sorted_behind_front hfront hnone extra
      simpa [toList, withMore, markWithMore, hmark, hothers] using hsorted
  · next hall =>
      have hmark : p.markWithMore = p.mark := by
        unfold markWithMore
        cases hm : p.mark with
        | some m => rfl
        | none =>
            have hothers : p.others ≠ [] := fun hothers => hall (p.all_self_iff.mpr ⟨hm, hothers⟩)
            simp [hothers]
      have hfront : ∀ a ∈ p.self :: p.mark.toList, staysInFront a := by
        simpa [p.staysInFront_self] using fun a ha => p.staysInFront_mark ha
      have hsorted := sorted_behind_front hfront (fun a ha => p.staysInFront_others ha) extra
      simpa [toList, withMore, hmark] using hsorted

/-- What a method calls its arguments. -/
theorem argumentNames_of_eq {f : FunctionStub} (hf : f.arguments = p.toList) :
    f.argumentNames = p.names := by
  have hmark : p.mark.toList.filter (fun a => !a.isKeywordMark && a.name ≠ "self") = [] :=
    List.filter_eq_nil_iff.mpr fun a ha => by simp [p.mark_isMark a (Option.mem_toList.mp ha)]
  have hothers : p.others.filter (fun a => !a.isKeywordMark && a.name ≠ "self") = p.others :=
    List.filter_eq_self.mpr fun a ha => by simp [p.others_plain a ha]
  unfold argumentNames names
  rw [hf, toList, List.cons_append, List.filter_cons_of_neg (by simp [p.name_self]),
    List.filter_append, hmark, hothers, List.nil_append]

end MethodArguments

/-! ## Completion -/

namespace MethodInfo

variable {info : MethodInfo} {f : FunctionStub}

/-- The documented arguments of other names than those. -/
def lacking (info : MethodInfo) (names : List String) : List Argument :=
  (info.arguments.filter fun a => !names.contains a.name).map ArgumentInfo.toArgument

theorem extraArguments_eq {p : MethodArguments} (hf : f.arguments = p.toList) :
    info.extraArguments f = info.lacking p.names := by
  rw [extraArguments, p.argumentNames_of_eq hf, lacking]

/-- A documented argument is plain, unless it is called like the instance. -/
theorem plain_lacking {names : List String} (hself : "self" ∉ info.arguments.map (·.name)) :
    ∀ a ∈ info.lacking names, a.name ≠ "self" ∧ a.isKeywordMark = false := by
  intro a ha
  refine ⟨fun hname => hself ?_, isKeywordMark_of_stars (stars_toArgument a ha)⟩
  have hmem : a.name ∈ (info.lacking names).map (·.name) := List.mem_map_of_mem ha
  rw [lacking, map_name_toArgument, hname] at hmem
  exact List.map_subset _ List.filter_sublist.subset hmem

theorem lacking_eq_nil_iff {names : List String} :
    info.lacking names = [] ↔ ∀ a ∈ info.arguments, a.name ∈ names := by
  simp [lacking]

/-- What a completed method has from where: the method `f` consists of the parts `p`,
and `g` is completed by the documentation. -/
structure Completed (info : MethodInfo) (f g : FunctionStub) (p : MethodArguments) : Prop where
  /-- Nothing is added to a method that has all that is documented. -/
  known : (∀ a ∈ info.arguments, a.name ∈ p.names) → g.arguments = f.arguments
  /-- What is missing comes after what the method has, and is sorted in; a method that
  had no more than the instance takes it by name. -/
  extended : (∃ a ∈ info.arguments, a.name ∉ p.names) →
    g.arguments = p.self ::
      (if p.mark.isSome ∨ p.others = [] then [p.mark.getD .keywordMark] else []) ++
        requiredFirst (p.others ++ info.lacking p.names)
  /-- What the method had stays as it is, with its type, default and stars. -/
  kept : ∀ a ∈ f.arguments, a ∈ g.arguments
  /-- Only a type that says nothing is replaced. -/
  returnType : g.returnType = f.returnType ∨
    f.returnType.isAny ∧ info.returnType = some g.returnType
  described : f.returnType.isAny → ∀ type ∈ info.returnType, g.returnType = type
  /-- A docstring is replaced by one that is not empty. -/
  docstring : g.docstring = if info.description = "" then f.docstring else info.description
  name : g.name = f.name
  decorators : g.decorators = f.decorators
  body : g.body = f.body

/-- The arguments of a completed method. -/
theorem arguments_complete_toList {p : MethodArguments} (hf : f.arguments = p.toList)
    (hself : "self" ∉ info.arguments.map (·.name))
    (hlacking : info.lacking p.names ≠ []) :
    (info.complete f).arguments =
      (p.withMore (info.lacking p.names) (plain_lacking hself)).toList := by
  rw [← p.withExtraArguments_toList, complete]
  simp only [extraArguments_eq hf, List.isEmpty_iff, if_neg hlacking, hf]

/-- With what was missing, a method has all that is documented. -/
theorem mem_names_withMore {p : MethodArguments}
    (h : ∀ a ∈ info.lacking p.names, a.name ≠ "self" ∧ a.isKeywordMark = false) :
    ∀ a ∈ info.arguments, a.name ∈ (p.withMore (info.lacking p.names) h).names := by
  intro a ha
  have hperm : (p.withMore (info.lacking p.names) h).names.Perm
      ((p.others ++ info.lacking p.names).map (·.name)) := (requiredFirst_perm _).map _
  rw [hperm.mem_iff, List.map_append, lacking, map_name_toArgument, List.mem_append]
  by_cases hknown : a.name ∈ p.names
  · exact .inl hknown
  · exact .inr (List.mem_map_of_mem (List.mem_filter.mpr ⟨ha, by simpa using hknown⟩))

theorem extraArguments_complete {p : MethodArguments} (hf : f.arguments = p.toList)
    (hself : "self" ∉ info.arguments.map (·.name)) :
    info.extraArguments (info.complete f) = [] := by
  by_cases hlacking : info.lacking p.names = []
  · have harguments : (info.complete f).arguments = p.toList := by
      rw [← hf, complete]
      simp [extraArguments_eq hf, hlacking]
    rw [extraArguments_eq harguments, hlacking]
  · rw [extraArguments_eq (arguments_complete_toList hf hself hlacking), lacking_eq_nil_iff]
    exact mem_names_withMore _

/-- What has all that a documentation says is complete. -/
theorem complete_eq_self {g : FunctionStub} (hextra : info.extraArguments g = [])
    (hdoc : info.description ≠ "" → g.docstring = info.description)
    (htype : g.returnType.isAny → ∀ type ∈ info.returnType, g.returnType = type) :
    info.complete g = g := by
  have hdocstring : (if info.description = "" then g.docstring else info.description) =
      g.docstring := by
    split
    · rfl
    · next hne => exact (hdoc hne).symm
  have hreturnType : (if g.returnType.isAny then info.returnType.getD g.returnType
      else g.returnType) = g.returnType := by
    split
    · next hany =>
        cases hinfo : info.returnType with
        | none => rfl
        | some type => exact (htype hany type hinfo).symm
    · rfl
  simp only [complete, hextra, List.isEmpty_nil, if_true, hdocstring, hreturnType]

/-- A documented type is taken by a method that does not say what it returns. -/
theorem returnType_complete_of_isAny (hany : f.returnType.isAny) {type : TypeExpr}
    (htype : info.returnType = some type) : (info.complete f).returnType = type := by
  simp [complete, hany, htype]

theorem returnType_complete_of_not_isAny (hany : ¬ f.returnType.isAny) :
    (info.complete f).returnType = f.returnType := by
  simp [complete, hany]

theorem completed_complete {p : MethodArguments} (hf : f.arguments = p.toList)
    (hself : "self" ∉ info.arguments.map (·.name)) :
    info.Completed f (info.complete f) p where
  known hknown := by
    simp [complete, extraArguments_eq hf, lacking_eq_nil_iff.mpr hknown]
  extended := by
    rintro ⟨a, ha, hmissing⟩
    have hlacking : info.lacking p.names ≠ [] := fun hnil =>
      hmissing (lacking_eq_nil_iff.mp hnil a ha)
    rw [arguments_complete_toList hf hself hlacking, ← p.toList_markWithMore]
    rfl
  kept a ha := by
    by_cases hlacking : info.lacking p.names = []
    · simpa [complete, extraArguments_eq hf, hlacking] using ha
    · rw [arguments_complete_toList hf hself hlacking]
      exact MethodArguments.mem_withMore _ (hf ▸ ha)
  returnType := by
    by_cases hany : f.returnType.isAny
    · cases htype : info.returnType with
      | none => exact .inl (by simp [complete, htype])
      | some type => exact .inr ⟨hany, (returnType_complete_of_isAny hany htype).symm ▸ rfl⟩
    · exact .inl (returnType_complete_of_not_isAny hany)
  described hany type htype := returnType_complete_of_isAny hany htype
  docstring := rfl
  name := rfl
  decorators := rfl
  body := rfl

/-- **Completing a method extends it and alters nothing, and doing so twice is doing so
once.** -/
theorem complete_spec (info : MethodInfo) (f : FunctionStub) (p : MethodArguments)
    (hf : f.arguments = p.toList) (hself : "self" ∉ info.arguments.map (·.name)) :
    info.Completed f (info.complete f) p ∧
      info.complete (info.complete f) = info.complete f := by
  have hcompleted := completed_complete hf hself
  refine ⟨hcompleted, complete_eq_self (extraArguments_complete hf hself) (fun hne => ?_) ?_⟩
  · rw [hcompleted.docstring, if_neg hne]
  · intro hany type htype
    by_cases hf : f.returnType.isAny
    · exact hcompleted.described hf type htype
    · rw [returnType_complete_of_not_isAny hf] at hany
      exact absurd hany hf

end MethodInfo

/-! ## A completed method -/

/-- A method that copies takes a bucket, which must be given, and perhaps a list of
rights. -/
def copyArguments : MethodArguments where
  self := .self
  mark := some .keywordMark
  others := [.needed "Bucket" .str, .optional "ACL" .str]
  name_self := rfl
  mark_isMark := by simp [Argument.isKeywordMark, Argument.keywordMark]
  others_plain := by simp [Argument.needed, Argument.optional, Argument.isKeywordMark]

/-- Its documentation knows of a token too. -/
def copyInfo : MethodInfo where
  description := "Copies an object."
  arguments := [{ name := "Bucket", type := .int, required := true },
    { name := "Token", type := .str, required := true }]
  returnType := some .str

/-- The bucket stays what it is, and the token comes before what may be left out. -/
theorem complete_spec_copy :
    let f : FunctionStub :=
      { name := "copy_object", arguments := copyArguments.toList, returnType := .looseDict }
    let g := copyInfo.complete f
    copyInfo.Completed f g copyArguments ∧ copyInfo.complete g = g ∧
      g.signature = "def copy_object(self, *, Bucket: str, Token: str, ACL: str = None)"
        ++ " -> Dict[str, Any]" := by
  intro f g
  have h := MethodInfo.complete_spec copyInfo f copyArguments rfl (by simp [copyInfo])
  exact ⟨h.1, h.2, by decide +kernel⟩

end ServiceStubs.Documentation
