import Mathlib.Data.List.Perm.Basic
import ServiceStubs.Documentation.Method

/-!
# Signatures of methods

A method takes the instance and then further arguments, either all of them by
place or all of them by name; those that must be given come first.  Completing a
method by its documentation keeps this, as long as nothing else is called like
the instance: what the documentation adds comes after what the method has, and is
sorted in.

## Main definitions

* `RequiredFirst` — plain arguments, required ones first.
* `FunctionStub.Takes` — a method takes arguments of certain names.
* `FunctionStub.WellOrdered` — a signature whose parts stand in the order that the
  language asks for.
* `FunctionStub.parameterNames` — what a method calls its arguments.
* `FunctionStub.Takes.wellOrdered`, `FunctionStub.Takes.complete` — methods that take
  arguments of certain names, and their completion.
* `FunctionStub.parameterNames_complete` — what a completed method takes.
-/

namespace ServiceStubs

open Documentation

/-! ## Plain arguments -/

/-- Arguments without stars, the required ones before the others. -/
structure RequiredFirst (as : List Argument) : Prop where
  stars : ∀ a ∈ as, a.stars = .none
  order : as.Pairwise fun a b => b.isRequired → a.isRequired

section Arguments

variable {a : Argument} {as bs : List Argument}

theorem requiredFirst_perm (as : List Argument) : (requiredFirst as).Perm as :=
  List.filter_append_perm Argument.isRequired as

/-- The required arguments before the others are so ordered. -/
theorem requiredFirst_spec (h : ∀ a ∈ as, a.stars = .none) : RequiredFirst (requiredFirst as) where
  stars a ha := h a ((requiredFirst_perm as).mem_iff.mp ha)
  order := by
    refine List.pairwise_append.mpr ⟨?_, ?_, ?_⟩
    · exact List.pairwise_of_forall_mem_list fun a ha _ _ _ => (List.mem_filter.mp ha).2
    · refine List.pairwise_of_forall_mem_list fun _ _ b hb hreq => ?_
      simp [hreq] at hb
    · exact fun a ha _ _ _ => (List.mem_filter.mp ha).2

theorem RequiredFirst.nil : RequiredFirst [] :=
  ⟨nofun, .nil⟩

/-- An argument that may be left out can stand last. -/
theorem RequiredFirst.concat (h : RequiredFirst as) (hstars : a.stars = .none)
    (hreq : a.isRequired = false) : RequiredFirst (as ++ [a]) where
  stars b hb := by
    rcases List.mem_append.mp hb with hb | hb
    · exact h.stars b hb
    · rwa [List.mem_singleton.mp hb]
  order := by
    refine List.pairwise_append.mpr ⟨h.order, List.pairwise_singleton _ _, fun b _ c hc => ?_⟩
    simp [List.mem_singleton.mp hc, hreq]

/-- Arguments that must all be given are in order. -/
theorem RequiredFirst.of_required (hstars : ∀ a ∈ as, a.stars = .none)
    (hreq : ∀ a ∈ as, a.isRequired) : RequiredFirst as :=
  ⟨hstars, List.pairwise_of_forall_mem_list fun a ha _ _ _ => hreq a ha⟩

theorem isKeywordMark_of_stars (h : a.stars = .none) : a.isKeywordMark = false := by
  simp [Argument.isKeywordMark, h]

/-- An argument that is added by name comes after the others, and the mark before
all of them. -/
theorem addKeyword_keywordOnly (as : List Argument) (a : Argument) :
    addKeyword (keywordOnly as) a = keywordOnly (as ++ [a]) := by
  cases as <;> rfl

theorem keywordOnly_concat (as : List Argument) (a : Argument) :
    keywordOnly (as ++ [a]) = .keywordMark :: (as ++ [a]) := by
  simp [keywordOnly]

theorem map_name_toArgument (infos : List ArgumentInfo) :
    (infos.map ArgumentInfo.toArgument).map (·.name) = infos.map (·.name) := by
  rw [List.map_map]
  refine List.map_congr_left fun info _ => ?_
  simp only [Function.comp_apply, ArgumentInfo.toArgument]
  split <;> rfl

theorem stars_toArgument {infos : List ArgumentInfo} :
    ∀ a ∈ infos.map ArgumentInfo.toArgument, a.stars = .none := by
  intro a ha
  obtain ⟨info, -, rfl⟩ := List.mem_map.mp ha
  unfold ArgumentInfo.toArgument
  split <;> rfl

end Arguments

namespace FunctionStub

variable {f : FunctionStub} {as : List Argument} {names names' : List String}

/-! ## What methods take -/

/-- The method takes, after the instance, arguments of the given names in some
order: all by place or all by name, required ones first. -/
def Takes (f : FunctionStub) (names : List String) : Prop :=
  ∃ as, RequiredFirst as ∧ (as.map (·.name)).Perm names ∧
    (f.arguments = .self :: as ∨ f.arguments = .self :: keywordOnly as)

/-- The names of the arguments after the first one, the mark apart. -/
def parameterNames (f : FunctionStub) : List String :=
  (f.arguments.tail.filter (!·.isKeywordMark)).map (·.name)

theorem Takes.byName {name : String} {type : TypeExpr} (h : RequiredFirst as)
    (hnames : (as.map (·.name)).Perm names) :
    (FunctionStub.method name (keywordOnly as) type).Takes names :=
  ⟨as, h, hnames, .inr rfl⟩

theorem Takes.byPlace {name : String} {type : TypeExpr} (h : RequiredFirst as)
    (hnames : (as.map (·.name)).Perm names) : (FunctionStub.method name as type).Takes names :=
  ⟨as, h, hnames, .inl rfl⟩

/-- A method that takes nothing but the instance. -/
theorem Takes.nothing {name : String} {type : TypeExpr} :
    (FunctionStub.method name [] type).Takes [] :=
  .byPlace .nil (.refl [])

/-- Only the arguments count. -/
theorem Takes.congr {g : FunctionStub} (h : f.Takes names) (hg : g.arguments = f.arguments) :
    g.Takes names := by
  unfold Takes
  rwa [hg]

theorem filter_isKeywordMark (h : ∀ a ∈ as, a.stars = .none) :
    as.filter (!·.isKeywordMark) = as :=
  List.filter_eq_self.mpr fun a ha => by simp [isKeywordMark_of_stars (h a ha)]

/-- What a method calls its arguments. -/
theorem Takes.parameterNames_perm (h : f.Takes names) : f.parameterNames.Perm names := by
  obtain ⟨as, has, hnames, harguments | harguments⟩ := h
  · rwa [parameterNames, harguments, List.tail_cons, filter_isKeywordMark has.stars]
  · rw [parameterNames, harguments, List.tail_cons]
    cases as with
    | nil => exact hnames
    | cons a as =>
        have hmark : (keywordOnly (a :: as)).filter (!·.isKeywordMark) =
            (a :: as).filter (!·.isKeywordMark) := rfl
        rwa [hmark, filter_isKeywordMark has.stars]

/-! ## Order -/

/-- The parts of a signature stand in the order that the language asks for: the
instance comes first, without a type; a mark after which arguments must be given
by name stands only right after it, and is followed by something; nothing that
must be given comes after something that need not be; and everything else that
has stars takes whatever is given. -/
structure WellOrdered (f : FunctionStub) : Prop where
  self : f.arguments.head? = some .self
  mark : ∀ i a, f.arguments[i]? = some a → a.isKeywordMark → i = 1 ∧ 2 < f.arguments.length
  required : f.arguments.Pairwise fun a b => b.isRequired → a.isRequired
  stars : ∀ a ∈ f.arguments, a.stars ≠ .none → a.isKeywordMark = false →
    f.arguments = [.self, .variadic .any, .keywords .any]

/-- What must be given may stand before what is in order. -/
theorem pairwise_cons_of_required {a : Argument} (ha : a.isRequired)
    (h : as.Pairwise fun a b => b.isRequired → a.isRequired) :
    (a :: as).Pairwise fun a b => b.isRequired → a.isRequired :=
  List.pairwise_cons.mpr ⟨fun _ _ _ => ha, h⟩

/-- Arguments by place are in order after the instance. -/
theorem wellOrdered_byPlace (has : RequiredFirst as) (harguments : f.arguments = .self :: as) :
    f.WellOrdered where
  self := by rw [harguments]; rfl
  mark i a ha hmark := by
    rw [harguments] at ha
    rcases List.mem_cons.mp (List.mem_of_getElem? ha) with rfl | hmem
    · exact absurd hmark (by decide)
    · simp [isKeywordMark_of_stars (has.stars a hmem)] at hmark
  required := by
    rw [harguments]
    exact pairwise_cons_of_required rfl has.order
  stars a ha hstars := by
    rw [harguments] at ha
    rcases List.mem_cons.mp ha with rfl | ha
    · exact absurd rfl hstars
    · exact absurd (has.stars a ha) hstars

/-- So are arguments by name, if there are any. -/
theorem wellOrdered_byName (has : RequiredFirst as) (hne : as ≠ [])
    (harguments : f.arguments = .self :: .keywordMark :: as) : f.WellOrdered where
  self := by rw [harguments]; rfl
  mark i a ha hmark := by
    have hlength : 0 < as.length := List.length_pos_iff.mpr hne
    rw [harguments] at ha ⊢
    refine ⟨?_, by simpa using hlength⟩
    match i with
    | 0 =>
        obtain rfl := Option.some.inj ha
        exact absurd hmark (by decide)
    | 1 => rfl
    | i + 2 =>
        have hmem : a ∈ as := List.mem_of_getElem? (l := as) ha
        simp [isKeywordMark_of_stars (has.stars a hmem)] at hmark
  required := by
    rw [harguments]
    exact pairwise_cons_of_required rfl (pairwise_cons_of_required rfl has.order)
  stars a ha hstars hmark := by
    rw [harguments] at ha
    rcases List.mem_cons.mp ha with rfl | ha
    · exact absurd rfl hstars
    · rcases List.mem_cons.mp ha with rfl | ha
      · exact absurd hmark (by decide)
      · exact absurd (has.stars a ha) hstars

/-- **A method that takes arguments of some names is well ordered.** -/
theorem Takes.wellOrdered (h : f.Takes names) : f.WellOrdered := by
  obtain ⟨as, has, -, harguments | harguments⟩ := h
  · exact wellOrdered_byPlace has harguments
  · cases as with
    | nil => exact wellOrdered_byPlace has harguments
    | cons a as => exact wellOrdered_byName has (List.cons_ne_nil a as) harguments

/-- A method that takes anything is well ordered. -/
theorem wellOrdered_undescribed (name : String) : (undescribed name).WellOrdered where
  self := rfl
  mark i a ha hmark := by
    have hnone : ∀ a ∈ (undescribed name).arguments, a.isKeywordMark = false := by
      simp only [undescribed, method, List.forall_mem_cons]
      exact ⟨by decide, by decide, by decide, nofun⟩
    simp [hnone a (List.mem_of_getElem? ha)] at hmark
  required :=
    pairwise_cons_of_required rfl (pairwise_cons_of_required rfl (List.pairwise_singleton _ _))
  stars _ _ _ _ := rfl

/-- A method that the documentation describes takes what is documented. -/
theorem takes_ofInfo (info : MethodInfo) (name : String) :
    (info.method name).Takes (info.arguments.map (·.name)) := by
  refine ⟨_, requiredFirst_spec stars_toArgument, ?_, .inl rfl⟩
  rw [← map_name_toArgument]
  exact (requiredFirst_perm _).map _

/-! ## Completion -/

/-- The documented names that a method lacks. -/
def missingNames (f : FunctionStub) (info : MethodInfo) : List String :=
  (info.arguments.filter fun a => !f.argumentNames.contains a.name).map (·.name)

theorem map_name_extraArguments (info : MethodInfo) (f : FunctionStub) :
    (info.extraArguments f).map (·.name) = f.missingNames info :=
  map_name_toArgument _

theorem arguments_complete (info : MethodInfo) (f : FunctionStub) :
    (info.complete f).arguments =
      if f.missingNames info = [] then f.arguments
      else withExtraArguments f.arguments (info.extraArguments f) := by
  have hempty : (info.extraArguments f).isEmpty ↔ f.missingNames info = [] := by
    rw [← map_name_extraArguments, List.isEmpty_iff, List.map_eq_nil_iff]
  simp only [MethodInfo.complete, hempty]

/-- Plain arguments, none of which is called like the instance, do not stay in
front. -/
theorem staysInFront_eq_false {a : Argument} (hstars : a.stars = .none) (hname : a.name ≠ "self") :
    staysInFront a = false := by
  simp [staysInFront, hname, isKeywordMark_of_stars hstars]

/-- Further arguments are sorted in after the instance, by name if there were no
others. -/
theorem withExtraArguments_self {extra : List Argument} (hstars : ∀ a ∈ as, a.stars = .none)
    (hself : ∀ a ∈ as, a.name ≠ "self") (hextra : extra ≠ []) :
    withExtraArguments (.self :: as) extra = .self ::
      if as = [] then keywordOnly (requiredFirst extra) else requiredFirst (as ++ extra) := by
  cases as with
  | nil =>
      have hne : requiredFirst extra ≠ [] := fun h =>
        hextra (List.Perm.eq_nil (h ▸ (requiredFirst_perm extra).symm))
      have hmark : keywordOnly (requiredFirst extra) = .keywordMark :: requiredFirst extra := by
        simp [keywordOnly, hne]
      rw [if_pos rfl, hmark]
      rfl
  | cons a as =>
      have hfront : staysInFront a = false :=
        staysInFront_eq_false (hstars a (by simp)) (hself a (by simp))
      have hinstance : staysInFront .self = true := rfl
      have hall : (Argument.self :: a :: as).all (·.name = "self") = false := by
        simp [hself a (by simp)]
      rw [if_neg (by simp), withExtraArguments, hall]
      simp only [Bool.false_eq_true, if_false, List.takeWhile_cons, List.dropWhile_cons, hinstance,
        hfront, if_true]
      rfl

/-- The mark stays in front too. -/
theorem withExtraArguments_keywordOnly {extra : List Argument}
    (hstars : ∀ a ∈ as, a.stars = .none) (hself : ∀ a ∈ as, a.name ≠ "self") (hne : as ≠ []) :
    withExtraArguments (.self :: keywordOnly as) extra =
      .self :: .keywordMark :: requiredFirst (as ++ extra) := by
  cases as with
  | nil => exact absurd rfl hne
  | cons a as =>
      have hfront : staysInFront a = false :=
        staysInFront_eq_false (hstars a (by simp)) (hself a (by simp))
      have hinstance : staysInFront .self = true := rfl
      have hmark : staysInFront .keywordMark = true := rfl
      have hall : (Argument.self :: .keywordMark :: a :: as).all (·.name = "self") = false := by
        simp [hself a (by simp)]
      have hby : keywordOnly (a :: as) = .keywordMark :: a :: as := rfl
      rw [hby, withExtraArguments, hall]
      simp only [Bool.false_eq_true, if_false, List.takeWhile_cons, List.dropWhile_cons, hinstance,
        hmark, hfront, if_true]
      rfl

/-- With further arguments a method takes all of them by place, or all by name. -/
theorem withExtraArguments_cases {args extra : List Argument}
    (hargs : args = .self :: as ∨ args = .self :: keywordOnly as)
    (hstars : ∀ a ∈ as, a.stars = .none) (hself : ∀ a ∈ as, a.name ≠ "self") (hextra : extra ≠ []) :
    withExtraArguments args extra = .self :: requiredFirst (as ++ extra) ∨
      withExtraArguments args extra = .self :: keywordOnly (requiredFirst (as ++ extra)) := by
  by_cases hnil : as = []
  · subst hnil
    right
    rcases hargs with rfl | rfl <;> exact withExtraArguments_self hstars hself hextra
  · rcases hargs with rfl | rfl
    · left
      rw [withExtraArguments_self hstars hself hextra, if_neg hnil]
    · right
      have hne : requiredFirst (as ++ extra) ≠ [] := fun h =>
        hextra (List.append_eq_nil_iff.mp (h ▸ (requiredFirst_perm _).symm).eq_nil).2
      rw [withExtraArguments_keywordOnly hstars hself hnil]
      simp [keywordOnly, hne]

/-- **Completing a method keeps its signature in order**, and it then takes what is
documented too. -/
theorem Takes.complete (h : f.Takes names) (hself : "self" ∉ names) (info : MethodInfo) :
    (info.complete f).Takes (names ++ f.missingNames info) := by
  by_cases hmissing : f.missingNames info = []
  · rw [hmissing, List.append_nil]
    exact h.congr (by rw [arguments_complete, if_pos hmissing])
  · obtain ⟨as, has, hnames, harguments⟩ := h
    have hnot : ∀ a ∈ as, a.name ≠ "self" := by
      rintro a ha hname
      exact hself (hnames.mem_iff.mp (hname ▸ List.mem_map_of_mem ha))
    have hextra : info.extraArguments f ≠ [] := by
      intro hnil
      rw [← map_name_extraArguments, hnil] at hmissing
      exact hmissing rfl
    have hplain : ∀ a ∈ as ++ info.extraArguments f, a.stars = .none := by
      intro a ha
      rcases List.mem_append.mp ha with ha | ha
      · exact has.stars a ha
      · exact stars_toArgument a ha
    have hall : ((requiredFirst (as ++ info.extraArguments f)).map (·.name)).Perm
        (names ++ f.missingNames info) := by
      rw [← map_name_extraArguments]
      refine ((requiredFirst_perm _).map _).trans ?_
      rw [List.map_append]
      exact hnames.append_right _
    refine ⟨_, requiredFirst_spec hplain, hall, ?_⟩
    rw [arguments_complete, if_neg hmissing]
    exact withExtraArguments_cases harguments has.stars hnot hextra

/-- The instance stays in front, and sorting further arguments in loses none. -/
theorem exists_sortedIn (as extra : List Argument) (hextra : ∀ a ∈ extra, a.stars = .none) :
    ∃ bs, (Argument.self :: as).takeWhile staysInFront
        ++ requiredFirst ((Argument.self :: as).dropWhile staysInFront ++ extra) = .self :: bs ∧
      (bs.filter (!·.isKeywordMark)).Perm (as.filter (!·.isKeywordMark) ++ extra) := by
  have hinstance : staysInFront .self = true := rfl
  refine ⟨as.takeWhile staysInFront ++ requiredFirst (as.dropWhile staysInFront ++ extra), ?_, ?_⟩
  · simp only [List.takeWhile_cons, List.dropWhile_cons, hinstance, if_true, List.cons_append]
  · have hperm : (as.takeWhile staysInFront ++
        requiredFirst (as.dropWhile staysInFront ++ extra)).Perm (as ++ extra) := by
      refine ((requiredFirst_perm _).append_left _).trans ?_
      rw [← List.append_assoc, List.takeWhile_append_dropWhile]
    have hsplit : (as ++ extra).filter (!·.isKeywordMark) =
        as.filter (!·.isKeywordMark) ++ extra := by
      rw [List.filter_append, filter_isKeywordMark hextra]
    exact hsplit ▸ hperm.filter _

/-- Arguments that are added to a method stand somewhere after the instance, and
none is lost. -/
theorem exists_withExtraArguments (as extra : List Argument)
    (hextra : ∀ a ∈ extra, a.stars = .none) :
    ∃ bs, withExtraArguments (.self :: as) extra = .self :: bs ∧
      (bs.filter (!·.isKeywordMark)).Perm (as.filter (!·.isKeywordMark) ++ extra) := by
  unfold withExtraArguments
  dsimp only
  split
  · obtain ⟨bs, hbs, hperm⟩ := exists_sortedIn (as ++ [.keywordMark]) extra hextra
    have hmark : [Argument.keywordMark].filter (!·.isKeywordMark) = [] := rfl
    rw [List.filter_append, hmark, List.append_nil] at hperm
    exact ⟨bs, hbs, hperm⟩
  · exact exists_sortedIn as extra hextra

/-- **A completed method takes what it took before, and what is documented and was
missing.** -/
theorem parameterNames_complete (hf : f.arguments = .self :: as) (info : MethodInfo) :
    (info.complete f).parameterNames.Perm (f.parameterNames ++ f.missingNames info) := by
  unfold parameterNames
  rw [arguments_complete]
  split
  · next hmissing => rw [hmissing, List.append_nil]
  · obtain ⟨bs, hbs, hperm⟩ := exists_withExtraArguments as (info.extraArguments f) stars_toArgument
    rw [hf, hbs, List.tail_cons, List.tail_cons, ← map_name_extraArguments, ← List.map_append]
    exact hperm.map _

end FunctionStub

end ServiceStubs
