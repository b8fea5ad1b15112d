import ServiceStubs.Proofs.Session.Known

/-!
# Types from documentation

A type hint names a built-in type, a resource that is declared, or a class by its
dotted path, and never a typed dictionary.

## Main definitions

* `Documentation.Hinted` — what a hint can be the type of.
* `Documentation.hinted_of_ofText` — all types of a documentation are such.
* `Service.known_of_ofText` — and the service knows them.
-/

namespace ServiceStubs

namespace Documentation

open Text

variable {resources : List String} {a : TypeExpr}

/-! ## Hints -/

/-- What the head of a documented type may refer to. -/
def HintedHead (resources : List String) : TypeExpr → Prop
  | .scalar _ | .literal _ | .subscript _ _ => True
  | .dict _ => False
  | .external _ name asName => asName = none ∧ name ≠ ""
  | .internal name module =>
    module = some (.inPackage TypeExpr.resourceModule) ∧ name ∈ resources

/-- Every part of the type refers to a class by its path, or to a declared
resource. -/
def Hinted (resources : List String) (a : TypeExpr) : Prop :=
  ∀ t ∈ a.nodes, HintedHead resources t

theorem hinted_scalar (c : Scalar) : Hinted resources (.scalar c) := by
  simp [Hinted, HintedHead]

theorem hinted_subscript {g : Generic} {args : List TypeExpr}
    (h : ∀ a ∈ args, Hinted resources a) : Hinted resources (.subscript g args) := by
  intro t ht
  rcases TypeExpr.mem_nodes_subscript.mp ht with rfl | ⟨a, ha, ht⟩
  · trivial
  · exact h a ha t ht

theorem hinted_from (source : String) {name : String} (hname : name ≠ "") :
    Hinted resources (.from? source name) := by
  simpa [Hinted, HintedHead, TypeExpr.from?] using hname

theorem hinted_resource {name : String} (h : name ∈ resources) :
    Hinted resources (.resource name) := by
  simpa [Hinted, HintedHead, TypeExpr.resource, TypeExpr.inModule] using h

theorem hinted_any : Hinted resources .any :=
  hinted_scalar _

theorem hinted_hintWords : ∀ w ∈ hintWords, Hinted resources w.2 := by
  simp [hintWords, Hinted, HintedHead, TypeExpr.str, TypeExpr.int, TypeExpr.bool, TypeExpr.float,
    TypeExpr.bytes, TypeExpr.any, TypeExpr.none, TypeExpr.looseDict, TypeExpr.dictOf,
    TypeExpr.listOf, TypeExpr.datetime, TypeExpr.blobInput, TypeExpr.unionOf,
    TypeExpr.streamingBody, TypeExpr.from?]

theorem hinted_typeOfPath (cs : List Char) : Hinted resources (typeOfPath cs) := by
  unfold typeOfPath
  split
  · split
    · next h =>
        simp only [Bool.and_eq_true, Bool.not_eq_true', List.isEmpty_eq_false_iff] at h
        exact hinted_from _ (by simpa using h.2)
    · exact hinted_any
  · exact hinted_any

theorem hinted_typeOfPlainHint (cs : List Char) :
    Hinted resources (typeOfPlainHint resources cs) := by
  unfold typeOfPlainHint
  split
  · split
    · next h => exact hinted_resource (by simpa using h)
    · exact hinted_any
  · split
    · next type h =>
        obtain ⟨l₁, l₂, hsplit, -⟩ := List.lookup_eq_some_iff.mp h
        have hword : (String.ofList (lowercased cs), type) ∈ hintWords := by simp [hsplit]
        exact hinted_hintWords _ hword
    · exact hinted_typeOfPath cs

/-- **Hints name no typed dictionary.** -/
theorem hinted_typeOfHint (hint : String) : Hinted resources (typeOfHint resources hint) := by
  have hfrom : ∀ depth cs, Hinted resources (typeOfHintFrom resources depth cs) := by
    intro depth
    induction depth with
    | zero => exact fun _ => hinted_any
    | succ depth ih =>
        intro cs
        simp only [typeOfHintFrom]
        split
        · exact hinted_subscript (by simpa using ih _)
        · split
          · exact hinted_subscript (by simpa using ih _)
          · exact hinted_typeOfPlainHint _
  exact hfrom _ _

/-! ## Readings -/

/-- What some steps establish and keep holds in the end. -/
theorem foldlM_ok {ε α β : Type} {P : β → Prop} {f : β → α → Except ε β} {as : List α} {b c : β}
    (hb : P b) (hf : ∀ b a c, P b → f b a = .ok c → P c) (h : as.foldlM f b = .ok c) : P c := by
  induction as generalizing b with
  | nil => exact Except.ok.inj h ▸ hb
  | cons a as ih =>
      rw [List.foldlM_cons] at h
      obtain ⟨b', hstep, h⟩ := bind_eq_ok_iff.mp h
      exact ih (hf b a b' hb hstep) h

/-- The types that have been read. -/
structure Reading.Hinted (resources : List String) (r : Reading) : Prop where
  arguments : ∀ a ∈ r.arguments, Documentation.Hinted resources a.type
  returnType : ∀ a ∈ r.returnType, Documentation.Hinted resources a

theorem Reading.Hinted.addDirective {r r' : Reading} (h : r.Hinted resources) (d : Directive)
    (hr : r.addDirective resources d = .ok r') : r'.Hinted resources := by
  unfold Reading.addDirective at hr
  dsimp only at hr
  split at hr
  · nomatch hr
  · obtain rfl := Except.ok.inj hr
    unfold Reading.addArgument
    split
    · exact ⟨h.arguments, h.returnType⟩
    · refine ⟨?_, h.returnType⟩
      intro a ha
      rcases List.mem_append.mp ha with ha | ha
      · exact h.arguments a ha
      · obtain rfl := List.mem_singleton.mp ha
        exact hinted_any
  · nomatch hr
  · split at hr
    · nomatch hr
    · obtain rfl := Except.ok.inj hr
      exact ⟨h.arguments, h.returnType⟩
  · split at hr
    · obtain rfl := Except.ok.inj hr
      exact ⟨h.arguments, h.returnType⟩
    · obtain rfl := Except.ok.inj hr
      refine ⟨h.arguments, ?_⟩
      rintro a ⟨⟩
      exact hinted_typeOfHint _
  · obtain rfl := Except.ok.inj hr
    exact ⟨h.arguments, h.returnType⟩

theorem Reading.Hinted.addLine {r r' : Reading} (h : r.Hinted resources) (line : List Char)
    (hr : r.addLine resources line = .ok r') : r'.Hinted resources := by
  unfold Reading.addLine at hr
  split at hr
  · exact h.addDirective _ hr
  · split at hr <;> obtain rfl := Except.ok.inj hr <;> exact ⟨h.arguments, h.returnType⟩

/-- Types that are given to arguments are those of hints. -/
theorem hinted_giveType {as as' : List ArgumentInfo} (h : ∀ a ∈ as, Hinted resources a.type)
    (hint : String × String) (hr : giveType resources as hint = .ok as') :
    ∀ a ∈ as', Hinted resources a.type := by
  unfold giveType at hr
  split at hr
  · obtain rfl := Except.ok.inj hr
    simp only [List.mem_map]
    rintro _ ⟨a, ha, rfl⟩
    split
    · exact hinted_typeOfHint _
    · exact h a ha
  · cases hr

/-- **Documentation names no typed dictionary.** -/
theorem hinted_of_ofText {text : String} {info : MethodInfo}
    (h : MethodInfo.ofText resources text = .ok info) : ∀ a ∈ info.types, Hinted resources a := by
  unfold MethodInfo.ofText at h
  obtain ⟨r, hr, h⟩ := bind_eq_ok_iff.mp h
  obtain ⟨as, has, h⟩ := bind_eq_ok_iff.mp h
  obtain rfl := Except.ok.inj h
  have hempty : Reading.Hinted resources {} := ⟨by simp, by simp⟩
  have hread : r.Hinted resources :=
    foldlM_ok hempty (fun _ line _ h hr => h.addLine line hr) hr
  have hargs : ∀ a ∈ as, Hinted resources a.type :=
    foldlM_ok hread.arguments (fun _ hint _ h hr => hinted_giveType h hint hr) has
  intro a ha
  rcases List.mem_append.mp ha with ha | ha
  · obtain ⟨arg, harg, rfl⟩ := List.mem_map.mp ha
    exact hargs arg harg
  · exact hread.returnType a (Option.mem_toList.mp ha)

end Documentation

/-- Classes that the documentation names have names. -/
theorem Schema.Names.name_ne {s : Schema} {source name : String} (h : s.Names source name) :
    name ≠ "" := by
  obtain ⟨text, -, info, hinfo, a, ha, ht⟩ := h
  exact (Documentation.hinted_of_ofText hinfo a ha _ ht).2

/-- What would have to be imported for all documented types. -/
def Schema.documentedImports (s : Schema) : List Import :=
  s.documentation.values.flatMap fun text =>
    match Documentation.MethodInfo.ofText s.resourceNames text with
    | .ok info => info.types.flatMap fun a => a.nodes.map TypeExpr.headImport
    | .error _ => []

theorem Schema.Names.mem_documentedImports {s : Schema} {source name : String}
    (h : s.Names source name) : ⟨⟨source⟩, name, none⟩ ∈ s.documentedImports := by
  obtain ⟨text, htext, info, hinfo, a, ha, ht⟩ := h
  refine List.mem_flatMap.mpr ⟨text, htext, ?_⟩
  rw [hinfo]
  exact List.mem_flatMap.mpr ⟨a, ha, List.mem_map.mpr ⟨_, ht, rfl⟩⟩

/-- **What the documentation of a service says has known types.** -/
theorem Service.known_of_ofText {svc : Service} {s : Session} {text : String}
    {info : Documentation.MethodInfo} (htext : text ∈ svc.schema.documentation.values)
    (hinfo : Documentation.MethodInfo.ofText svc.schema.resourceNames text = .ok info) :
    ∀ a ∈ info.types, svc.Known s a := by
  intro a ha t ht
  have hhead := Documentation.hinted_of_ofText hinfo a ha t ht
  cases t with
  | dict ref => exact hhead.elim
  | external source name asName =>
      obtain ⟨rfl, -⟩ := hhead
      exact ⟨rfl, .inr ⟨text, htext, info, hinfo, a, ha, ht⟩⟩
  | _ => exact hhead

end ServiceStubs
