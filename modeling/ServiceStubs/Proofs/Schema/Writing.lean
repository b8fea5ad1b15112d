import ServiceStubs.Proofs.Json.Record
import ServiceStubs.Proofs.Json.Value
import ServiceStubs.Schema.Reading
import ServiceStubs.Schema.Writing

/-!
# Schemas are read back

Every record of a schema is read from the JSON record that it is written as, if the
schema is one that can be read: its kinds are those of tags, its numbers fit 32 bits, and
the values of its paging rules can be read where they stand.

## Main definitions

* `Json.Denotes.record`, `Json.Denotes.fullRecord` — a record, from its fields.
* `Schema.Readable` — the schemas that can be read, up to their service name.
* `Schema.Readable.denotes` — a schema is read from its record.
-/

namespace ServiceStubs

open Json (Denotes Reader)

namespace Json

variable {α : Type} {r : Reader α} {w : α → Json} {ms : List (String × Json)}
  {names : List String} {g : List (Option Json) → Option α} {a : α}

/-! ## Maps and records -/

/-- The entries of a map, each written as a member. -/
theorem Denotes.entries {m : OrderedMap α} (h : ∀ v ∈ m.values, Denotes r (w v) v) :
    Denotes (Reader.map r) (m.toJson w) m where
  wellFormed := by
    refine wellFormed_record (List.forall_mem_map.mpr fun e he => ?_)
    exact (h e.2 (List.mem_map_of_mem he)).wellFormed
  read := by
    have hentries : (m.entries.map fun e => (some e.1, w e.2)).mapM
        (fun e : Option String × Json => do return (← e.1, ← r e.2)) = some m.entries := by
      refine mapM_map_eq_some fun e he => ?_
      simp only [(h e.2 (List.mem_map_of_mem he)).read]
      rfl
    simp only [OrderedMap.toJson, Json.record, List.map_map, Reader.map]
    refine (congrArg (Option.bind · _) hentries).trans ?_
    rw [Option.bind_some, OrderedMap.ofList_entries]
    rfl

theorem Denotes.optionalText (o : Option String) :
    Denotes (Reader.nullable Reader.text) (.ofOption .text o) o :=
  .nullable nofun fun s _ => .text s

/-- A record that leaves out some of its fields. -/
theorem Denotes.record (hnames : names.Nodup) (hsub : (ms.map Prod.fst).Sublist names)
    (hms : ∀ m ∈ ms, m.2.WellFormed) (hg : g (names.map fun name => ms.lookup name) = some a) :
    Denotes (fun j => (j.fields? names).bind g) (.record ms) a where
  wellFormed := wellFormed_record hms
  read := by
    simp only [fields?_record hnames hsub, Option.bind_some, hg]

/-- A record that is written with all its fields. -/
theorem Denotes.fullRecord (hnames : names.Nodup) (hall : ms.map Prod.fst = names)
    (hms : ∀ m ∈ ms, m.2.WellFormed) (hg : g (ms.map fun m => some m.2) = some a) :
    Denotes (fun j => (j.fields? names).bind g) (.record ms) a where
  wellFormed := wellFormed_record hms
  read := by
    subst hall
    simp only [fields?_record_all hnames, Option.bind_some, hg]

end Json

namespace Schema

variable {α : Type} {r : Reader α} {a d : α} {w : α → Json} {name k : String} {j : Json}

/-! ## Fields that are left out -/

theorem lookup_shownIf (shown : Bool) (name k : String) (j : Json) :
    (shownIf shown name j).lookup k = if k = name ∧ shown then some j else none := by
  cases shown <;> by_cases h : k = name <;> simp [shownIf, h]

theorem lookup_shownIfSome (name k : String) (w : α → Json) (o : Option α) :
    (shownIfSome name w o).lookup k = if k = name then o.map w else none := by
  cases o <;> by_cases h : k = name <;> simp [shownIfSome, h]

theorem shownIf_sublist (shown : Bool) (name : String) (j : Json) :
    ((shownIf shown name j).map Prod.fst).Sublist [name] := by
  cases shown with
  | false => exact List.nil_sublist _
  | true => exact List.Sublist.refl _

theorem shownIfSome_sublist (name : String) (w : α → Json) (o : Option α) :
    ((shownIfSome name w o).map Prod.fst).Sublist [name] := by
  cases o with
  | none => exact List.nil_sublist _
  | some a => exact List.Sublist.refl _

theorem wellFormed_shownIf {shown : Bool} (h : j.WellFormed) :
    ∀ m ∈ shownIf shown name j, m.2.WellFormed := by
  cases shown with
  | false => exact nofun
  | true => exact List.forall_mem_singleton.mpr h

theorem wellFormed_shownIfSome {o : Option α} (h : ∀ a ∈ o, (w a).WellFormed) :
    ∀ m ∈ shownIfSome name w o, m.2.WellFormed := by
  cases o with
  | none => exact nofun
  | some a => exact List.forall_mem_singleton.mpr (h a rfl)

/-- A field is left out if it would say what it says when it is not there. -/
theorem defaulted_shown {shown : Bool} (h : shown = true → Denotes r j a)
    (hdefault : shown = false → a = d) :
    Reader.defaulted r d (if shown then some j else none) = some a := by
  cases hshown : shown with
  | false => simp [Reader.defaulted, hdefault hshown]
  | true => simpa [Reader.defaulted] using (h hshown).read

theorem optional_map {o : Option α} (hnull : ∀ a ∈ o, w a ≠ .null)
    (h : ∀ a ∈ o, Denotes r (w a) a) : Reader.optional r (o.map w) = some o := by
  cases o with
  | none => rfl
  | some a => exact (Denotes.nullable hnull h).read

/-! ## The service model -/

/-- A shape that is read has the kind of a tag. -/
def Shape.Tagged (s : Shape) : Prop :=
  ShapeKind.ofTag s.kind.tag = s.kind

theorem ShapeRef.denotes (r : ShapeRef) : Denotes ShapeRef.read r.toJson r := by
  have hshape := Denotes.text r.shape
  have hdocumentation : Reader.optional Reader.text (r.documentation.map .text) =
      some r.documentation := optional_map nofun fun s _ => .text s
  refine .record (by decide)
    ((List.Sublist.refl ["shape"]).append (shownIfSome_sublist "documentation" _ _)) ?_ ?_
  · refine List.forall_mem_append.mpr ⟨?_, ?_⟩
    · exact List.forall_mem_singleton.mpr hshape.wellFormed
    · exact wellFormed_shownIfSome fun s _ => .string
  · simp [List.lookup_cons, lookup_shownIfSome, Reader.given, hshape.read, hdocumentation]

/-- **A shape is read from its record.** -/
theorem Shape.denotes {s : Shape} (h : s.Tagged) : Denotes Shape.read s.toJson s := by
  have hkind : ShapeKind.ofTag s.kind.tag = s.kind := h
  have hmembers : Denotes (Reader.map ShapeRef.read) (s.members.toJson ShapeRef.toJson) s.members :=
    .entries fun r _ => r.denotes
  have hshown : Reader.defaulted (Reader.map ShapeRef.read) ∅
      (if !s.members.isEmpty then some (s.members.toJson ShapeRef.toJson) else none) =
        some s.members := by
    refine defaulted_shown (fun _ => hmembers) fun hempty => ?_
    have hentries : s.members.entries = [] := by simpa [OrderedMap.isEmpty] using hempty
    exact OrderedMap.eq_of_entries_eq hentries
  have htexts : ∀ ss : List String, Reader.defaulted (Reader.list Reader.text) []
      (if !ss.isEmpty then some (.texts ss) else none) = some ss := fun ss =>
    defaulted_shown (fun _ => .texts ss) fun hempty => by simpa using hempty
  have href : ∀ o : Option ShapeRef,
      Reader.optional ShapeRef.read (o.map ShapeRef.toJson) = some o := fun o =>
    optional_map nofun fun r _ => r.denotes
  have hdocumentation : Reader.optional Reader.text (s.documentation.map .text) =
      some s.documentation := optional_map nofun fun s _ => .text s
  have hstreaming : Reader.defaulted Reader.flag false
      (if s.streaming then some (.bool true) else none) = some s.streaming :=
    defaulted_shown (fun hshown => hshown ▸ .flag true) id
  refine .record (by decide) ?_ ?_ ?_
  · simp only [List.map_append]
    exact (List.Sublist.refl ["type"])
      |>.append (shownIf_sublist _ "members" _)
      |>.append (shownIf_sublist _ "required" _)
      |>.append (shownIf_sublist _ "enum" _)
      |>.append (shownIfSome_sublist "key" _ _)
      |>.append (shownIfSome_sublist "value" _ _)
      |>.append (shownIfSome_sublist "member" _ _)
      |>.append (shownIfSome_sublist "documentation" _ _)
      |>.append (shownIf_sublist _ "streaming" _)
  · simp only [List.forall_mem_append]
    refine ⟨⟨⟨⟨⟨⟨⟨⟨?_, ?_⟩, ?_⟩, ?_⟩, ?_⟩, ?_⟩, ?_⟩, ?_⟩, ?_⟩
    · exact List.forall_mem_singleton.mpr .string
    · exact wellFormed_shownIf hmembers.wellFormed
    · exact wellFormed_shownIf (Denotes.texts _).wellFormed
    · exact wellFormed_shownIf (Denotes.texts _).wellFormed
    · exact wellFormed_shownIfSome fun r _ => r.denotes.wellFormed
    · exact wellFormed_shownIfSome fun r _ => r.denotes.wellFormed
    · exact wellFormed_shownIfSome fun r _ => r.denotes.wellFormed
    · exact wellFormed_shownIfSome fun _ _ => .string
    · exact wellFormed_shownIf .bool
  · -- Fields are left out between others, so the record is asked for each name.
    simp only [List.map_cons, List.map_nil, List.lookup_append, List.lookup_cons, List.lookup_nil,
      lookup_shownIf, lookup_shownIfSome, String.reduceBEq, String.reduceEq, if_false, if_true,
      false_and, true_and, Option.or_none, Option.none_or, hshown, htexts, href,
      hdocumentation, hstreaming]
    simp [Reader.given, Json.text, Reader.text, hkind]

theorem Operation.denotes (o : Operation) : Denotes Operation.read o.toJson o := by
  have href : ∀ o : Option ShapeRef,
      Denotes (Reader.nullable ShapeRef.read) (.ofOption ShapeRef.toJson o) o := fun o =>
    .nullable nofun fun r _ => r.denotes
  have hinput := href o.input
  have houtput := href o.output
  have hdocumentation := Denotes.optionalText o.documentation
  refine .fullRecord (by decide) rfl ?_ ?_
  · simp [hinput.wellFormed, houtput.wellFormed, hdocumentation.wellFormed]
  · simp only [List.map_cons, List.map_nil, Reader.optional, Reader.defaulted, hinput.read,
      houtput.read, hdocumentation.read]
    rfl

/-- **A service model is read from its record.** -/
theorem Model.denotes {m : Model} (h : ∀ s ∈ m.shapes.values, s.Tagged) :
    Denotes Model.read m.toJson m := by
  have hoperations : Denotes (Reader.map Operation.read) (m.operations.toJson Operation.toJson)
      m.operations := .entries fun o _ => o.denotes
  have hshapes : Denotes (Reader.map Shape.read) (m.shapes.toJson Shape.toJson) m.shapes :=
    .entries fun s hs => Shape.denotes (h s hs)
  refine .fullRecord (by decide) rfl ?_ ?_
  · simp [hoperations.wellFormed, hshapes.wellFormed]
  · simp only [List.map_cons, List.map_nil, Reader.defaulted, hoperations.read, hshapes.read]
    rfl

/-! ## Paginators and waiters -/

theorem InputToken.denotes (t : InputToken) : Denotes InputToken.read t.toJson t := by
  cases t with
  | single name => exact ⟨.string, rfl⟩
  | several names =>
      have hnames := Denotes.texts names
      refine ⟨hnames.wellFormed, ?_⟩
      simp only [InputToken.read, InputToken.toJson, hnames.read]
      rfl

/-- The values of any shape in a paging rule. -/
def PagingRule.values (p : PagingRule) : List JsonValue :=
  p.outputToken.toList ++ p.resultKey.toList

/-- A value that is read in a paging rule: one that may stand there, and no null, which
says that there is no value. -/
def PagingRule.Keeps (v : JsonValue) : Prop :=
  v ≠ .null ∧ v.Kept (nestingLimit - pagingRuleDepth)

theorem PagingRule.denotes {p : PagingRule} (h : ∀ v ∈ p.values, PagingRule.Keeps v)
    (hfloat : ∀ v ∈ p.values, v.holdsFloat = false) :
    Denotes PagingRule.read p.toJson p := by
  have hvalue : ∀ o : Option JsonValue, (∀ v ∈ o, v ∈ p.values) →
      Denotes (Reader.nullable readOutputValue) (.ofOption JsonValue.toJson o) o := by
    intro o ho
    refine .nullable (fun v hv => ?_) fun v hv => (h v (ho v hv)).2.denotes (hfloat v (ho v hv))
    have hnull := (h v (ho v hv)).1
    cases v <;> simp_all [JsonValue.toJson, Json.text]
  have hinput := p.inputToken.denotes
  have hlimit := Denotes.optionalText p.limitKey
  have houtput := hvalue p.outputToken fun v hv => List.mem_append_left _ (by simpa using hv)
  have hresult := hvalue p.resultKey fun v hv => List.mem_append_right _ (by simpa using hv)
  refine .fullRecord (by decide) rfl ?_ ?_
  · simp [hinput.wellFormed, hlimit.wellFormed, houtput.wellFormed, hresult.wellFormed]
  · simp only [List.map_cons, List.map_nil, Reader.given, Reader.optional, Reader.defaulted,
      hinput.read, hlimit.read, houtput.read, hresult.read]
    rfl

/-- A waiting rule that is read has numbers of 32 bits. -/
def WaitingRule.Fits (r : WaitingRule) : Prop :=
  ∀ n ∈ r.delay.toList ++ r.maxAttempts.toList, n < Nat.pow 2 32

theorem WaitingRule.denotes {r : WaitingRule} (h : r.Fits) :
    Denotes WaitingRule.read r.toJson r := by
  have hnumber : ∀ o : Option Nat, (∀ n ∈ o, n ∈ r.delay.toList ++ r.maxAttempts.toList) →
      Denotes (Reader.nullable Reader.word32) (.ofOption .nat o) o := fun o ho =>
    .nullable nofun fun n hn => .word32 (h n (ho n hn))
  have hoperation := Denotes.text r.operation
  have hdelay := hnumber r.delay fun n hn => List.mem_append_left _ (by simpa using hn)
  have hattempts := hnumber r.maxAttempts fun n hn => List.mem_append_right _ (by simpa using hn)
  refine .fullRecord (by decide) rfl ?_ ?_
  · simp [hoperation.wellFormed, hdelay.wellFormed, hattempts.wellFormed]
  · simp only [List.map_cons, List.map_nil, Reader.given, Reader.optional, Reader.defaulted,
      hoperation.read, hdelay.read, hattempts.read]
    rfl

/-! ## Resources -/

theorem ParamSource.denotes (s : ParamSource) : Denotes ParamSource.read (.text s.name) s where
  wellFormed := .string
  read := by cases s <;> rfl

theorem Param.denotes (p : Param) : Denotes Param.read p.toJson p := by
  have htarget := Denotes.text p.target
  have hsource := p.source.denotes
  have hname := Denotes.optionalText p.name
  have hpath := Denotes.optionalText p.path
  refine .fullRecord (by decide) rfl ?_ ?_
  · simp [htarget.wellFormed, hsource.wellFormed, hname.wellFormed, hpath.wellFormed]
  · simp only [List.map_cons, List.map_nil, Reader.given, Reader.optional, Reader.defaulted,
      htarget.read, hsource.read, hname.read, hpath.read]
    rfl

theorem Request.denotes (r : Request) : Denotes Request.read r.toJson r := by
  have hoperation := Denotes.text r.operation
  have hparams : Denotes (Reader.list Param.read) (.list (r.params.map Param.toJson)) r.params :=
    .list fun p _ => p.denotes
  refine .fullRecord (by decide) rfl ?_ ?_
  · simp [hoperation.wellFormed, hparams.wellFormed]
  · simp only [List.map_cons, List.map_nil, Reader.given, Reader.defaulted, hoperation.read,
      hparams.read]
    rfl

theorem ResourceTarget.denotes (t : ResourceTarget) : Denotes ResourceTarget.read t.toJson t := by
  have htype := Denotes.text t.type
  have hidentifiers : Denotes (Reader.list Param.read) (.list (t.identifiers.map Param.toJson))
      t.identifiers := .list fun p _ => p.denotes
  have hpath := Denotes.optionalText t.path
  refine .fullRecord (by decide) rfl ?_ ?_
  · simp [htype.wellFormed, hidentifiers.wellFormed, hpath.wellFormed]
  · simp only [List.map_cons, List.map_nil, Reader.given, Reader.optional, Reader.defaulted,
      htype.read, hidentifiers.read, hpath.read]
    rfl

theorem Action.denotes (a : Action) : Denotes Action.read a.toJson a := by
  have hrequest : Denotes (Reader.nullable Request.read) (.ofOption Request.toJson a.request)
      a.request := .nullable nofun fun r _ => r.denotes
  have hresource : Denotes (Reader.nullable ResourceTarget.read)
      (.ofOption ResourceTarget.toJson a.resource) a.resource :=
    .nullable nofun fun t _ => t.denotes
  have hpath := Denotes.optionalText a.path
  refine .fullRecord (by decide) rfl ?_ ?_
  · simp [hrequest.wellFormed, hresource.wellFormed, hpath.wellFormed]
  · simp only [List.map_cons, List.map_nil, Reader.optional, Reader.defaulted, hrequest.read,
      hresource.read, hpath.read]
    rfl

theorem Relation.denotes (r : Relation) : Denotes Relation.read r.toJson r := by
  have hresource := r.resource.denotes
  refine .fullRecord (by decide) rfl ?_ ?_
  · simp [hresource.wellFormed]
  · simp only [List.map_cons, List.map_nil, Reader.given, hresource.read]
    rfl

theorem ResourceWaiter.denotes (w : ResourceWaiter) :
    Denotes ResourceWaiter.read w.toJson w := by
  have hname := Denotes.text w.waiterName
  have hparams : Denotes (Reader.list Param.read) (.list (w.params.map Param.toJson)) w.params :=
    .list fun p _ => p.denotes
  refine .fullRecord (by decide) rfl ?_ ?_
  · simp [hname.wellFormed, hparams.wellFormed]
  · simp only [List.map_cons, List.map_nil, Reader.given, Reader.defaulted, hname.read,
      hparams.read]
    rfl

theorem Identifier.denotes (i : Identifier) : Denotes Identifier.read i.toJson i := by
  have hname := Denotes.text i.name
  refine .fullRecord (by decide) rfl ?_ ?_
  · simp [hname.wellFormed]
  · simp only [List.map_cons, List.map_nil, Reader.given, hname.read]
    rfl

theorem ResourceModel.denotes (r : ResourceModel) : Denotes ResourceModel.read r.toJson r := by
  have hidentifiers : Denotes (Reader.list Identifier.read)
      (.list (r.identifiers.map Identifier.toJson)) r.identifiers := .list fun i _ => i.denotes
  have hshape := Denotes.optionalText r.shape
  have hload : Denotes (Reader.nullable Action.read) (.ofOption Action.toJson r.load) r.load :=
    .nullable nofun fun a _ => a.denotes
  have hactions : ∀ m : OrderedMap Action,
      Denotes (Reader.map Action.read) (m.toJson Action.toJson) m := fun m =>
    .entries fun a _ => a.denotes
  have hhas : Denotes (Reader.map Relation.read) (r.has.toJson Relation.toJson) r.has :=
    .entries fun r _ => r.denotes
  have hwaiters : Denotes (Reader.map ResourceWaiter.read) (r.waiters.toJson ResourceWaiter.toJson)
      r.waiters := .entries fun w _ => w.denotes
  refine .fullRecord (by decide) rfl ?_ ?_
  · simp [hidentifiers.wellFormed, hshape.wellFormed, hload.wellFormed,
      (hactions _).wellFormed, hhas.wellFormed, hwaiters.wellFormed]
  · simp only [List.map_cons, List.map_nil, Reader.optional, Reader.defaulted,
      hidentifiers.read, hshape.read, hload.read, (hactions _).read, hhas.read, hwaiters.read]
    rfl

theorem Resources.denotes (r : Resources) : Denotes Resources.read r.toJson r := by
  have hservice := r.service.denotes
  have hresources : Denotes (Reader.map ResourceModel.read)
      (r.resources.toJson ResourceModel.toJson) r.resources := .entries fun r _ => r.denotes
  refine .fullRecord (by decide) rfl ?_ ?_
  · simp [hservice.wellFormed, hresources.wellFormed]
  · simp only [List.map_cons, List.map_nil, Reader.defaulted, hservice.read, hresources.read]
    rfl

/-! ## Schemas -/

/-- A schema that can be read, up to the name of its service. -/
structure Readable (s : Schema) : Prop where
  shapes : ∀ shape ∈ s.model.shapes.values, shape.Tagged
  paginators : ∀ p ∈ s.paginators.values, ∀ v ∈ p.values, PagingRule.Keeps v
  waiters : ∀ r ∈ s.waiters.values, r.Fits

/-- Whether a floating-point number stands in a value of a paging rule. -/
def holdsFloat (s : Schema) : Bool :=
  s.paginators.values.any fun p => p.values.any JsonValue.holdsFloat

/-- **A schema is read from its record.** -/
theorem Readable.denotes {s : Schema} (h : s.Readable) (hfloat : s.holdsFloat = false) :
    Denotes Schema.read s.toJson s := by
  have hname := Denotes.text s.serviceName
  have hclass := Denotes.text s.className
  have hmodel := Model.denotes h.shapes
  have hpaginators : Denotes (Reader.map PagingRule.read)
      (s.paginators.toJson PagingRule.toJson) s.paginators := by
    refine .entries fun p hp => PagingRule.denotes (h.paginators p hp) fun v hv => ?_
    simp only [holdsFloat, List.any_eq_false, Bool.not_eq_true] at hfloat
    exact hfloat p hp v hv
  have hwaiters : Denotes (Reader.map WaitingRule.read) (s.waiters.toJson WaitingRule.toJson)
      s.waiters := .entries fun r hr => WaitingRule.denotes (h.waiters r hr)
  have hresources : Denotes (Reader.nullable Resources.read)
      (.ofOption Resources.toJson s.resources) s.resources := .nullable nofun fun r _ => r.denotes
  have hdocumentation : Denotes (Reader.map Reader.text) (s.documentation.toJson .text)
      s.documentation := .entries fun t _ => .text t
  refine .fullRecord (by decide) rfl ?_ ?_
  · simp [hname.wellFormed, hclass.wellFormed, hmodel.wellFormed, hpaginators.wellFormed,
      hwaiters.wellFormed, hresources.wellFormed, hdocumentation.wellFormed]
  · simp only [List.map_cons, List.map_nil, Reader.given, Reader.optional, Reader.defaulted,
      hname.read, hclass.read, hmodel.read, hpaginators.read, hwaiters.read, hresources.read,
      hdocumentation.read]
    rfl

end Schema

end ServiceStubs
