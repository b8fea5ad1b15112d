import ServiceStubs.Package.EntityDocs
import ServiceStubs.Proofs.Collection.OrderedMap
import ServiceStubs.Proofs.Declaration.Typed
import ServiceStubs.Proofs.Documentation.Known

/-!
# Documented methods have known types

Documentation completes the methods of an entity and adds others.  All types that
it brings are known, so methods stay typed.

## Main definitions

* `Service.typed_complete`, `Service.typed_describedMethod` — a documentation in
  both of its uses.
* `Service.typed_document`, `Service.typed_fallback`, `Service.typed_further` —
  the methods of an entity.
-/

namespace ServiceStubs.Service

open Documentation

variable {svc : Service} {s : Session} {own : List TypeExpr} {info : MethodInfo}
  {f : FunctionStub}

/-! ## Documentation -/

@[simp] theorem typed_toArgument {a : ArgumentInfo} :
    svc.Typed s own a.toArgument ↔ a.type ∈ own ∨ svc.Known s a.type := by
  unfold ArgumentInfo.toArgument
  split <;> simp

theorem typed_argumentsOf (h : ∀ a ∈ info.types, svc.Known s a) {as : List ArgumentInfo}
    (has : as ⊆ info.arguments) : svc.Typed s own (as.map ArgumentInfo.toArgument) := by
  rw [typed_list_iff]
  intro a ha
  obtain ⟨b, hb, rfl⟩ := List.mem_map.mp ha
  exact typed_toArgument.mpr
    (.inr (h b.type (List.mem_append_left _ (List.mem_map_of_mem (has hb)))))

theorem known_returnType (h : ∀ a ∈ info.types, svc.Known s a) {default : TypeExpr}
    (hdefault : default ∈ own ∨ svc.Known s default) :
    info.returnType.getD default ∈ own ∨ svc.Known s (info.returnType.getD default) := by
  cases htype : info.returnType with
  | none => exact hdefault
  | some a => exact .inr (h a (List.mem_append_right _ (by simp [htype])))

/-- Further arguments stand among the others. -/
theorem Typed.withExtraArguments {as extra : List Argument} (has : svc.Typed s own as)
    (hextra : svc.Typed s own extra) : svc.Typed s own (withExtraArguments as extra) := by
  have hall : ∀ {bs : List Argument}, svc.Typed s own bs →
      svc.Typed s own (bs.takeWhile staysInFront ++
        requiredFirst (bs.dropWhile staysInFront ++ extra)) := by
    intro bs hbs
    rw [typed_append, typed_requiredFirst, typed_append]
    exact ⟨hbs.of_subset (List.takeWhile_sublist _).subset,
      hbs.of_subset (List.dropWhile_sublist _).subset, hextra⟩
  unfold Documentation.withExtraArguments
  dsimp only
  split
  · exact hall (by simp [has])
  · exact hall has

/-- A method stays typed when it is completed. -/
theorem typed_complete (h : ∀ a ∈ info.types, svc.Known s a) (hf : svc.Typed s own f) :
    svc.Typed s own (info.complete f) := by
  obtain ⟨hargs, hreturn, hdecorators⟩ := typed_function_iff.mp hf
  rw [typed_function_iff]
  refine ⟨?_, ?_, hdecorators⟩
  · simp only [MethodInfo.complete]
    split
    · exact hargs
    · exact hargs.withExtraArguments (typed_argumentsOf h (List.filter_subset_self _))
  · simp only [MethodInfo.complete]
    split
    · exact known_returnType h hreturn
    · exact hreturn

theorem typed_describedMethod (h : ∀ a ∈ info.types, svc.Known s a) (name : String) :
    svc.Typed s own (info.method name) := by
  have hargs : svc.Typed s own (info.arguments.map ArgumentInfo.toArgument) :=
    typed_argumentsOf h fun _ h => h
  have hmethod : svc.Typed s own (FunctionStub.method name
      (requiredFirst (info.arguments.map ArgumentInfo.toArgument))
      (info.returnType.getD .any)) :=
    typed_method.mpr ⟨typed_requiredFirst.mpr hargs, known_returnType h (.inr known_any)⟩
  exact typed_function_iff.mpr (typed_function_iff.mp hmethod)

theorem typed_undescribed (name : String) : svc.Typed s own (undescribed name) := by
  simp [undescribed]

/-! ## Entities -/

variable {docs : EntityDocs}

theorem typed_document (hdocs : docs.schema = svc.schema) (hf : svc.Typed s own f) :
    svc.Typed s own (docs.document f) := by
  unfold EntityDocs.document
  split
  · exact hf
  · next text htext =>
      split
      · next info hinfo =>
          rw [EntityDocs.read, hdocs] at hinfo
          rw [hdocs] at htext
          exact typed_complete (known_of_ofText (OrderedMap.mem_values_of_get? htext) hinfo) hf
      · exact hf

theorem typed_map_document (hdocs : docs.schema = svc.schema) {fs : List FunctionStub}
    (hfs : svc.Typed s own fs) : svc.Typed s own (fs.map docs.document) := by
  rw [typed_list_iff] at hfs ⊢
  intro f hf
  obtain ⟨g, hg, rfl⟩ := List.mem_map.mp hf
  exact typed_document hdocs (hfs g hg)

theorem typed_docsOfText (hdocs : docs.schema = svc.schema) {text : String}
    (htext : text ∈ svc.schema.documentation.values) (name : String) :
    svc.Typed s own (docs.ofText name text) := by
  unfold EntityDocs.ofText
  split
  · next info hinfo =>
      rw [EntityDocs.read, hdocs] at hinfo
      exact typed_describedMethod (known_of_ofText htext hinfo) name
  · exact typed_undescribed name

/-- The hints for the methods that are never documented. -/
def builtInHints : List String :=
  ["None", "sequence(string)", "boolean", "string", "dict", "integer"]

theorem known_builtInHint {resources : List String} {hint : String} (h : hint ∈ builtInHints) :
    svc.Known s (typeOfHint resources hint) := by
  have hnone : typeOfHint resources "None" = .none := rfl
  have hnames : typeOfHint resources "sequence(string)" = .subscript .sequence [.str] := rfl
  have hbool : typeOfHint resources "boolean" = .bool := rfl
  have hstr : typeOfHint resources "string" = .str := rfl
  have hdict : typeOfHint resources "dict" = .looseDict := rfl
  have hint : typeOfHint resources "integer" = .int := rfl
  simp only [builtInHints, List.mem_cons, List.not_mem_nil, or_false] at h
  rcases h with rfl | rfl | rfl | rfl | rfl | rfl
  · rw [hnone]
    exact known_none
  · rw [hnames]
    simp
  · rw [hbool]
    exact known_bool
  · rw [hstr]
    exact known_str
  · rw [hdict]
    exact known_looseDict
  · rw [hint]
    exact known_int

theorem hints_undocumented : ∀ m ∈ undocumented,
    m.returnHint ∈ builtInHints ∧ ∀ a ∈ m.arguments, a.2.1 ∈ builtInHints := by
  decide

/-- The methods that are never documented have built-in types. -/
theorem known_undocumented {resources : List String} {name : String}
    (h : undocumented? resources name = some info) : ∀ a ∈ info.types, svc.Known s a := by
  obtain ⟨m, hm, rfl⟩ := Option.map_eq_some_iff.mp h
  obtain ⟨hreturn, hargs⟩ := hints_undocumented m (List.mem_of_find?_eq_some hm)
  intro a ha
  rcases List.mem_append.mp ha with ha | ha
  · simp only [List.mem_map, exists_exists_and_eq_and] at ha
    obtain ⟨arg, harg, rfl⟩ := ha
    exact known_builtInHint (hargs arg harg)
  · obtain rfl := List.mem_singleton.mp ha
    exact known_builtInHint hreturn

theorem typed_fallback (hdocs : docs.schema = svc.schema) {name : String}
    (h : docs.fallback? name = some f) : svc.Typed s own f := by
  unfold EntityDocs.fallback? at h
  split at h
  · next text htext =>
      obtain rfl := Option.some.inj h
      rw [hdocs] at htext
      exact typed_docsOfText hdocs (OrderedMap.mem_values_of_get? htext) name
  · obtain ⟨info, hinfo, rfl⟩ := Option.map_eq_some_iff.mp h
    exact typed_describedMethod (known_undocumented hinfo) name

theorem typed_filterMap_fallback (hdocs : docs.schema = svc.schema) (names : List String) :
    svc.Typed s own (names.filterMap docs.fallback?) := by
  rw [typed_list_iff]
  intro f hf
  obtain ⟨name, -, hname⟩ := List.mem_filterMap.mp hf
  exact typed_fallback hdocs hname

theorem typed_further (hdocs : docs.schema = svc.schema) (methods : List FunctionStub) :
    svc.Typed s own (docs.further methods) := by
  rw [typed_list_iff]
  intro f hf
  obtain ⟨⟨name, text⟩, hentry, rfl⟩ := List.mem_map.mp hf
  obtain ⟨⟨key, text'⟩, hkey, hname⟩ := List.mem_filterMap.mp (List.mem_filter.mp hentry).1
  obtain ⟨rest, -, heq⟩ := Option.map_eq_some_iff.mp hname
  obtain rfl : text' = text := congrArg Prod.snd heq
  refine typed_docsOfText hdocs ?_ name
  rw [← hdocs]
  exact List.mem_map_of_mem hkey

end ServiceStubs.Service
