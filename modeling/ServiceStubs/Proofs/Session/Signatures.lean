import ServiceStubs.Proofs.Declaration.Signature
import ServiceStubs.Proofs.Session.Gives
import ServiceStubs.Session.Methods

/-!
# What the methods of a schema take

The names of the arguments of a method are those of the inputs of its operation,
without the ones that the method fills, and then perhaps that of the settings of a
paginator or waiter.  A relation takes the identifiers that it leaves open.

## Main definitions

* `Service.inputNames`, `Schema.ResourceTarget.openNames` — names of inputs and of
  open identifiers.
* `Service.takes_clientMethod` and its kin — what each kind of method takes.
-/

namespace ServiceStubs

open Text (snakeCase)

/-- The identifiers that a relation leaves open, as its method calls them. -/
def Schema.ResourceTarget.openNames (t : Schema.ResourceTarget) : List String :=
  (t.identifiers.filter (·.source = .input)).map fun p => snakeCase p.target

namespace Service

variable {svc : Service} {f : FunctionStub} {name : String}

/-- The inputs of an operation, those in `exclude` apart. -/
def inputNames (svc : Service) (o : Schema.Operation) (exclude : List String) : List String :=
  match o.input.bind fun input => svc.model.shapes.get? input.shape with
  | none => []
  | some shape => shape.members.keys.filter (!exclude.contains ·)

theorem mem_inputNames_iff {o : Schema.Operation} {exclude : List String} {n : String} :
    n ∈ svc.inputNames o exclude ↔ n ∈ svc.inputNames o [] ∧ n ∉ exclude := by
  unfold inputNames
  split <;> simp

theorem nodup_inputNames (svc : Service) (o : Schema.Operation) (exclude : List String) :
    (svc.inputNames o exclude).Nodup := by
  unfold inputNames
  split
  · exact List.nodup_nil
  · next shape _ => exact shape.members.nodup.filter _

/-! ## Arguments -/

theorem name_argument {operation : String} {shape : Schema.Shape}
    {member : String × Schema.ShapeRef} {a : Argument}
    (h : (svc.argument operation shape member).Gives a) : a.name = member.1 ∧ a.stars = .none := by
  have hmade : ∃ type, a = if shape.isRequired member.1 then .needed member.1 type
      else .optional member.1 type := by
    unfold argument at h
    dsimp only at h
    split at h <;> obtain ⟨type, -, h⟩ := h.of_bind <;> exact ⟨type, h.of_pure.symm⟩
  obtain ⟨type, rfl⟩ := hmade
  split <;> exact ⟨rfl, rfl⟩

theorem takes_arguments {operation : String} {input : Schema.ShapeRef} {exclude : List String}
    {as : List Argument} (h : (svc.arguments operation input exclude).Gives as) :
    RequiredFirst as ∧
      (as.map (·.name)).Perm (svc.inputNames { input := some input } exclude) := by
  unfold arguments at h
  unfold inputNames
  rw [Option.bind_some]
  cases hshape : svc.model.shapes.get? input.shape with
  | none =>
      simp only [hshape] at h
      obtain rfl := h.of_pure
      exact ⟨.nil, .refl []⟩
  | some shape =>
      simp only [hshape] at h
      obtain ⟨bs, hbs, h⟩ := h.of_bind
      obtain rfl := h.of_pure
      have hnames := hbs.of_mapM.imp fun _ _ h => name_argument h
      have hstars : ∀ b ∈ bs, b.stars = .none := by
        intro b hb
        obtain ⟨member, -, hmember⟩ := exists_of_mem_forall₂ hnames hb
        exact hmember.2
      have hmap : bs.map (·.name) = shape.members.keys.filter (!exclude.contains ·) := by
        rw [map_eq_of_forall₂ (hnames.imp fun _ _ h => h.1), OrderedMap.keys, List.filter_map]
        rfl
      exact ⟨requiredFirst_spec hstars, ((requiredFirst_perm bs).map _).trans (.of_eq hmap)⟩

theorem takes_keywordArguments {o : Schema.Operation} {exclude : List String} {as : List Argument}
    (h : (svc.keywordArguments name o exclude).Gives as) :
    ∃ bs, as = keywordOnly bs ∧ RequiredFirst bs ∧
      (bs.map (·.name)).Perm (svc.inputNames o exclude) := by
  unfold keywordArguments at h
  split at h
  · next hnone =>
      obtain rfl := h.of_pure
      exact ⟨[], rfl, .nil, by simp [inputNames, hnone]⟩
  · next input hinput =>
      obtain ⟨bs, hbs, h⟩ := h.of_bind
      obtain rfl := h.of_pure
      obtain ⟨horder, hnames⟩ := takes_arguments hbs
      refine ⟨bs, rfl, horder, ?_⟩
      simpa [inputNames, hinput] using hnames

/-- Settings that may be left out come after the arguments of the operation. -/
theorem takes_addKeyword {o : Schema.Operation} {exclude : List String} {operation : String}
    {as : List Argument} (h : (svc.keywordArguments operation o exclude).Gives as)
    (settings : String) (type result : TypeExpr) :
    (FunctionStub.method name (addKeyword as (.optional settings type)) result).Takes
      (svc.inputNames o exclude ++ [settings]) := by
  obtain ⟨bs, rfl, horder, hnames⟩ := takes_keywordArguments h
  rw [addKeyword_keywordOnly]
  refine .byName (horder.concat rfl rfl) ?_
  rw [List.map_append]
  exact hnames.append_right _

theorem takes_byName {o : Schema.Operation} {exclude : List String} {operation : String}
    {as : List Argument} (h : (svc.keywordArguments operation o exclude).Gives as)
    (result : TypeExpr) :
    (FunctionStub.method name as result).Takes (svc.inputNames o exclude) := by
  obtain ⟨bs, rfl, horder, hnames⟩ := takes_keywordArguments h
  exact .byName horder hnames

/-! ## Methods of the low-level service -/

theorem takes_clientMethod (h : (svc.clientMethod name).Gives f) :
    ∃ o, svc.operation name = .ok o ∧ f.Takes (svc.inputNames o []) := by
  unfold clientMethod at h
  obtain ⟨o, ho, h⟩ := h.of_ofExcept_bind
  obtain ⟨as, has, h⟩ := h.of_lift_bind
  obtain ⟨type, -, h⟩ := h.of_lift_bind
  obtain rfl := h.of_pure
  have htakes : (FunctionStub.method (snakeCase name) as type).Takes (svc.inputNames o []) :=
    takes_byName has type
  exact ⟨o, ho, htakes.congr rfl⟩

theorem takes_paginateMethod (h : (svc.paginateMethod name).Gives f) :
    ∃ rule o, svc.schema.paginator name = .ok rule ∧ svc.operation name = .ok o ∧
      f.Takes (svc.inputNames o (pagingInputs rule) ++ ["PaginationConfig"]) := by
  unfold paginateMethod at h
  obtain ⟨rule, hrule, h⟩ := h.of_ofExcept_bind
  obtain ⟨o, ho, h⟩ := h.of_ofExcept_bind
  obtain ⟨as, has, h⟩ := h.of_lift_bind
  obtain ⟨settings, -, h⟩ := h.of_lift_bind
  obtain ⟨type, -, h⟩ := h.of_lift_bind
  obtain rfl := h.of_pure
  exact ⟨rule, o, hrule, ho, takes_addKeyword has _ settings _⟩

theorem takes_waitOn {operation : String} {o : Schema.Operation} {exclude : List String}
    (h : (svc.waitOn name operation o exclude).Gives f) :
    f.Takes (svc.inputNames o exclude ++ ["WaiterConfig"]) := by
  unfold waitOn at h
  obtain ⟨as, has, h⟩ := h.of_bind
  obtain ⟨settings, -, h⟩ := h.of_bind
  obtain rfl := h.of_pure
  exact takes_addKeyword has _ settings _

theorem takes_waitMethod (h : (svc.waitMethod name).Gives f) :
    ∃ rule o, svc.schema.waiter name = .ok rule ∧ svc.operation rule.operation = .ok o ∧
      f.Takes (svc.inputNames o [] ++ ["WaiterConfig"]) := by
  unfold waitMethod at h
  obtain ⟨rule, hrule, h⟩ := h.of_ofExcept_bind
  obtain ⟨o, ho, h⟩ := h.of_ofExcept_bind
  exact ⟨rule, o, hrule, ho, takes_waitOn h.of_lift⟩

/-! ## Methods of resources -/

variable (svc) in
/-- The names are those of the inputs of a request, without what the method fills,
or there is no request and no name. -/
inductive RequestNames : List String → Prop
  | nothing : RequestNames []
  | inputs {request : Schema.Request} {o : Schema.Operation}
      (ho : svc.operation request.operation = .ok o) :
      RequestNames (svc.inputNames o request.identifierTargets)

theorem takes_actionOf {a : Schema.Action} (h : (svc.actionOf name a).Gives f) :
    ∃ names, svc.RequestNames names ∧ f.Takes names := by
  unfold actionOf at h
  obtain ⟨yielded, -, h⟩ := h.of_ofExcept_bind
  split at h
  · obtain rfl := h.of_pure
    exact ⟨[], .nothing, .nothing⟩
  · next request _ =>
      obtain ⟨o, ho, h⟩ := h.of_ofExcept_bind
      obtain ⟨as, has, h⟩ := h.of_lift_bind
      have htakes : ∃ type, f = .method (snakeCase name) as type := by
        dsimp only at h
        split at h
        · exact ⟨_, h.of_pure.symm⟩
        · obtain ⟨type, -, h⟩ := h.of_lift_bind
          exact ⟨type, h.of_pure.symm⟩
      obtain ⟨type, rfl⟩ := htakes
      exact ⟨_, .inputs ho, takes_byName has type⟩

theorem takes_actionMethod {owner : Schema.ResourceModel}
    (h : (svc.actionMethod owner name).Gives f) :
    ∃ names, svc.RequestNames names ∧ f.Takes names := by
  unfold actionMethod at h
  obtain ⟨a, -, h⟩ := h.of_ofExcept_bind
  exact takes_actionOf h

theorem takes_batchMethod {a : Schema.Action} (h : (svc.batchMethod name a).Gives f) :
    ∃ names, svc.RequestNames names ∧ f.Takes names := by
  unfold batchMethod at h
  split at h
  · exact absurd h Build.Gives.of_throw
  · next request _ =>
      obtain ⟨o, ho, h⟩ := h.of_ofExcept_bind
      obtain ⟨as, has, h⟩ := h.of_lift_bind
      obtain ⟨type, -, h⟩ := h.of_lift_bind
      obtain rfl := h.of_pure
      exact ⟨_, .inputs ho, takes_byName has _⟩

theorem takes_filterMethod {relation : Schema.Action} {self : TypeExpr}
    (h : (svc.filterMethod relation self).Gives f) :
    ∃ names, svc.RequestNames names ∧ f.Takes names := by
  unfold filterMethod at h
  split at h
  · obtain rfl := h.of_pure
    exact ⟨[], .nothing, .nothing⟩
  · next request _ =>
      obtain ⟨o, ho, h⟩ := h.of_ofExcept_bind
      obtain ⟨as, has, h⟩ := h.of_lift_bind
      obtain rfl := h.of_pure
      exact ⟨_, .inputs ho, takes_byName has _⟩

theorem takes_resourceWaitMethod {w : Schema.ResourceWaiter}
    (h : (svc.resourceWaitMethod name w).Gives f) :
    ∃ rule o, svc.schema.waiter w.waiterName = .ok rule ∧
      svc.operation rule.operation = .ok o ∧
      f.Takes (svc.inputNames o (w.params.map (·.target)) ++ ["WaiterConfig"]) := by
  unfold resourceWaitMethod at h
  obtain ⟨rule, hrule, h⟩ := h.of_ofExcept_bind
  obtain ⟨o, ho, h⟩ := h.of_ofExcept_bind
  exact ⟨rule, o, hrule, ho, takes_waitOn h.of_lift⟩

/-- A relation takes what it leaves open by place, and all of it must be given. -/
theorem takes_relationMethod {target : Schema.ResourceTarget}
    (h : svc.relationMethod name target = .ok f) : f.Takes target.openNames := by
  obtain ⟨type, -, h⟩ := bind_eq_ok_iff.mp h
  obtain rfl := Except.ok.inj h
  refine .byPlace (.of_required ?_ ?_) ?_
  · intro a ha
    obtain ⟨p, -, rfl⟩ := List.mem_map.mp ha
    rfl
  · intro a ha
    obtain ⟨p, -, rfl⟩ := List.mem_map.mp ha
    rfl
  · rw [List.map_map]
    exact .refl _

end Service

end ServiceStubs
