import Mathlib.Data.List.Nodup
import ServiceStubs.Proofs.Session.Gives
import ServiceStubs.Session.Methods

/-!
# What the members of a schema are called

A method is called after its operation, action, relation or waiter, in snake case but
for relations, and has no decorators.  The attributes for the data of a resource are
called after its identifiers and the members of its shape, in snake case; a member
whose name is taken is left out, an identifier is not.

## Main definitions

* `FunctionStub.Named` — a method without decorators, by its name.
* `Service.named_clientMethod` and its kin — the names of methods.
* `Schema.ResourceModel.identifierNames`, `Service.dataNames` — the names of attributes.
* `Service.names_resourceAttributes` — the attributes for the data of a resource.
-/

namespace ServiceStubs

open Text (snakeCase)

/-- The method has the name, and no decorators. -/
structure FunctionStub.Named (f : FunctionStub) (name : String) : Prop where
  name : f.name = name
  plain : f.decorators = []

theorem FunctionStub.Named.method (name : String) (arguments : List Argument) (type : TypeExpr) :
    (FunctionStub.method name arguments type).Named name :=
  ⟨rfl, rfl⟩

/-- The names of the attributes for the identifiers of a resource. -/
def Schema.ResourceModel.identifierNames (r : Schema.ResourceModel) : List String :=
  r.identifiers.map fun i => snakeCase i.name

namespace Service

variable {svc : Service} {f : FunctionStub} {name : String}

/-! ## Methods -/

theorem named_clientMethod (h : (svc.clientMethod name).Gives f) : f.Named (snakeCase name) := by
  unfold clientMethod at h
  obtain ⟨o, -, h⟩ := h.of_ofExcept_bind
  obtain ⟨arguments, -, h⟩ := h.of_lift_bind
  obtain ⟨type, -, h⟩ := h.of_lift_bind
  obtain rfl := h.of_pure
  exact ⟨rfl, rfl⟩

theorem named_waitOn {operation : String} {o : Schema.Operation} {exclude : List String}
    (h : (svc.waitOn name operation o exclude).Gives f) : f.Named name := by
  unfold waitOn at h
  obtain ⟨arguments, -, h⟩ := h.of_bind
  obtain ⟨settings, -, h⟩ := h.of_bind
  obtain rfl := h.of_pure
  exact .method _ _ _

theorem named_resourceWaitMethod {w : Schema.ResourceWaiter}
    (h : (svc.resourceWaitMethod name w).Gives f) : f.Named ("wait_until_" ++ snakeCase name) := by
  unfold resourceWaitMethod at h
  obtain ⟨rule, -, h⟩ := h.of_ofExcept_bind
  obtain ⟨o, -, h⟩ := h.of_ofExcept_bind
  exact named_waitOn h.of_lift

theorem named_actionMethod {owner : Schema.ResourceModel}
    (h : (svc.actionMethod owner name).Gives f) : f.Named (snakeCase name) := by
  unfold actionMethod at h
  obtain ⟨a, -, h⟩ := h.of_ofExcept_bind
  unfold actionOf at h
  obtain ⟨yielded, -, h⟩ := h.of_ofExcept_bind
  split at h
  · obtain rfl := h.of_pure
    exact .method _ _ _
  · obtain ⟨o, -, h⟩ := h.of_ofExcept_bind
    obtain ⟨arguments, -, h⟩ := h.of_lift_bind
    dsimp only at h
    split at h
    · obtain rfl := h.of_pure
      exact .method _ _ _
    · obtain ⟨type, -, h⟩ := h.of_lift_bind
      obtain rfl := h.of_pure
      exact .method _ _ _

theorem named_batchMethod {a : Schema.Action} (h : (svc.batchMethod name a).Gives f) :
    f.Named (snakeCase name) := by
  unfold batchMethod at h
  split at h
  · exact absurd h Build.Gives.of_throw
  · obtain ⟨o, -, h⟩ := h.of_ofExcept_bind
    obtain ⟨arguments, -, h⟩ := h.of_lift_bind
    obtain ⟨type, -, h⟩ := h.of_lift_bind
    obtain rfl := h.of_pure
    exact .method _ _ _

theorem named_filterMethod {relation : Schema.Action} {self : TypeExpr}
    (h : (svc.filterMethod relation self).Gives f) : f.Named "filter" := by
  unfold filterMethod at h
  split at h
  · obtain rfl := h.of_pure
    exact .method _ _ _
  · obtain ⟨o, -, h⟩ := h.of_ofExcept_bind
    obtain ⟨arguments, -, h⟩ := h.of_lift_bind
    obtain rfl := h.of_pure
    exact .method _ _ _

theorem named_relationMethod {target : Schema.ResourceTarget}
    (h : svc.relationMethod name target = .ok f) : f.Named name := by
  obtain ⟨type, -, h⟩ := bind_eq_ok_iff.mp h
  obtain rfl := Except.ok.inj h
  exact .method _ _ _

/-! ## Attributes for data -/

/-- The names of the data of a resource: its identifiers and the members of its shape. -/
def dataNames (svc : Service) (r : Schema.ResourceModel) : List String :=
  r.identifierNames ++
    match r.shape.bind svc.model.shapes.get? with
    | none => []
    | some shape => shape.members.keys.map snakeCase

/-- A member adds its name unless the name is taken. -/
theorem names_addMemberAttribute {as bs : List Attribute} {member : String × Schema.ShapeRef}
    (h : (svc.addMemberAttribute as member).Gives bs) :
    ((bs.map (·.name)).Nodup ↔ (as.map (·.name)).Nodup) ∧
      ∀ n, n ∈ bs.map (·.name) ↔ n ∈ as.map (·.name) ∨ n = snakeCase member.1 := by
  unfold addMemberAttribute at h
  by_cases htaken : snakeCase member.1 ∈ as.map (·.name)
  · have hany : as.any (·.name = snakeCase member.1) := by
      simpa [List.any_eq_true, List.mem_map] using htaken
    rw [if_pos hany] at h
    obtain rfl := h.of_pure
    refine ⟨Iff.rfl, fun n => ⟨.inl, ?_⟩⟩
    rintro (hn | rfl)
    · exact hn
    · exact htaken
  · have hany : ¬ as.any (·.name = snakeCase member.1) := by
      simpa [List.any_eq_true, List.mem_map] using htaken
    rw [if_neg hany] at h
    obtain ⟨type, -, h⟩ := h.of_bind
    obtain rfl := h.of_pure
    constructor
    · rw [List.map_append, List.nodup_append']
      simp [htaken]
    · simp

theorem names_addMemberAttributes {members : List (String × Schema.ShapeRef)}
    {as bs : List Attribute} (h : (members.foldlM svc.addMemberAttribute as).Gives bs) :
    ((bs.map (·.name)).Nodup ↔ (as.map (·.name)).Nodup) ∧
      ∀ n, n ∈ bs.map (·.name) ↔
        n ∈ as.map (·.name) ∨ n ∈ members.map fun m => snakeCase m.1 := by
  induction members generalizing as with
  | nil =>
      obtain rfl := h.of_pure
      simp
  | cons member members ih =>
      rw [List.foldlM_cons] at h
      obtain ⟨cs, hcs, h⟩ := h.of_bind
      obtain ⟨hnodup, hmem⟩ := names_addMemberAttribute hcs
      obtain ⟨ihnodup, ihmem⟩ := ih h
      refine ⟨ihnodup.trans hnodup, fun n => ?_⟩
      rw [ihmem, hmem, List.map_cons, List.mem_cons, or_assoc]

/-- **The attributes for the data of a resource**: they have the names of its data, and
no two have one name if its identifiers differ. -/
theorem names_resourceAttributes {r : Schema.ResourceModel} {as : List Attribute}
    (h : (svc.resourceAttributes r).Gives as) :
    ((as.map (·.name)).Nodup ↔ r.identifierNames.Nodup) ∧
      ∀ n, n ∈ as.map (·.name) ↔ n ∈ svc.dataNames r := by
  have hidentifiers : (identifierAttributes r).map (·.name) = r.identifierNames := by
    rw [identifierAttributes, List.map_map]
    rfl
  unfold resourceAttributes at h
  unfold dataNames
  cases hshape : r.shape.bind svc.model.shapes.get? with
  | none =>
      rw [hshape] at h
      obtain rfl := h.of_pure
      simp [hidentifiers]
  | some shape =>
      rw [hshape] at h
      obtain ⟨hnodup, hmem⟩ := names_addMemberAttributes h
      rw [hidentifiers] at hnodup
      refine ⟨hnodup, fun n => ?_⟩
      rw [hmem, hidentifiers, List.mem_append]
      simp only [OrderedMap.keys, List.map_map, Function.comp_def]

end Service

end ServiceStubs
