import ServiceStubs.Declaration.Class
import ServiceStubs.Proofs.Session.Request

/-!
# Declarations with known types

What a package declares is annotated with types that its session knows, a few
types of the package's own apart.  Rearranging arguments adds no annotation.

## Main definitions

* `Service.Typed` — every annotation is known or one of some given types.
* `Service.typed_list_iff`, `Service.typed_function_iff` — lists and functions,
  by their parts.
-/

namespace ServiceStubs

/-- An argument uses its type. -/
instance : Annotated Argument :=
  ⟨fun a => a.type.toList⟩

namespace Service

variable {α : Type} [Annotated α] {svc : Service} {s t : Session} {own : List TypeExpr}

variable (svc) in
/-- Every annotation of `x` is known, or is one of the types `own`. -/
def Typed (s : Session) (own : List TypeExpr) (x : α) : Prop :=
  ∀ a ∈ Annotated.annotations x, a ∈ own ∨ svc.Known s a

/-- Types stay known while the session grows. -/
theorem Typed.mono {x : α} (h : svc.Typed s own x) (hst : s.Grows t) : svc.Typed t own x :=
  fun a ha => (h a ha).imp id fun hk => hk.mono fun _ hr => hst.has hr

theorem Typed.subset {own' : List TypeExpr} {x : α} (h : svc.Typed s own x) (hown : own ⊆ own') :
    svc.Typed s own' x :=
  fun a ha => (h a ha).imp (fun ha => hown ha) id

/-! ## Lists and arguments -/

theorem typed_list_iff {xs : List α} : svc.Typed s own xs ↔ ∀ x ∈ xs, svc.Typed s own x := by
  simp only [Typed, Annotated.annotations, List.mem_flatMap]
  constructor
  · intro h x hx a ha
    exact h a ⟨x, hx, ha⟩
  · rintro h a ⟨x, hx, ha⟩
    exact h x hx a ha

@[simp] theorem typed_nil : svc.Typed s own ([] : List α) := by
  simp [typed_list_iff]

@[simp] theorem typed_cons {x : α} {xs : List α} :
    svc.Typed s own (x :: xs) ↔ svc.Typed s own x ∧ svc.Typed s own xs := by
  simp [typed_list_iff]

@[simp] theorem typed_append {xs ys : List α} :
    svc.Typed s own (xs ++ ys) ↔ svc.Typed s own xs ∧ svc.Typed s own ys := by
  simp [typed_list_iff, or_imp, forall_and]

theorem Typed.of_subset {xs ys : List α} (h : svc.Typed s own ys) (hsub : xs ⊆ ys) :
    svc.Typed s own xs :=
  typed_list_iff.mpr fun x hx => typed_list_iff.mp h x (hsub hx)

theorem typed_argument_iff {a : Argument} :
    svc.Typed s own a ↔ ∀ type, a.type = some type → type ∈ own ∨ svc.Known s type := by
  simp [Typed, Annotated.annotations]

@[simp] theorem typed_needed (name : String) (type : TypeExpr) :
    svc.Typed s own (Argument.needed name type) ↔ type ∈ own ∨ svc.Known s type := by
  simp [typed_argument_iff, Argument.needed]

@[simp] theorem typed_optional (name : String) (type : TypeExpr) :
    svc.Typed s own (Argument.optional name type) ↔ type ∈ own ∨ svc.Known s type := by
  simp [typed_argument_iff, Argument.optional]

@[simp] theorem typed_variadic (type : TypeExpr) :
    svc.Typed s own (Argument.variadic type) ↔ type ∈ own ∨ svc.Known s type := by
  simp [typed_argument_iff, Argument.variadic]

@[simp] theorem typed_keywords (type : TypeExpr) :
    svc.Typed s own (Argument.keywords type) ↔ type ∈ own ∨ svc.Known s type := by
  simp [typed_argument_iff, Argument.keywords]

@[simp] theorem typed_self : svc.Typed s own Argument.self := by
  simp [typed_argument_iff, Argument.self]

@[simp] theorem typed_keywordMark : svc.Typed s own Argument.keywordMark := by
  simp [typed_argument_iff, Argument.keywordMark]

@[simp] theorem typed_requiredFirst {as : List Argument} :
    svc.Typed s own (requiredFirst as) ↔ svc.Typed s own as := by
  simp only [typed_list_iff, requiredFirst, List.mem_append, List.mem_filter]
  constructor
  · intro h a ha
    cases hreq : a.isRequired with
    | true => exact h a (.inl ⟨ha, hreq⟩)
    | false => exact h a (.inr ⟨ha, by simp [hreq]⟩)
  · rintro h a (⟨ha, -⟩ | ⟨ha, -⟩) <;> exact h a ha

theorem Typed.keywordOnly {as : List Argument} (h : svc.Typed s own as) :
    svc.Typed s own (keywordOnly as) := by
  unfold ServiceStubs.keywordOnly
  split <;> simp [h]

theorem Typed.addKeyword {as : List Argument} {a : Argument} (h : svc.Typed s own as)
    (ha : svc.Typed s own a) : svc.Typed s own (addKeyword as a) := by
  unfold ServiceStubs.addKeyword
  split <;> simp [h, ha]

/-! ## Functions and classes -/

/-- A function uses the types of its arguments, the type that it returns, and its
decorators. -/
theorem typed_function_iff {f : FunctionStub} :
    svc.Typed s own f ↔ svc.Typed s own f.arguments ∧
      (f.returnType ∈ own ∨ svc.Known s f.returnType) ∧
      ∀ d ∈ f.decorators, d ∈ own ∨ svc.Known s d := by
  have hargs : f.arguments.filterMap (·.type) = Annotated.annotations f.arguments := by
    simp only [Annotated.annotations]
    rw [List.filterMap_eq_flatMap_toList]
  simp only [Typed]
  change (∀ a ∈ f.arguments.filterMap (·.type) ++ [f.returnType] ++ f.decorators, _) ↔ _
  rw [hargs]
  simp [or_imp, forall_and]

@[simp] theorem typed_method {name : String} {as : List Argument} {type : TypeExpr} :
    svc.Typed s own (FunctionStub.method name as type) ↔
      svc.Typed s own as ∧ (type ∈ own ∨ svc.Known s type) := by
  simp [typed_function_iff, FunctionStub.method]

/-- An attribute uses its type. -/
instance : Annotated Attribute :=
  ⟨fun a => [a.type]⟩

@[simp] theorem typed_attribute {a : Attribute} :
    svc.Typed s own a ↔ a.type ∈ own ∨ svc.Known s a.type := by
  simp [Typed, Annotated.annotations]

/-- A class uses its bases, and what its attributes and methods use. -/
theorem typed_class_iff {c : ClassStub} :
    svc.Typed s own c ↔ (∀ b ∈ c.bases, b ∈ own ∨ svc.Known s b) ∧
      svc.Typed s own c.attributes ∧ svc.Typed s own c.methods := by
  have hmethods : svc.Typed s own c.methods ↔ ∀ a ∈ c.methods.flatMap Annotated.annotations,
      a ∈ own ∨ svc.Known s a := .rfl
  rw [hmethods, typed_list_iff]
  change (∀ a ∈ c.bases ++ c.attributes.map (·.type) ++ c.methods.flatMap _, _) ↔ _
  simp only [List.mem_append, or_imp, forall_and, List.mem_map, forall_exists_index, and_imp,
    forall_apply_eq_imp_iff₂, typed_attribute, and_assoc]

end Service

end ServiceStubs
