import ServiceStubs.TypeExpr.Basic

/-!
# Parts and skeletons of type expressions

The parts of an expression are the expression and the parts of its parameters.
The skeleton of an expression is what is left when handles lose their numbers:
it decides the text and the imports, so two expressions that differ in the
numbers only are written alike.

## Main definitions

* `TypeExpr.mem_nodes_subscript` — the parts of a type with parameters.
* `TypeExpr.skeleton` — an expression without the numbers of its handles.
* `TypeExpr.text_eq_of_skeleton_eq` — the skeleton decides the text.
-/

namespace ServiceStubs.TypeExpr

/-! ## Parts -/

theorem nodesOf_eq_flatMap (as : List TypeExpr) : nodesOf as = as.flatMap nodes := by
  induction as with
  | nil => rfl
  | cons a as ih => simp [nodesOf, ih]

@[simp] theorem nodes_scalar (s : Scalar) : (scalar s).nodes = [scalar s] := rfl
@[simp] theorem nodes_literal (values : List String) :
    (literal values).nodes = [literal values] := rfl
@[simp] theorem nodes_dict (ref : DictRef) : (dict ref).nodes = [dict ref] := rfl
@[simp] theorem nodes_external (source : ModulePath) (name : String) (asName : Option String) :
    (external source name asName).nodes = [external source name asName] := rfl
@[simp] theorem nodes_internal (name : String) (module : Option ModulePath) :
    (internal name module).nodes = [internal name module] := rfl

@[simp] theorem nodes_subscript (g : Generic) (args : List TypeExpr) :
    (subscript g args).nodes = subscript g args :: args.flatMap nodes := by
  rw [nodes, nodesOf_eq_flatMap]

theorem mem_nodes_subscript {g : Generic} {args : List TypeExpr} {t : TypeExpr} :
    t ∈ (subscript g args).nodes ↔ t = subscript g args ∨ ∃ a ∈ args, t ∈ a.nodes := by
  simp

/-- An expression is one of its parts. -/
theorem self_mem_nodes (a : TypeExpr) : a ∈ a.nodes := by
  cases a <;> simp

/-! ## Skeletons -/

mutual

/-- The expression without the numbers of its handles. -/
def skeleton : TypeExpr → TypeExpr
  | .scalar s => .scalar s
  | .literal values => .literal values
  | .subscript g args => .subscript g (skeletons args)
  | .dict ref => .dict ⟨0, ref.name⟩
  | .external source name asName => .external source name asName
  | .internal name module => .internal name module

/-- Some expressions without the numbers of their handles. -/
def skeletons : List TypeExpr → List TypeExpr
  | [] => []
  | a :: as => a.skeleton :: skeletons as

end

mutual

/-- The numbers of handles are not written. -/
theorem text_skeleton : (a : TypeExpr) → a.skeleton.text = a.text
  | .scalar _ => rfl
  | .literal _ => rfl
  | .subscript g args => by
      have hempty : (skeletons args).isEmpty = args.isEmpty := by cases args <;> rfl
      rw [skeleton, text, text, texts_skeletons args, hempty]
  | .dict _ => rfl
  | .external _ _ _ => rfl
  | .internal _ _ => rfl

theorem texts_skeletons : (as : List TypeExpr) → texts (skeletons as) = texts as
  | [] => rfl
  | a :: as => by rw [skeletons, texts, texts, text_skeleton a, texts_skeletons as]

end

/-- **The skeleton decides the text.** -/
theorem text_eq_of_skeleton_eq {a b : TypeExpr} (h : a.skeleton = b.skeleton) :
    a.text = b.text := by
  rw [← text_skeleton a, h, text_skeleton b]

/-- Only dictionaries have the skeleton of a dictionary. -/
theorem exists_of_skeleton_eq_dict {a : TypeExpr} {r : DictRef} (h : a.skeleton = dict r) :
    ∃ ref, a = dict ref := by
  cases a with
  | dict ref => exact ⟨ref, rfl⟩
  | _ => nomatch h

@[simp] theorem skeleton_listOf (a : TypeExpr) : (listOf a).skeleton = listOf a.skeleton := rfl
@[simp] theorem skeleton_dict (ref : DictRef) : (dict ref).skeleton = dict ⟨0, ref.name⟩ := rfl

end ServiceStubs.TypeExpr
