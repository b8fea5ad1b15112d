import ServiceStubs.Declaration.Entity
import ServiceStubs.Documentation.Method
import ServiceStubs.Proofs.Declaration.Typed
import ServiceStubs.Proofs.TypeExpr.Nodes

/-!
# Declarations without the numbers of handles

The skeleton of a declaration is the declaration with the skeletons of its types.
What is written of a declaration, and what must be imported to write it, do not
depend on the numbers of handles, so declarations with one skeleton are written
alike.

## Main definitions

* `Skeletal` — what has a skeleton, with the annotations of the skeleton.
* `Alike` — two declarations have one skeleton.
* `Alike.requiredImports_eq` — they need the same imports.
* `alike_function_iff`, `alike_class_iff` — functions and classes, by their parts.
* `Alike.requiredFirst` and its kin — arguments that are rearranged alike.
-/

namespace ServiceStubs

/-! ## Imports -/

namespace TypeExpr

mutual

theorem map_headImport_skeleton :
    (a : TypeExpr) → a.skeleton.nodes.map headImport = a.nodes.map headImport
  | .scalar _ => rfl
  | .literal _ => rfl
  | .subscript g args => by
      rw [skeleton, nodes, nodes, List.map_cons, List.map_cons, map_headImport_skeletons args]
      rfl
  | .dict _ => rfl
  | .external _ _ _ => rfl
  | .internal _ _ => rfl

theorem map_headImport_skeletons :
    (as : List TypeExpr) → (nodesOf (skeletons as)).map headImport = (nodesOf as).map headImport
  | [] => rfl
  | a :: as => by
      rw [skeletons, nodesOf, nodesOf, List.map_append, List.map_append,
        map_headImport_skeleton a, map_headImport_skeletons as]

end

/-- The numbers of handles are not imported. -/
@[simp] theorem imports_skeleton (a : TypeExpr) : a.skeleton.imports = a.imports := by
  rw [imports, map_headImport_skeleton, imports]

@[simp] theorem isAny_skeleton (a : TypeExpr) : a.skeleton.isAny = a.isAny := by
  cases a with
  | scalar c => rfl
  | _ => rfl

end TypeExpr

/-! ## Skeletons -/

/-- A type uses itself. -/
instance : Annotated TypeExpr :=
  ⟨fun a => [a]⟩

/-- What has a skeleton, whose annotations are the skeletons of its own. -/
class Skeletal (α : Type) [Annotated α] where
  skeleton : α → α
  annotations_skeleton : ∀ x, Annotated.annotations (skeleton x) =
    (Annotated.annotations x).map TypeExpr.skeleton

open Documentation
open Skeletal (skeleton)

instance : Skeletal TypeExpr where
  skeleton := TypeExpr.skeleton
  annotations_skeleton _ := rfl

section Lists

variable {α : Type} [Annotated α] [Skeletal α]

instance : Skeletal (List α) where
  skeleton := List.map skeleton
  annotations_skeleton as := by
    simp only [Annotated.annotations, List.flatMap_map, Skeletal.annotations_skeleton,
      List.map_flatMap]

instance : Skeletal (Option α) where
  skeleton := Option.map skeleton
  annotations_skeleton a := by
    cases a with
    | none => rfl
    | some a => simp [Annotated.annotations, Skeletal.annotations_skeleton]

end Lists

/-- The two differ in the numbers of handles only. -/
def Alike {α : Type} [Annotated α] [Skeletal α] (x y : α) : Prop :=
  skeleton x = skeleton y

section Lists

variable {α β γ : Type} [Annotated α] [Skeletal α] [Annotated β] [Skeletal β] {x y : α}
  {xs ys xs' ys' : List α}

theorem Alike.refl (x : α) : Alike x x := rfl

theorem Alike.eq (h : Alike x y) : skeleton x = skeleton y := h

/-- What is alike needs the same imports. -/
theorem Alike.requiredImports_eq (h : Alike x y) : requiredImports x = requiredImports y := by
  have hskeleton : ∀ x : α, requiredImports (skeleton x) = requiredImports x := by
    intro x
    simp only [requiredImports, Skeletal.annotations_skeleton, List.flatMap_map,
      TypeExpr.imports_skeleton]
  rw [← hskeleton x, ← hskeleton y, h]

theorem alike_list_iff : Alike xs ys ↔ List.Forall₂ Alike xs ys := by
  constructor
  · intro h
    induction xs generalizing ys with
    | nil =>
        obtain rfl := List.map_eq_nil_iff.mp h.symm
        exact .nil
    | cons x xs ih =>
        obtain ⟨y, ys, rfl, hy, hys⟩ := List.map_eq_cons_iff.mp h.symm
        exact .cons hy.symm (ih hys.symm)
  · intro h
    induction h with
    | nil => exact .refl []
    | cons hxy _ ih => exact congrArg₂ List.cons hxy ih

theorem Alike.append (h : Alike xs ys) (h' : Alike xs' ys') : Alike (xs ++ xs') (ys ++ ys') := by
  rw [alike_list_iff] at *
  exact List.rel_append h h'

theorem Alike.cons (h : Alike x y) (h' : Alike xs ys) : Alike (x :: xs) (y :: ys) :=
  alike_list_iff.mpr (.cons h (alike_list_iff.mp h'))

theorem Alike.map {g : α → β} (h : Alike xs ys) (hg : ∀ x y, Alike x y → Alike (g x) (g y)) :
    Alike (xs.map g) (ys.map g) := by
  rw [alike_list_iff] at *
  exact List.rel_map hg h

/-- What is the same for elements that are alike is the same for lists. -/
theorem Alike.map_eq {g : α → γ} (h : Alike xs ys) (hg : ∀ x y, Alike x y → g x = g y) :
    xs.map g = ys.map g := by
  rw [alike_list_iff] at h
  exact List.forall₂_eq_eq_eq ▸ List.rel_map hg h

end Lists

/-! ## Types -/

section Types

variable {a b c d : TypeExpr}

theorem Alike.text_eq (h : Alike a b) : a.text = b.text :=
  TypeExpr.text_eq_of_skeleton_eq h

theorem Alike.isAny_eq (h : Alike a b) : a.isAny = b.isAny := by
  rw [← TypeExpr.isAny_skeleton a, ← TypeExpr.isAny_skeleton b]
  exact congrArg TypeExpr.isAny h

theorem Alike.listOf (h : Alike a b) : Alike (TypeExpr.listOf a) (.listOf b) :=
  congrArg TypeExpr.listOf h

theorem Alike.iteratorOf (h : Alike a b) : Alike (TypeExpr.iteratorOf a) (.iteratorOf b) :=
  congrArg TypeExpr.iteratorOf h

theorem Alike.unionOf_pair (h : Alike a b) (h' : Alike c d) :
    Alike (TypeExpr.unionOf [a, c]) (.unionOf [b, d]) :=
  congrArg₂ (fun a c => TypeExpr.unionOf [a, c]) h h'

end Types

/-! ## Arguments -/

/-- Everything but the type stays. -/
instance : Skeletal Argument where
  skeleton a := { a with type := skeleton a.type }
  annotations_skeleton a := by
    obtain ⟨name, type, default, stars⟩ := a
    cases type <;> rfl

section Arguments

variable {a b : Argument} {as bs as' bs' : List Argument} {type type' : TypeExpr}

theorem alike_argument_iff :
    Alike a b ↔ a.name = b.name ∧ Alike a.type b.type ∧ a.default = b.default ∧
      a.stars = b.stars := by
  cases a
  cases b
  simp [Alike, skeleton]

/-- Of two options that are alike, both hold something or neither does. -/
theorem Alike.cases_option {α : Type} [Annotated α] [Skeletal α] {x y : Option α}
    (h : Alike x y) : (x = none ∧ y = none) ∨ ∃ a b, x = some a ∧ y = some b ∧ Alike a b := by
  cases x with
  | none =>
      cases y with
      | none => exact .inl ⟨rfl, rfl⟩
      | some b => nomatch h
  | some a =>
      cases y with
      | none => nomatch h
      | some b => exact .inr ⟨a, b, rfl, rfl, Option.some.inj h⟩

theorem Alike.argument_text_eq (h : Alike a b) : a.text = b.text := by
  obtain ⟨hname, htype, hdefault, hstars⟩ := alike_argument_iff.mp h
  unfold Argument.text
  rw [hname, hdefault, hstars]
  rcases htype.cases_option with ⟨ha, hb⟩ | ⟨type, type', ha, hb, htype⟩
  · rw [ha, hb]
  · rw [ha, hb]
    cases b.default <;> simp only [htype.text_eq]

theorem Alike.needed (h : Alike type type') (name : String) :
    Alike (Argument.needed name type) (.needed name type') :=
  congrArg (Argument.needed name) h

theorem Alike.optional (h : Alike type type') (name : String) :
    Alike (Argument.optional name type) (.optional name type') :=
  congrArg (Argument.optional name) h

/-- Rearranging arguments takes the skeletons along. -/
theorem skeleton_requiredFirst (as : List Argument) :
    skeleton (requiredFirst as) = requiredFirst (skeleton as) := by
  simp only [requiredFirst, skeleton, List.map_append, List.filter_map]
  rfl

theorem skeleton_keywordOnly (as : List Argument) :
    skeleton (keywordOnly as) = keywordOnly (skeleton as) := by
  cases as <;> rfl

theorem skeleton_addKeyword (as : List Argument) (a : Argument) :
    skeleton (addKeyword as a) = addKeyword (skeleton as) (skeleton a) := by
  cases as with
  | nil => rfl
  | cons b as => exact List.map_append

theorem skeleton_withExtraArguments (as extra : List Argument) :
    skeleton (withExtraArguments as extra) =
      withExtraArguments (skeleton as) (skeleton extra) := by
  have hself : (skeleton as).all (·.name = "self") = as.all (·.name = "self") := List.all_map
  have htake : ∀ bs : List Argument,
      skeleton (bs.takeWhile staysInFront) = (skeleton bs).takeWhile staysInFront := by
    intro bs
    simp only [skeleton, List.takeWhile_map]
    rfl
  have hdrop : ∀ bs : List Argument,
      skeleton (bs.dropWhile staysInFront) = (skeleton bs).dropWhile staysInFront := by
    intro bs
    simp only [skeleton, List.dropWhile_map]
    rfl
  have happend : ∀ bs cs : List Argument, skeleton (bs ++ cs) = skeleton bs ++ skeleton cs :=
    fun _ _ => List.map_append
  unfold withExtraArguments
  rw [hself]
  split
  · simp only [happend, skeleton_requiredFirst, htake, hdrop]
    rfl
  · simp only [happend, skeleton_requiredFirst, htake, hdrop]

theorem Alike.requiredFirst (h : Alike as bs) : Alike (requiredFirst as) (requiredFirst bs) := by
  rw [Alike, skeleton_requiredFirst, skeleton_requiredFirst, h.eq]

theorem Alike.keywordOnly (h : Alike as bs) : Alike (keywordOnly as) (keywordOnly bs) := by
  rw [Alike, skeleton_keywordOnly, skeleton_keywordOnly, h.eq]

theorem Alike.addKeyword (h : Alike as bs) (h' : Alike a b) :
    Alike (addKeyword as a) (addKeyword bs b) := by
  rw [Alike, skeleton_addKeyword, skeleton_addKeyword, h.eq, h'.eq]

theorem Alike.withExtraArguments (h : Alike as bs) (extra : List Argument) :
    Alike (withExtraArguments as extra) (withExtraArguments bs extra) := by
  rw [Alike, skeleton_withExtraArguments, skeleton_withExtraArguments, h.eq]

end Arguments

/-! ## Functions -/

/-- Everything but the types stays. -/
instance : Skeletal FunctionStub where
  skeleton f :=
    { f with
      arguments := skeleton f.arguments
      returnType := skeleton f.returnType
      decorators := skeleton f.decorators }
  annotations_skeleton f := by
    have harguments : (skeleton f.arguments).filterMap (·.type) =
        (f.arguments.filterMap (·.type)).map TypeExpr.skeleton := by
      simp only [skeleton, List.filterMap_map, List.map_filterMap]
      rfl
    simp only [Annotated.annotations, List.map_append, harguments]
    rfl

section Functions

variable {f g : FunctionStub} {as bs : List Argument} {type type' : TypeExpr}

theorem alike_function_iff :
    Alike f g ↔ f.name = g.name ∧ Alike f.arguments g.arguments ∧
      Alike f.returnType g.returnType ∧ f.docstring = g.docstring ∧
      Alike f.decorators g.decorators ∧ f.body = g.body := by
  cases f
  cases g
  simp [Alike, skeleton]

theorem Alike.method (h : Alike as bs) (h' : Alike type type') (name : String) :
    Alike (FunctionStub.method name as type) (.method name bs type') :=
  congrArg₂ (FunctionStub.method name) h h'

theorem Alike.signature_eq (h : Alike f g) : f.signature = g.signature := by
  obtain ⟨hname, harguments, hreturn, -⟩ := alike_function_iff.mp h
  have htexts : f.arguments.map Argument.text = g.arguments.map Argument.text :=
    harguments.map_eq fun _ _ => Alike.argument_text_eq
  rw [FunctionStub.signature, hname, htexts, hreturn.text_eq, FunctionStub.signature]

theorem Alike.decoratorTexts_eq (h : Alike f g) : f.decoratorTexts = g.decoratorTexts := by
  obtain ⟨-, -, -, -, hdecorators, -⟩ := alike_function_iff.mp h
  exact hdecorators.map_eq fun _ _ hd => congrArg ("@" ++ ·) hd.text_eq

/-- The documented arguments that a method lacks depend on names only. -/
theorem Alike.extraArguments_eq (h : Alike f g) (info : MethodInfo) :
    info.extraArguments f = info.extraArguments g := by
  obtain ⟨-, harguments, -⟩ := alike_function_iff.mp h
  have hnames : f.argumentNames = g.argumentNames := by
    have hskeleton : ∀ as : List Argument,
        ((skeleton as).filter fun a => !a.isKeywordMark && a.name ≠ "self").map (·.name) =
          (as.filter fun a => !a.isKeywordMark && a.name ≠ "self").map (·.name) := by
      intro as
      simp only [skeleton, List.filter_map, List.map_map]
      rfl
    rw [FunctionStub.argumentNames, ← hskeleton, harguments.eq, hskeleton,
      FunctionStub.argumentNames]
  rw [MethodInfo.extraArguments, hnames, MethodInfo.extraArguments]

/-- Methods that are alike are completed alike. -/
theorem Alike.complete (h : Alike f g) (info : MethodInfo) :
    Alike (info.complete f) (info.complete g) := by
  have hextra := h.extraArguments_eq info
  obtain ⟨hname, harguments, hreturn, hdoc, hdecorators, hbody⟩ := alike_function_iff.mp h
  refine alike_function_iff.mpr ⟨hname, ?_, ?_, ?_, hdecorators, hbody⟩
  · simp only [MethodInfo.complete, hextra]
    split
    · exact harguments
    · exact harguments.withExtraArguments _
  · simp only [MethodInfo.complete, hreturn.isAny_eq]
    split
    · cases info.returnType with
      | none => exact hreturn
      | some type => exact .refl type
    · exact hreturn
  · simp only [MethodInfo.complete, hdoc]

end Functions

/-! ## Classes -/

/-- Everything but the type stays. -/
instance : Skeletal Attribute where
  skeleton a := { a with type := skeleton a.type }
  annotations_skeleton _ := rfl

/-- Everything but the types stays. -/
instance : Skeletal ClassStub where
  skeleton c :=
    { c with
      bases := skeleton c.bases
      attributes := skeleton c.attributes
      methods := skeleton c.methods }
  annotations_skeleton c := by
    have hattributes : (skeleton c.attributes).map (·.type) =
        (c.attributes.map (·.type)).map TypeExpr.skeleton := by
      simp only [skeleton, List.map_map]
      rfl
    have hmethods : (skeleton c.methods).flatMap Annotated.annotations =
        (c.methods.flatMap Annotated.annotations).map TypeExpr.skeleton :=
      Skeletal.annotations_skeleton c.methods
    have hparts : ∀ c : ClassStub, Annotated.annotations c =
        c.bases ++ c.attributes.map (·.type) ++ c.methods.flatMap Annotated.annotations :=
      fun _ => rfl
    simp only [hparts, List.map_append, hattributes, hmethods]
    rfl

section Classes

variable {a b : Attribute} {c d : ClassStub}

theorem alike_attribute_iff : Alike a b ↔ a.name = b.name ∧ Alike a.type b.type := by
  cases a
  cases b
  simp [Alike, skeleton]

theorem Alike.attribute_text_eq (h : Alike a b) : a.text = b.text := by
  obtain ⟨hname, htype⟩ := alike_attribute_iff.mp h
  rw [Attribute.text, hname, htype.text_eq, Attribute.text]

theorem alike_class_iff :
    Alike c d ↔ c.name = d.name ∧ c.docstring = d.docstring ∧ Alike c.bases d.bases ∧
      Alike c.attributes d.attributes ∧ Alike c.methods d.methods := by
  cases c
  cases d
  simp [Alike, skeleton]

theorem Alike.header_eq (h : Alike c d) : c.header = d.header := by
  obtain ⟨hname, -, hbases, -⟩ := alike_class_iff.mp h
  have htexts : c.bases.map TypeExpr.text = d.bases.map TypeExpr.text :=
    hbases.map_eq fun _ _ => Alike.text_eq
  have hempty : ∀ c : ClassStub, c.bases.isEmpty = (c.bases.map TypeExpr.text).isEmpty := by
    simp
  rw [ClassStub.header, hname, hempty, htexts, ClassStub.header, hempty]

end Classes

/-! ## Entities -/

/-- The skeleton of an entity is that of its class. -/
instance : Skeletal ClientStub where
  skeleton c := ⟨skeleton c.decl⟩
  annotations_skeleton c := Skeletal.annotations_skeleton c.decl

instance : Skeletal PaginatorStub where
  skeleton p := { p with decl := skeleton p.decl }
  annotations_skeleton p := Skeletal.annotations_skeleton p.decl

instance : Skeletal WaiterStub where
  skeleton w := { w with decl := skeleton w.decl }
  annotations_skeleton w := Skeletal.annotations_skeleton w.decl

instance : Skeletal CollectionStub where
  skeleton c := { c with decl := skeleton c.decl, itemType := skeleton c.itemType }
  annotations_skeleton c := by
    have hparts : ∀ c : CollectionStub,
        Annotated.annotations c = Annotated.annotations c.decl ++ [c.itemType] := fun _ => rfl
    simp only [hparts, List.map_append, Skeletal.annotations_skeleton c.decl]
    rfl

instance : Skeletal ResourceStub where
  skeleton r := { r with decl := skeleton r.decl, collections := skeleton r.collections }
  annotations_skeleton r := by
    have hparts : ∀ r : ResourceStub, Annotated.annotations r =
        Annotated.annotations r.decl ++ Annotated.annotations r.collections := fun _ => rfl
    simp only [hparts, List.map_append, Skeletal.annotations_skeleton]

instance : Skeletal ServiceResourceStub where
  skeleton r :=
    { decl := skeleton r.decl
      collections := skeleton r.collections
      resources := skeleton r.resources }
  annotations_skeleton r := by
    have hparts : ∀ r : ServiceResourceStub, Annotated.annotations r =
        Annotated.annotations r.decl ++ Annotated.annotations r.collections ++
          Annotated.annotations r.resources := fun _ => rfl
    simp only [hparts, List.map_append, Skeletal.annotations_skeleton]

theorem alike_client_iff {c d : ClientStub} : Alike c d ↔ Alike c.decl d.decl := by
  cases c
  cases d
  simp [Alike, skeleton]

theorem alike_paginator_iff {p q : PaginatorStub} :
    Alike p q ↔ Alike p.decl q.decl ∧ p.paginatorName = q.paginatorName ∧
      p.operationName = q.operationName := by
  cases p
  cases q
  simp [Alike, skeleton]

theorem alike_waiter_iff {v w : WaiterStub} :
    Alike v w ↔ Alike v.decl w.decl ∧ v.waiterName = w.waiterName ∧
      v.operationName = w.operationName := by
  cases v
  cases w
  simp [Alike, skeleton]

theorem alike_collection_iff {c d : CollectionStub} :
    Alike c d ↔ Alike c.decl d.decl ∧ c.parentName = d.parentName ∧
      c.attributeName = d.attributeName ∧ Alike c.itemType d.itemType := by
  cases c
  cases d
  simp [Alike, skeleton]

theorem alike_resource_iff {r q : ResourceStub} :
    Alike r q ↔ Alike r.decl q.decl ∧ Alike r.collections q.collections := by
  cases r
  cases q
  simp [Alike, skeleton]

theorem alike_serviceResource_iff {r q : ServiceResourceStub} :
    Alike r q ↔ Alike r.decl q.decl ∧ Alike r.collections q.collections ∧
      Alike r.resources q.resources := by
  cases r
  cases q
  simp [Alike, skeleton]

/-! ## Packages -/

/-- A package uses what its entities and functions use. -/
instance : Annotated PackageStub :=
  ⟨fun p => Annotated.annotations p.client ++ Annotated.annotations p.serviceResource
    ++ Annotated.annotations p.paginators ++ Annotated.annotations p.waiters
    ++ Annotated.annotations p.factories⟩

instance : Skeletal PackageStub where
  skeleton p :=
    { p with
      client := skeleton p.client
      serviceResource := skeleton p.serviceResource
      paginators := skeleton p.paginators
      waiters := skeleton p.waiters
      factories := skeleton p.factories }
  annotations_skeleton p := by
    have hparts : ∀ p : PackageStub, Annotated.annotations p =
        Annotated.annotations p.client ++ Annotated.annotations p.serviceResource
          ++ Annotated.annotations p.paginators ++ Annotated.annotations p.waiters
          ++ Annotated.annotations p.factories := fun _ => rfl
    simp only [hparts, List.map_append, Skeletal.annotations_skeleton]

theorem alike_package_iff {p q : PackageStub} :
    Alike p q ↔ p.service = q.service ∧ Alike p.client q.client ∧
      Alike p.serviceResource q.serviceResource ∧ Alike p.paginators q.paginators ∧
      Alike p.waiters q.waiters ∧ Alike p.factories q.factories := by
  cases p
  cases q
  simp [Alike, skeleton]

end ServiceStubs
