import ServiceStubs.Proofs.Schema.Parts
import ServiceStubs.Proofs.Session.Form

/-!
# Bytes by position

Bytes are written one way where they are sent and another way where they are
returned.  The form of the type of a shape, whose parts come to an end, is made of
the forms of the parts; so all bytes that lists and maps lead to are written for
the position that the whole type was asked for.

## Main definitions

* `TypeExpr.part?`, `TypeExpr.partAt?` — the ways down to the parts of a type.
* `Service.shapeForm_eq` — the form of a shape by the forms of its parts.
* `Service.BlobsFollow` — all bytes that lists and maps lead to are written for a
  position.
* `Service.blobsFollow_of_form` — the form of a shape decides how.
-/

namespace ServiceStubs

open Schema (PartStep)

namespace TypeExpr

/-! ## Parts of types -/

/-- The part of a list or a dictionary that a step leads to. -/
def part? : TypeExpr → PartStep → Option TypeExpr
  | .subscript .list [a], .item => some a
  | .subscript .dict [a, _], .key => some a
  | .subscript .dict [_, b], .value => some b
  | _, _ => Option.none

/-- The part that some steps lead to. -/
def partAt? : List PartStep → TypeExpr → Option TypeExpr
  | [], a => some a
  | step :: path, a => (a.part? step).bind (partAt? path)

/-! ## Expressions by their skeletons -/

variable {a b : TypeExpr}

theorem eq_scalar_of_skeleton {s : Scalar} (h : a.skeleton = .scalar s) : a = .scalar s := by
  cases a with
  | scalar s' => exact h
  | _ => nomatch h

theorem eq_from_of_skeleton {source name : String} (h : a.skeleton = from? source name) :
    a = from? source name := by
  cases a with
  | external source' name' asName => exact h
  | _ => nomatch h

theorem exists_of_skeleton_eq_subscript {g : Generic} {args : List TypeExpr}
    (h : a.skeleton = .subscript g args) :
    ∃ args', a = .subscript g args' ∧ skeletons args' = args := by
  cases a with
  | subscript g' args' =>
      obtain ⟨rfl, hargs⟩ := TypeExpr.subscript.inj h
      exact ⟨args', rfl, hargs⟩
  | _ => nomatch h

theorem skeletons_eq_cons {as bs : List TypeExpr} (h : skeletons as = b :: bs) :
    ∃ a as', as = a :: as' ∧ a.skeleton = b ∧ skeletons as' = bs := by
  cases as with
  | nil => nomatch h
  | cons a as =>
      obtain ⟨ha, has⟩ := List.cons.inj h
      exact ⟨a, as, rfl, ha, has⟩

theorem skeletons_eq_nil {as : List TypeExpr} (h : skeletons as = []) : as = [] := by
  cases as with
  | nil => rfl
  | cons a as => nomatch h

theorem exists_of_skeleton_eq_listOf (h : a.skeleton = listOf b) :
    ∃ item, a = listOf item ∧ item.skeleton = b := by
  obtain ⟨args, rfl, hargs⟩ := exists_of_skeleton_eq_subscript h
  obtain ⟨item, rest, rfl, hitem, hrest⟩ := skeletons_eq_cons hargs
  obtain rfl := skeletons_eq_nil hrest
  exact ⟨item, rfl, hitem⟩

theorem exists_of_skeleton_eq_dictOf {b' : TypeExpr} (h : a.skeleton = dictOf b b') :
    ∃ key value, a = dictOf key value ∧ key.skeleton = b ∧ value.skeleton = b' := by
  obtain ⟨args, rfl, hargs⟩ := exists_of_skeleton_eq_subscript h
  obtain ⟨key, rest, rfl, hkey, hrest⟩ := skeletons_eq_cons hargs
  obtain ⟨value, rest, rfl, hvalue, hrest⟩ := skeletons_eq_cons hrest
  obtain rfl := skeletons_eq_nil hrest
  exact ⟨key, value, rfl, hkey, hvalue⟩

/-- What is written for bytes refers to no dictionary. -/
theorem eq_blobType_of_skeleton {streaming : Bool} {position : Position}
    (h : a.skeleton = blobType streaming position) : a = blobType streaming position := by
  cases position with
  | output =>
      cases streaming with
      | true => exact eq_from_of_skeleton h
      | false => exact eq_scalar_of_skeleton h
  | input =>
      obtain ⟨args, rfl, hargs⟩ := exists_of_skeleton_eq_subscript h
      obtain ⟨bytes, rest, rfl, hbytes, hrest⟩ := skeletons_eq_cons hargs
      obtain ⟨file, rest, rfl, hfile, hrest⟩ := skeletons_eq_cons hrest
      obtain ⟨body, rest, rfl, hbody, hrest⟩ := skeletons_eq_cons hrest
      obtain rfl := skeletons_eq_nil hrest
      obtain ⟨inner, rfl, hinner⟩ := exists_of_skeleton_eq_subscript hfile
      obtain ⟨read, rest, rfl, hread, hrest⟩ := skeletons_eq_cons hinner
      obtain rfl := skeletons_eq_nil hrest
      rw [eq_scalar_of_skeleton hbytes, eq_scalar_of_skeleton hread, eq_from_of_skeleton hbody]
      rfl

end TypeExpr

namespace Service

variable {svc : Service} {position : Position} {name : String}
  {form form' : Position → String → TypeExpr}

/-! ## Forms by the forms of parts -/

theorem refForm_congr {ref : Option Schema.ShapeRef} {default : TypeExpr}
    (h : ∀ r ∈ ref, r.shape ∈ svc.model.shapes.keys →
      form position r.shape = form' position r.shape) :
    svc.refForm form position ref default = svc.refForm form' position ref default := by
  unfold refForm
  cases ref with
  | none => rfl
  | some r =>
      dsimp only
      split
      · next hdeclared => exact h r rfl (OrderedMap.contains_iff.mp hdeclared)
      · rfl

/-- The form of a shape depends on those of its parts only. -/
theorem formWith_congr
    (h : ∀ part, svc.model.HasPart name part → form position part = form' position part) :
    svc.formWith form position name = svc.formWith form' position name := by
  have hpart : ∀ {shape} (step : PartStep), svc.model.shapes.get? name = some shape →
      ∀ r ∈ shape.part? step, r.shape ∈ svc.model.shapes.keys →
        form position r.shape = form' position r.shape :=
    fun step hshape r hr hdeclared => h _ (Schema.Model.hasPart_of_part? hshape hr hdeclared)
  unfold formWith
  cases hshape : svc.model.shapes.get? name with
  | none => rfl
  | some shape =>
      have hpart := fun step => hpart step hshape
      dsimp only
      cases hkind : shape.kind with
      | list =>
          have hitem : shape.part? .item = shape.member := by simp [Schema.Shape.part?, hkind]
          dsimp only
          rw [refForm_congr (hitem ▸ hpart .item)]
      | map =>
          have hkey : shape.part? .key = shape.key := by simp [Schema.Shape.part?, hkind]
          have hvalue : shape.part? .value = shape.value := by simp [Schema.Shape.part?, hkind]
          have hk : svc.refForm form position shape.key .str =
              svc.refForm form' position shape.key .str := refForm_congr (hkey ▸ hpart .key)
          have hv : svc.refForm form position shape.value .any =
              svc.refForm form' position shape.value .any := refForm_congr (hvalue ▸ hpart .value)
          dsimp only
          rw [hk, hv]
      | _ => rfl

/-- Parts are followed deep enough once there are no more of them. -/
theorem formWithin_eq (h : svc.model.Ends name) {depth depth' : Nat}
    (hdepth : svc.model.partCount name < depth) (hdepth' : svc.model.partCount name < depth') :
    svc.formWithin depth position name = svc.formWithin depth' position name := by
  induction depth generalizing depth' name with
  | zero => exact absurd hdepth (Nat.not_lt_zero _)
  | succ depth ih =>
      cases depth' with
      | zero => exact absurd hdepth' (Nat.not_lt_zero _)
      | succ depth' =>
          refine formWith_congr fun part hpart => ?_
          have hlt := Schema.Model.partCount_lt h hpart
          exact ih (h.of_hasPart hpart) (by omega) (by omega)

/-- **The form of a shape is made of the forms of its parts**, if these come to an
end. -/
theorem shapeForm_eq (h : svc.model.Ends name) :
    svc.shapeForm position name = svc.formWith svc.shapeForm position name := by
  refine formWith_congr fun part hpart => ?_
  have hlt := Schema.Model.partCount_lt h hpart
  have hle := svc.model.partCount_le name
  exact formWithin_eq (h.of_hasPart hpart) (by omega) (by simp only [depthLimit]; omega)

/-! ## Bytes -/

variable (svc) in
/-- Wherever lists and maps lead from the shape to bytes, they lead from the type to
what is written for bytes in the position, if the parts of the shape come to an
end. -/
def BlobsFollow (position : Position) (name : String) (a : TypeExpr) : Prop :=
  svc.model.Ends name → ∀ path blob, svc.model.partAt? path name = some blob →
    blob.kind = .blob → a.partAt? path = some (blobType blob.streaming position)

/-- **The form of a shape decides how bytes are written.** -/
theorem blobsFollow_of_form {a : TypeExpr} (ha : a.skeleton = svc.shapeForm position name) :
    svc.BlobsFollow position name a := by
  intro hends path blob hblob hkind
  induction path generalizing a name with
  | nil =>
      rw [Schema.Model.partAt?] at hblob
      rw [shapeForm_eq hends] at ha
      simp only [formWith, hblob, hkind] at ha
      rw [TypeExpr.eq_blobType_of_skeleton ha]
      rfl
  | cons step path ih =>
      obtain ⟨ref, href, hrest⟩ := Option.bind_eq_some_iff.mp hblob
      obtain ⟨shape, hshape, href⟩ := Option.bind_eq_some_iff.mp href
      have hdeclared := Schema.Model.mem_keys_of_partAt? hrest
      have hpart := Schema.Model.hasPart_of_part? hshape href hdeclared
      have hform : ∀ default, svc.refForm svc.shapeForm position (some ref) default =
          svc.shapeForm position ref.shape := by
        intro default
        simp [refForm, hdeclared]
      rw [shapeForm_eq hends] at ha
      simp only [formWith, hshape] at ha
      cases step with
      | item =>
          obtain ⟨hlist, hmember⟩ := Option.ite_none_right_eq_some.mp href
          simp only [hlist, hmember, hform] at ha
          obtain ⟨item, rfl, hitem⟩ := TypeExpr.exists_of_skeleton_eq_listOf ha
          exact ih hitem (hends.of_hasPart hpart) hrest
      | key =>
          obtain ⟨hmap, hkey⟩ := Option.ite_none_right_eq_some.mp href
          simp only [hmap, hkey, hform] at ha
          obtain ⟨key, value, rfl, hkey, -⟩ := TypeExpr.exists_of_skeleton_eq_dictOf ha
          exact ih hkey (hends.of_hasPart hpart) hrest
      | value =>
          obtain ⟨hmap, hvalue⟩ := Option.ite_none_right_eq_some.mp href
          simp only [hmap, hvalue, hform] at ha
          obtain ⟨key, value, rfl, -, hvalue⟩ := TypeExpr.exists_of_skeleton_eq_dictOf ha
          exact ih hvalue (hends.of_hasPart hpart) hrest

/-- The form of a member does so as well. -/
theorem blobsFollow_of_memberForm {a : TypeExpr} {ref : Schema.ShapeRef}
    (ha : a.skeleton = svc.memberForm position ref) : svc.BlobsFollow position ref.shape a := by
  by_cases hdeclared : ref.shape ∈ svc.model.shapes.keys
  · refine blobsFollow_of_form (ha.trans ?_)
    simp [memberForm, refForm, hdeclared]
  · intro _ path blob hblob
    exact absurd (Schema.Model.mem_keys_of_partAt? hblob) hdeclared

end Service

end ServiceStubs
