import ServiceStubs.Proofs.TypeExpr.Search
import ServiceStubs.TypeExpr.Definition

/-!
# Changes through an annotation

Whoever holds an annotation can change its parameters, and the dictionaries that it leads
to: add a field, or set the docstring.  The parameters belong to the holder alone, but a
dictionary is seen by all who lead to it.

So changes through one annotation reach another one only through a dictionary that the
other one leads to.  A new field there always shows, and nothing else does: what is written
for the annotation, what is reached from it and the definitions stay as they are.  Two
annotations that lead to no common dictionary never see each other's changes, unless a
change brings in something that leads to a dictionary of the other one.

## Main definitions

* `Mutation`, `Mutated` — changes, and sequences of changes through an annotation.
* `Store.Sees`, `Store.Unchanged` — the dictionaries that an annotation leads to, and what
  can be seen of it.
* `Mutated.unchanged_iff` — what changes through one annotation do to another one.
* `Mutated.unchanged_of_apart` — annotations without common dictionaries are independent.
-/

namespace ServiceStubs

/-- A change of an annotation or of a dictionary.  Parameters are changed at the end of a
path, which tells for each type on the way the place of the parameter to go on with. -/
inductive Mutation
  | addArg (path : List Nat) (arg : TypeExpr)
  | removeArgs (path : List Nat) (others : List TypeExpr)
  | addField (ref : DictRef) (field : Field)
  | setDocstring (ref : DictRef) (text : String)

/-- Changes the part of an expression at the end of a path, where that is possible. -/
def TypeExpr.changeAt (f : TypeExpr → Option TypeExpr) : List Nat → TypeExpr → TypeExpr
  | [], a => (f a).getD a
  | i :: path, .subscript g args => .subscript g (args.modify i (changeAt f path))
  | _ :: _, a => a

namespace Mutation

/-- The annotation after the change. -/
def change : Mutation → TypeExpr → TypeExpr
  | addArg path arg, a => a.changeAt (TypeExpr.addArg? arg) path
  | removeArgs path others, a => a.changeAt (TypeExpr.removeArgs? others) path
  | addField _ _, a => a
  | setDocstring _ _, a => a

/-- The dictionaries after the change. -/
def write : Mutation → Store → Store
  | addArg _ _, s => s
  | removeArgs _ _, s => s
  | addField ref f, s => s.addField ref f
  | setDocstring ref text, s => s.setDocstring ref text

/-- The dictionary that is changed, if one is. -/
def target? : Mutation → Option DictRef
  | addArg _ _ => none
  | removeArgs _ _ => none
  | addField ref _ => some ref
  | setDocstring ref _ => some ref

/-- The types that the change brings in. -/
def brought : Mutation → List TypeExpr
  | addArg _ arg => [arg]
  | removeArgs _ _ => []
  | addField _ f => [f.type]
  | setDocstring _ _ => []

/-- The field that is added to the dictionary with a number, if one is. -/
def fieldFor? (id : Nat) : Mutation → Option Field
  | addField ref f => if ref.id = id then some f else none
  | _ => none

/-- The docstring that is given to the dictionary with a number, if one is. -/
def textFor? (id : Nat) : Mutation → Option String
  | setDocstring ref text => if ref.id = id then some text else none
  | _ => none

theorem fieldFor?_eq_some_iff {m : Mutation} {id : Nat} {f : Field} :
    m.fieldFor? id = some f ↔ ∃ ref, m = addField ref f ∧ ref.id = id := by
  cases m <;> simp [fieldFor?, and_comm]

end Mutation

/-- The changes `ms` through `a`, one after the other: each one is of a parameter of the
annotation, or of a dictionary that the annotation leads to by then. -/
inductive Mutated : TypeExpr → Store → List Mutation → TypeExpr → Store → Prop
  | nil {a s} : Mutated a s [] a s
  | cons {a s m ms a' s'} (hthrough : ∀ ref ∈ m.target?, s.LeadsTo a (.dict ref))
      (hrest : Mutated (m.change a) (m.write s) ms a' s') : Mutated a s (m :: ms) a' s'

namespace Store

variable {s s' : Store} {a b c : TypeExpr} {r ref : DictRef} {m : Mutation}

/-! ## One change -/

@[simp] theorem size_write (m : Mutation) (s : Store) :
    (m.write s).dicts.size = s.dicts.size := by
  cases m <;> simp [Mutation.write, setDocstring]

theorem get_setDocstring_of_ne (h : r.id ≠ ref.id) (text : String) :
    (s.setDocstring ref text).get r = s.get r :=
  get_modify_of_ne h _

theorem get_setDocstring (h : s.InUse ref) (text : String) :
    (s.setDocstring ref text).get ref = { s.get ref with docstring := some text } :=
  get_modify h _

/-- What a change makes of a dictionary: it keeps its name, and gets a field more or another
docstring at most. -/
theorem get_write (hr : s.InUse r) (m : Mutation) :
    (m.write s).get r =
      { s.get r with
        fields := (s.get r).fields ++ (m.fieldFor? r.id).toList
        docstring := (m.textFor? r.id).or (s.get r).docstring } := by
  cases m with
  | addArg path arg => simp [Mutation.write, Mutation.fieldFor?, Mutation.textFor?]
  | removeArgs path others => simp [Mutation.write, Mutation.fieldFor?, Mutation.textFor?]
  | addField ref f =>
      by_cases hid : ref.id = r.id
      · have href : s.InUse ref := by rwa [InUse, hid]
        have hsame : (s.addField ref f).get r = (s.addField ref f).get ref :=
          get_congr (inUse_addField.mpr href) hid.symm
        simp [Mutation.write, Mutation.fieldFor?, Mutation.textFor?, hid, hsame,
          get_addField href, get_congr href hid.symm]
      · simp [Mutation.write, Mutation.fieldFor?, Mutation.textFor?, hid,
          get_addField_of_ne (Ne.symm hid)]
  | setDocstring ref text =>
      by_cases hid : ref.id = r.id
      · have href : s.InUse ref := by rwa [InUse, hid]
        have hafter : (s.setDocstring ref text).InUse ref := by
          simpa [InUse, setDocstring] using href
        simp [Mutation.write, Mutation.fieldFor?, Mutation.textFor?, hid,
          get_congr hafter hid.symm, get_setDocstring href, get_congr href hid.symm]
      · simp [Mutation.write, Mutation.fieldFor?, Mutation.textFor?, hid,
          get_setDocstring_of_ne (Ne.symm hid)]

theorem get_of_not_inUse (h : ¬ s.InUse r) : s.get r = { name := r.name } := by
  rw [InUse, Nat.not_lt] at h
  rw [get, Array.getElem?_eq_none h, Option.getD_none]

/-- A field that is there after a change was there, or the change brings in its type. -/
theorem mem_fields_write {f : Field} (hf : f ∈ ((m.write s).get r).fields) :
    f ∈ (s.get r).fields ∨ f.type ∈ m.brought := by
  by_cases hr : s.InUse r
  · rw [get_write hr, List.mem_append, Option.mem_toList] at hf
    refine hf.imp_right fun hnew => ?_
    obtain ⟨ref, rfl, -⟩ := Mutation.fieldFor?_eq_some_iff.mp hnew
    exact List.mem_cons_self
  · rw [get_of_not_inUse (by rwa [InUse, size_write])] at hf
    exact absurd hf List.not_mem_nil

/-! ## What is reached -/

/-- The annotation leads to the dictionary of a handle. -/
def Sees (s : Store) (a : TypeExpr) (ref : DictRef) : Prop :=
  ∃ r, s.LeadsTo a (.dict r) ∧ r.id = ref.id

/-- The dictionaries that `a` leads to have the same fields. -/
def SameFields (s s' : Store) (a : TypeExpr) : Prop :=
  ∀ r, s.LeadsTo a (.dict r) → (s'.get r).fields = (s.get r).fields

theorem SameFields.of_leadsTo (h : s.SameFields s' a) (hab : s.LeadsTo a b) :
    s.SameFields s' b :=
  fun r hr => h r (hab.trans hr)

/-- **What is reached depends on the fields of what is reached.** -/
theorem SameFields.leadsTo_iff (h : s.SameFields s' a) : s'.LeadsTo a b ↔ s.LeadsTo a b := by
  constructor
  · intro hab
    induction hab with
    | refl => exact .refl
    | tail _ hstep ih =>
        cases hstep with
        | arg hb => exact ih.tail (.arg hb)
        | field hf => exact ih.tail (.field (h _ ih ▸ hf))
  · intro hab
    induction hab with
    | refl => exact .refl
    | tail hac hstep ih =>
        cases hstep with
        | arg hb => exact ih.tail (.arg hb)
        | field hf => exact ih.tail (.field ((h _ hac).symm ▸ hf))

/-- A search runs through the fields of what is reached. -/
theorem SameFields.visit_eq (h : s.SameFields s' a) (depth : Nat) (types : TypeSet) :
    s'.visit depth types a = s.visit depth types a := by
  induction depth generalizing a types with
  | zero => rfl
  | succ depth ih =>
      have hnodes : s'.fieldNodes a = s.fieldNodes a := by
        cases a with
        | dict r => rw [fieldNodes, fieldNodes, h r .refl]
        | _ => rfl
      rw [visit, visit, hnodes]
      split
      · rfl
      · refine List.foldl_ext _ _ _ fun types' b hb => ?_
        exact ih (h.of_leadsTo (leadsTo_of_mem_fieldNodes hb)) types'

/-- A search may be deeper than it has to be. -/
theorem foldl_visit_eq_collect (hs : s.WellFormed) (ha : s.Covers a) {depth : Nat}
    (hdepth : s.dicts.size < depth) : a.nodes.foldl (s.visit depth) ∅ = s.collect ∅ a := by
  have hdeep : s.Collects ∅ a (a.nodes.foldl (s.visit depth) ∅) :=
    collects_foldl_visit hs depth a ha KeyedSet.sorted_empty
      (Nat.lt_of_le_of_lt (fresh_le_size s ∅) hdepth)
  exact hdeep.unique (collects_collect hs ha KeyedSet.sorted_empty)

theorem SameFields.collect_eq (h : s.SameFields s' a) (hs : s.WellFormed) (ha : s.Covers a)
    (hsize : s.dicts.size ≤ s'.dicts.size) : s'.collect ∅ a = s.collect ∅ a := by
  rw [← foldl_visit_eq_collect hs ha (Nat.lt_succ_of_le hsize), collect]
  refine List.foldl_ext _ _ _ fun types b hb => ?_
  exact (h.of_leadsTo (leadsTo_of_mem_nodes a hb)).visit_eq _ types

/-! ## What can be seen of an annotation -/

/-- All that can be seen of the annotation `a` is the same before and after: its text, as the
dictionaries that it leads to are still called as it calls them, what it leads to, its
closure, and the definitions of its dictionaries. -/
structure Unchanged (s s' : Store) (a : TypeExpr) : Prop where
  name : ∀ r, s.LeadsTo a (.dict r) → (s'.get r).name = r.name
  leadsTo : ∀ b, s'.LeadsTo a b ↔ s.LeadsTo a b
  closure : s'.collect ∅ a = s.collect ∅ a
  fields : ∀ r, s.LeadsTo a (.dict r) → (s'.get r).fields = (s.get r).fields
  definition : ∀ r, s.LeadsTo a (.dict r) → (s'.get r).definition = (s.get r).definition

theorem holds_of_leadsTo (hs : s.WellFormed) (ha : s.Covers a) (hr : s.LeadsTo a (.dict r)) :
    s.Holds r :=
  covers_dict.mp (ha.of_leadsTo hs hr)

theorem definition_eq {d d' : TypedDict} (hname : d.name = d'.name)
    (hfields : d.fields = d'.fields) : d.definition = d'.definition := by
  rw [TypedDict.definition, TypedDict.definition, TypedDict.classDefinition,
    TypedDict.classDefinition, TypedDict.callDefinition, TypedDict.callDefinition, hname, hfields]

/-- Names and fields are all that can be seen. -/
theorem SameFields.unchanged (h : s.SameFields s' a) (hs : s.WellFormed) (ha : s.Covers a)
    (hsize : s.dicts.size ≤ s'.dicts.size)
    (hname : ∀ r, s.LeadsTo a (.dict r) → (s'.get r).name = (s.get r).name) :
    s.Unchanged s' a where
  name r hr := (hname r hr).trans (holds_of_leadsTo hs ha hr).name
  leadsTo _ := h.leadsTo_iff
  closure := h.collect_eq hs ha hsize
  fields := h
  definition r hr := definition_eq (hname r hr) (h r hr)

/-! ## Changes that lead elsewhere -/

/-- The annotation leads to no dictionary with a number that `D` is true of. -/
def Avoids (s : Store) (D : Nat → Prop) (a : TypeExpr) : Prop :=
  ∀ r, s.LeadsTo a (.dict r) → ¬ D r.id

variable {D : Nat → Prop}

theorem Avoids.of_leadsTo (h : s.Avoids D a) (hab : s.LeadsTo a b) : s.Avoids D b :=
  fun r hr => h r (hab.trans hr)

theorem avoids_subscript {g : Generic} {args : List TypeExpr} :
    s.Avoids D (.subscript g args) ↔ ∀ b ∈ args, s.Avoids D b := by
  constructor
  · exact fun h b hb => h.of_leadsTo (.single (.arg hb))
  · intro h r hr
    rcases hr.cases_head with heq | ⟨b, hstep, hb⟩
    · nomatch heq
    · cases hstep with
      | arg hmem => exact h b hmem r hb

/-- Parameters that come from elsewhere lead elsewhere. -/
theorem Avoids.changeAt {f : TypeExpr → Option TypeExpr}
    (hf : ∀ a b, f a = some b → s.Avoids D a → s.Avoids D b) (path : List Nat)
    (h : s.Avoids D a) : s.Avoids D (a.changeAt f path) := by
  induction path generalizing a with
  | nil =>
      rw [TypeExpr.changeAt]
      cases hfa : f a with
      | none => exact h
      | some b => exact hf a b hfa h
  | cons i path ih =>
      cases a with
      | subscript g args =>
          rw [TypeExpr.changeAt, avoids_subscript]
          rw [avoids_subscript] at h
          intro b hb
          obtain ⟨j, hj⟩ := List.mem_iff_getElem?.mp hb
          rw [List.getElem?_modify] at hj
          obtain ⟨c, hc, rfl⟩ := Option.map_eq_some_iff.mp hj
          have havoids := h c (List.mem_of_getElem? hc)
          split
          · exact ih havoids
          · exact havoids
      | _ => exact h

theorem Avoids.change (h : s.Avoids D a) (hm : ∀ b ∈ m.brought, s.Avoids D b) :
    s.Avoids D (m.change a) := by
  cases m with
  | addArg path arg =>
      refine h.changeAt (fun a b hb ha => ?_) path
      cases a with
      | subscript g args =>
          obtain rfl := Option.some.inj hb
          rw [avoids_subscript] at ha ⊢
          intro b hb
          rcases List.mem_append.mp hb with hb | hb
          · exact ha b hb
          · exact List.mem_singleton.mp hb ▸ hm arg List.mem_cons_self
      | _ => nomatch hb
  | removeArgs path others =>
      refine h.changeAt (fun a b hb ha => ?_) path
      cases a with
      | subscript g args =>
          obtain rfl := Option.some.inj hb
          rw [avoids_subscript] at ha ⊢
          exact fun b hb => ha b (List.mem_of_mem_filter hb)
      | _ => nomatch hb
  | addField ref f => exact h
  | setDocstring ref text => exact h

/-- With a new field one leads to what the field leads to, and to nothing else that is
new. -/
theorem Avoids.write (h : s.Avoids D a) (hm : ∀ b ∈ m.brought, s.Avoids D b) :
    (m.write s).Avoids D a := by
  intro r hr
  suffices hall : ∀ b, (m.write s).LeadsTo a b → s.Avoids D b from hall _ hr r .refl
  intro b hb
  induction hb with
  | refl => exact h
  | @tail b c _ hstep ih =>
      cases hstep with
      | arg hc => exact avoids_subscript.mp ih _ hc
      | @field r f hf =>
          rcases mem_fields_write hf with hf | hf
          · exact ih.of_leadsTo (.single (.field hf))
          · exact hm _ hf

end Store

namespace Mutated

variable {s s' : Store} {a a' b : TypeExpr} {r ref : DictRef} {ms : List Mutation}

/-! ## Several changes -/

theorem size_eq (h : Mutated a s ms a' s') : s'.dicts.size = s.dicts.size := by
  induction h with
  | nil => rfl
  | cons _ _ ih => exact ih.trans (Store.size_write _ _)

/-- Changes leave the name of a dictionary alone, and add those fields that are for it. -/
theorem get_eq (h : Mutated a s ms a' s') (hr : s.InUse r) :
    (s'.get r).name = (s.get r).name ∧
      (s'.get r).fields = (s.get r).fields ++ ms.filterMap (·.fieldFor? r.id) := by
  induction h with
  | nil => simp
  | @cons a s m ms a' s' _ _ ih =>
      have hafter : (m.write s).InUse r := by rwa [Store.InUse, Store.size_write]
      obtain ⟨hname, hfields⟩ := ih hafter
      rw [Store.get_write hr] at hname hfields
      refine ⟨hname, hfields.trans ?_⟩
      rw [List.filterMap_cons]
      cases m.fieldFor? r.id <;> simp

/-- A dictionary keeps its docstring if none is given to it. -/
theorem docstring_eq (h : Mutated a s ms a' s') (hr : s.InUse r)
    (hnone : ∀ ref text, .setDocstring ref text ∈ ms → ref.id ≠ r.id) :
    (s'.get r).docstring = (s.get r).docstring := by
  induction h with
  | nil => rfl
  | @cons a s m ms a' s' _ _ ih =>
      have hafter : (m.write s).InUse r := by rwa [Store.InUse, Store.size_write]
      have htext : m.textFor? r.id = none := by
        cases m with
        | setDocstring ref text => exact if_neg (hnone ref text List.mem_cons_self)
        | _ => rfl
      rw [ih hafter fun ref text hmem => hnone ref text (List.mem_cons_of_mem _ hmem),
        Store.get_write hr, htext, Option.none_or]

/-- **Changes show in an annotation exactly by fields that are added to a dictionary which it
leads to.** -/
theorem unchanged_iff (h : Mutated a s ms a' s') (hs : s.WellFormed) (hb : s.Covers b) :
    s.Unchanged s' b ↔ ∀ ref f, .addField ref f ∈ ms → ¬ s.Sees b ref := by
  constructor
  · rintro hsame ref f hmem ⟨r, hr, hid⟩
    have hfields := (h.get_eq (Store.holds_of_leadsTo hs hb hr).inUse).2
    rw [hsame.fields r hr, List.self_eq_append_right, List.filterMap_eq_nil_iff] at hfields
    have hnone := hfields _ hmem
    rw [Mutation.fieldFor?, if_pos hid.symm] at hnone
    nomatch hnone
  · intro hnot
    have huse : ∀ r, s.LeadsTo b (.dict r) → s.InUse r :=
      fun r hr => (Store.holds_of_leadsTo hs hb hr).inUse
    have hfields : s.SameFields s' b := by
      intro r hr
      rw [(h.get_eq (huse r hr)).2, List.append_right_eq_self, List.filterMap_eq_nil_iff]
      intro m hm
      rw [Option.eq_none_iff_forall_ne_some]
      intro f hf
      obtain ⟨ref, rfl, hid⟩ := Mutation.fieldFor?_eq_some_iff.mp hf
      exact hnot ref f hm ⟨r, hr, hid.symm⟩
    exact hfields.unchanged hs hb h.size_eq.ge fun r hr => (h.get_eq (huse r hr)).1

/-- Changes through an annotation are of dictionaries that it leads to, now or by what the
changes bring in. -/
theorem avoids_target (h : Mutated a s ms a' s') {D : Nat → Prop} (ha : s.Avoids D a)
    (hms : ∀ m ∈ ms, ∀ b ∈ m.brought, s.Avoids D b) :
    ∀ m ∈ ms, ∀ ref ∈ m.target?, ¬ D ref.id := by
  induction h with
  | nil => nofun
  | @cons a s m ms a' s' hthrough _ ih =>
      have hm := hms m List.mem_cons_self
      have hrest := ih (ha.change hm |>.write hm) fun m' hm' b hb =>
        (hms m' (List.mem_cons_of_mem _ hm') b hb).write hm
      intro m' hm' ref href
      rcases List.mem_cons.mp hm' with rfl | hm'
      · exact ha ref (hthrough ref href)
      · exact hrest m' hm' ref href

/-- **Annotations that lead to no common dictionary are independent**, if nothing is brought
in that leads to a dictionary of the other one. -/
theorem unchanged_of_apart (h : Mutated a s ms a' s') (hs : s.WellFormed) (hb : s.Covers b)
    (hapart : ∀ ref, s.Sees a ref → ¬ s.Sees b ref)
    (hms : ∀ m ∈ ms, ∀ x ∈ m.brought, ∀ ref, s.Sees x ref → ¬ s.Sees b ref) :
    s.Unchanged s' b := by
  rw [h.unchanged_iff hs hb]
  rintro ref f hmem ⟨r, hr, hid⟩
  have hnot := h.avoids_target (D := fun id => ∃ r, s.LeadsTo b (.dict r) ∧ r.id = id)
    (fun r hr => hapart r ⟨r, hr, rfl⟩) (fun m hm x hx r hr => hms m hm x hx r ⟨r, hr, rfl⟩)
    (.addField ref f) hmem ref rfl
  exact hnot ⟨r, hr, hid⟩

end Mutated

end ServiceStubs
