import Mathlib.Data.String.Basic
import Mathlib.Logic.Relation
import ServiceStubs.Proofs.Collection.KeyedSet
import ServiceStubs.Proofs.TypeExpr.Nodes
import ServiceStubs.Proofs.TypeExpr.Store
import ServiceStubs.TypeExpr.Closure

/-!
# The closure of type expressions

The closure is found by a search that enters each text once.  What it holds can be
reached from the given expressions.  That it holds all that can be reached needs
two things: the search must be deep enough, which the number of dictionaries with
a free name bounds; and no two expressions may share a text when one of them is a
dictionary, since only the first of them would be entered.

## Main definitions

* `Store.Reaches` — an expression refers to another one, in some steps.
* `Store.closure_induction` — the closure enters what is reached, nothing else.
* `Store.Explored` — each dictionary that is new to a set has all its fields'
  types in it.
* `TypeExpr.Among`, `Store.Closed` — dictionaries that are told apart by their
  names, and whose fields refer to no others.
* `Store.Closed.mem_of_node`, `Store.Closed.mem_of_field` — the closures together
  hold all dictionaries that are reached.
-/

namespace ServiceStubs

namespace Store

variable {s : Store} {types types' types'' : TypeSet} {a b : TypeExpr} {as : List TypeExpr}

/-! ## What is reached -/

/-- The expression `b` is `a`, or a part of the type of a field of a dictionary
that is reached from `a`. -/
def Reaches (s : Store) : TypeExpr → TypeExpr → Prop :=
  Relation.ReflTransGen fun a b => b ∈ s.fieldNodes a

/-- The expression is reached from a part of one of some expressions. -/
def ReachedFrom (s : Store) (as : List TypeExpr) (b : TypeExpr) : Prop :=
  ∃ a ∈ as, ∃ t ∈ a.nodes, s.Reaches t b

theorem fieldNodes_eq_nil (hnot : ∀ r, a ≠ .dict r) : s.fieldNodes a = [] := by
  cases a with
  | dict r => exact absurd rfl (hnot r)
  | _ => rfl

/-- An expression that is no dictionary reaches only itself. -/
theorem eq_of_reaches (hnot : ∀ r, a ≠ .dict r) (h : s.Reaches a b) : a = b := by
  rcases h.cases_head with heq | ⟨c, hc, -⟩
  · exact heq
  · rw [fieldNodes_eq_nil hnot] at hc
    nomatch hc

/-- A search from an expression enters only what the expression reaches. -/
theorem visit_induction {P : TypeSet → Prop} {depth : Nat}
    (hstep : ∀ types b, s.Reaches a b → P types → P (types.insert b.text b)) (h : P types) :
    P (s.visit depth types a) := by
  induction depth generalizing types a with
  | zero => exact hstep _ _ .refl h
  | succ depth ih =>
      rw [visit]
      split
      · exact h
      · refine List.foldlRecOn _ _ (hstep _ _ .refl h) fun types' h' b hb => ?_
        exact ih (fun u c hbc => hstep u c (.head hb hbc)) h'

/-- **The closure is made by entering what is reached.** -/
theorem closure_induction {P : TypeSet → Prop} (h : P ∅)
    (hstep : ∀ types b, s.ReachedFrom as b → P types → P (types.insert b.text b)) :
    P (s.closure as) := by
  refine List.foldlRecOn as _ h fun types hP a ha => ?_
  refine List.foldlRecOn a.nodes _ hP fun types' hP' t ht => ?_
  exact visit_induction (fun u b hb => hstep u b ⟨a, ha, t, ht, hb⟩) hP'

/-- What the closure holds is reached. -/
theorem reachedFrom_of_mem_closure (h : b ∈ (s.closure as).toList) : s.ReachedFrom as b := by
  revert b
  refine closure_induction (P := fun types => ∀ {b}, b ∈ types.toList → s.ReachedFrom as b) ?_ ?_
  · simp
  · intro types c hc ih b hb
    rcases KeyedSet.mem_toList_insert hb with rfl | hb
    · exact hc
    · exact ih hb

/-- The closure holds each expression under its text. -/
theorem keyedBy_closure (s : Store) (as : List TypeExpr) :
    (s.closure as).KeyedBy TypeExpr.text :=
  closure_induction .empty fun _ b _ h => h.insert b

/-! ## How deep the search goes -/

/-- The number of dictionaries whose name is no text of the set. -/
def fresh (s : Store) (types : TypeSet) : Nat :=
  (s.dicts.toList.filter fun d => !types.contains d.name).length

theorem fresh_le_size (s : Store) (types : TypeSet) : s.fresh types ≤ s.dicts.size :=
  List.length_filter_le _ _

theorem fresh_le (h : types.keys ⊆ types'.keys) : s.fresh types' ≤ s.fresh types := by
  refine (List.monotone_filter_right _ ?_).length_le
  intro d hd
  rw [Bool.not_eq_true', ← Bool.not_eq_true, KeyedSet.contains_iff] at hd ⊢
  exact fun hmem => hd (h hmem)

theorem get_mem_dicts {r : DictRef} (h : s.InUse r) : s.get r ∈ s.dicts.toList := by
  simp only [InUse] at h
  simp [get, h]

theorem fresh_insert_lt {r : DictRef} (huse : s.InUse r) (hname : (s.get r).name = r.name)
    (hnew : r.name ∉ types.keys) :
    s.fresh (types.insert r.name (.dict r)) < s.fresh types := by
  refine length_filter_lt ?_ (get_mem_dicts huse) ?_ ?_
  · intro d hd
    rw [Bool.not_eq_true', ← Bool.not_eq_true, KeyedSet.contains_iff] at hd ⊢
    exact fun hmem => hd (KeyedSet.mem_keys_insert.mpr (.inr hmem))
  · rw [Bool.not_eq_true', ← Bool.not_eq_true, KeyedSet.contains_iff, hname]
    exact hnew
  · rw [Bool.not_eq_false', KeyedSet.contains_iff, hname]
    exact KeyedSet.mem_keys_insert.mpr (.inl rfl)

end Store

/-! ## Dictionaries that names tell apart -/

/-- The expression is one of the dictionaries `D`, or no dictionary and not
written like one of them. -/
def TypeExpr.Among (D : DictRef → Prop) (t : TypeExpr) : Prop :=
  (∃ r, D r ∧ t = .dict r) ∨ ((∀ r, t ≠ .dict r) ∧ ∀ r, D r → t.text ≠ r.name)

@[simp] theorem TypeExpr.among_dict {D : DictRef → Prop} {r : DictRef} :
    (TypeExpr.dict r).Among D ↔ D r := by
  constructor
  · rintro (⟨r', hr', heq⟩ | ⟨hnot, -⟩)
    · exact TypeExpr.dict.inj heq ▸ hr'
    · exact absurd rfl (hnot r)
  · exact fun hr => .inl ⟨r, hr, rfl⟩

namespace Store

/-- The dictionaries `D` have names of their own, and their fields refer to no
other dictionary. -/
structure Closed (s : Store) (D : DictRef → Prop) : Prop where
  inUse : ∀ r, D r → s.InUse r
  name : ∀ r, D r → (s.get r).name = r.name
  injective : ∀ r r', D r → D r' → r.name = r'.name → r = r'
  fields : ∀ r, D r → ∀ t ∈ s.fieldNodes (.dict r), t.Among D

variable {s : Store} {D : DictRef → Prop} {types types' types'' : TypeSet} {a b : TypeExpr}
  {as : List TypeExpr}

/-- Only the dictionary itself is written like it. -/
theorem Closed.eq_dict (h : s.Closed D) (ha : a.Among D) {r : DictRef} (hr : D r)
    (htext : a.text = r.name) : a = .dict r := by
  rcases ha with ⟨r', hr', rfl⟩ | ⟨-, hother⟩
  · rw [h.injective r' r hr' hr htext]
  · exact absurd htext (hother r hr)

theorem Closed.reaches (h : s.Closed D) (ha : a.Among D) (hab : s.Reaches a b) : b.Among D := by
  induction hab with
  | refl => exact ha
  | tail _ hfield ih =>
      rcases ih with ⟨r, hr, rfl⟩ | ⟨hnot, -⟩
      · exact h.fields r hr _ hfield
      · rename_i c _ _
        cases c with
        | dict r => exact absurd rfl (hnot r)
        | _ => nomatch hfield

/-! ## Exploration -/

/-- The set `types'` is `types` with some new expressions, and holds the types of
the fields of each dictionary that is new. -/
structure Explored (s : Store) (types types' : TypeSet) : Prop where
  keys : types.keys ⊆ types'.keys
  fields : ∀ r, .dict r ∈ types'.toList →
    .dict r ∈ types.toList ∨ ∀ t ∈ s.fieldNodes (.dict r), t.text ∈ types'.keys

namespace Explored

theorem refl (s : Store) (types : TypeSet) : s.Explored types types where
  keys := List.Subset.refl _
  fields _ h := .inl h

theorem trans (h : s.Explored types types') (h' : s.Explored types' types'') :
    s.Explored types types'' where
  keys := List.Subset.trans h.keys h'.keys
  fields r hr := by
    rcases h'.fields r hr with hr | hr
    · exact (h.fields r hr).imp id fun hfields t ht => h'.keys (hfields t ht)
    · exact .inr hr

/-- Expressions that are searched from one after the other are all entered. -/
theorem foldl {f : TypeSet → TypeExpr → TypeSet} (entered : TypeExpr → TypeSet → Prop)
    (hkept : ∀ b u u', entered b u → s.Explored u u' → entered b u')
    (h : ∀ b ∈ as, ∀ u, types.keys ⊆ u.keys → s.Explored u (f u b) ∧ entered b (f u b)) :
    s.Explored types (as.foldl f types) ∧ ∀ b ∈ as, entered b (as.foldl f types) := by
  induction as generalizing types with
  | nil => exact ⟨.refl s types, nofun⟩
  | cons a as ih =>
      obtain ⟨hstep, hentered⟩ := h a List.mem_cons_self types (List.Subset.refl _)
      obtain ⟨hrest, hall⟩ := ih fun b hb u hu =>
        h b (List.mem_cons_of_mem _ hb) u (List.Subset.trans hstep.keys hu)
      refine ⟨hstep.trans hrest, ?_⟩
      intro b hb
      rcases List.mem_cons.mp hb with rfl | hb
      · exact hkept b _ _ hentered hrest
      · exact hall b hb

end Explored

/-- A new dictionary is explored when the types of its fields are. -/
theorem Explored.of_insert {r : DictRef}
    (h : s.Explored (types.insert r.name (.dict r)) types')
    (hfields : ∀ t ∈ s.fieldNodes (.dict r), t.text ∈ types'.keys) :
    s.Explored types types' where
  keys := fun k hk => h.keys (KeyedSet.mem_keys_insert.mpr (.inr hk))
  fields r' hr' := by
    rcases h.fields r' hr' with hr' | hr'
    · rcases KeyedSet.mem_toList_insert hr' with heq | hr'
      · obtain rfl := TypeExpr.dict.inj heq
        exact .inr hfields
      · exact .inl hr'
    · exact .inr hr'

/-- An expression that is no dictionary leads nowhere. -/
theorem Explored.insert (hnot : ∀ r, a ≠ .dict r) :
    s.Explored types (types.insert a.text a) where
  keys := fun k hk => KeyedSet.mem_keys_insert.mpr (.inr hk)
  fields r hr := by
    rcases KeyedSet.mem_toList_insert hr with heq | hr
    · exact absurd heq.symm (hnot r)
    · exact .inl hr

/-- **A search that is deep enough enters the expression and explores what is
new.** -/
theorem Closed.explored_visit (h : s.Closed D) (ha : a.Among D) {depth : Nat}
    (hdepth : s.fresh types < depth) :
    s.Explored types (s.visit depth types a) ∧ a.text ∈ (s.visit depth types a).keys := by
  induction depth generalizing types a with
  | zero => exact absurd hdepth (Nat.not_lt_zero _)
  | succ depth ih =>
      rw [visit]
      split
      · next hmem => exact ⟨.refl s types, KeyedSet.contains_iff.mp hmem⟩
      · next hnew =>
          rw [KeyedSet.contains_iff] at hnew
          have hself : a.text ∈ (types.insert a.text a).keys :=
            KeyedSet.mem_keys_insert.mpr (.inl rfl)
          rcases ha with ⟨r, hr, rfl⟩ | ⟨hnot, -⟩
          · have hfresh := fresh_insert_lt (h.inUse r hr) (h.name r hr) hnew
            have hstep : ∀ t ∈ s.fieldNodes (.dict r), ∀ u : TypeSet,
                (types.insert r.name (.dict r)).keys ⊆ u.keys →
                  s.Explored u (s.visit depth u t) ∧ t.text ∈ (s.visit depth u t).keys := by
              intro t ht u hu
              have hle : s.fresh u ≤ s.fresh (types.insert r.name (.dict r)) := fresh_le hu
              exact ih (h.fields r hr t ht) (by omega)
            obtain ⟨hexp, hall⟩ := Explored.foldl (fun t u => t.text ∈ u.keys)
              (fun _ _ _ hmem hexp => hexp.keys hmem) hstep
            exact ⟨hexp.of_insert hall, hexp.keys hself⟩
          · rw [fieldNodes_eq_nil hnot, List.foldl_nil]
            exact ⟨.insert hnot, hself⟩

/-- The closure explores everything, and enters the given expressions. -/
theorem Closed.explored_closure (h : s.Closed D) (has : ∀ a ∈ as, ∀ t ∈ a.nodes, t.Among D) :
    s.Explored ∅ (s.closure as) ∧
      ∀ a ∈ as, ∀ t ∈ a.nodes, t.text ∈ (s.closure as).keys := by
  refine Explored.foldl (fun a u => ∀ t ∈ a.nodes, t.text ∈ u.keys)
    (fun _ _ _ hmem hexp t ht => hexp.keys (hmem t ht)) fun a ha u _ => ?_
  refine Explored.foldl (fun t u => t.text ∈ u.keys)
    (fun _ _ _ hmem hexp => hexp.keys hmem) fun t ht u' _ => ?_
  exact h.explored_visit (has a ha t ht) (Nat.lt_succ_of_le (fresh_le_size s u'))

/-- What is reached from expressions among some dictionaries is so too. -/
theorem Closed.among_of_reachedFrom (h : s.Closed D) (has : ∀ a ∈ as, ∀ t ∈ a.nodes, t.Among D)
    (hb : s.ReachedFrom as b) : b.Among D := by
  obtain ⟨a, ha, t, ht, hreaches⟩ := hb
  exact h.reaches (has a ha t ht) hreaches

/-! ## Unions of closures -/

/-- What the expressions of several lists reach, when each list is searched from
by itself. -/
def closureOfAll (s : Store) (ass : List (List TypeExpr)) : TypeSet :=
  (ass.map s.closure).foldl KeyedSet.union ∅

variable {ass : List (List TypeExpr)} {r : DictRef}

theorem mem_keys_foldl_union {k : String} (sets : List TypeSet) :
    k ∈ (sets.foldl KeyedSet.union types).keys ↔ k ∈ types.keys ∨ ∃ u ∈ sets, k ∈ u.keys := by
  induction sets generalizing types with
  | nil => simp
  | cons u sets ih =>
      simp only [List.foldl_cons, ih, KeyedSet.mem_keys_union, List.exists_mem_cons_iff, or_assoc]

theorem mem_keys_closureOfAll {k : String} :
    k ∈ (s.closureOfAll ass).keys ↔ ∃ as ∈ ass, k ∈ (s.closure as).keys := by
  rw [closureOfAll, mem_keys_foldl_union]
  simp

/-- The union is made by adding closures. -/
theorem closureOfAll_induction {P : TypeSet → Prop} (h : P ∅)
    (hstep : ∀ types, P types → ∀ as ∈ ass, P (types.union (s.closure as))) :
    P (s.closureOfAll ass) := by
  refine List.foldlRecOn _ _ h fun types hP u hu => ?_
  obtain ⟨as, has, rfl⟩ := List.mem_map.mp hu
  exact hstep types hP as has

theorem exists_of_mem_closureOfAll (h : b ∈ (s.closureOfAll ass).toList) :
    ∃ as ∈ ass, b ∈ (s.closure as).toList := by
  revert b
  refine closureOfAll_induction
    (P := fun u => ∀ {b}, b ∈ u.toList → ∃ as ∈ ass, b ∈ (s.closure as).toList) ?_ ?_
  · simp
  · intro u hu as has b hb
    rcases KeyedSet.mem_toList_union hb with hb | hb
    · exact hu hb
    · exact ⟨as, has, hb⟩

theorem keyedBy_closureOfAll (s : Store) (ass : List (List TypeExpr)) :
    (s.closureOfAll ass).KeyedBy TypeExpr.text :=
  closureOfAll_induction .empty fun _ h as _ => h.union (keyedBy_closure s as)

/-- The union is ordered strictly by the texts. -/
theorem sorted_closureOfAll (s : Store) (ass : List (List TypeExpr)) :
    (s.closureOfAll ass).Sorted :=
  closureOfAll_induction (P := KeyedSet.Sorted) KeyedSet.sorted_empty fun _ h _ _ =>
    KeyedSet.sorted_union h

namespace Closed

variable (h : s.Closed D) (has : ∀ as ∈ ass, ∀ a ∈ as, ∀ t ∈ a.nodes, t.Among D)
include h has

theorem among_of_mem (hb : b ∈ (s.closureOfAll ass).toList) : b.Among D := by
  obtain ⟨as, hmem, hb⟩ := exists_of_mem_closureOfAll hb
  exact h.among_of_reachedFrom (has as hmem) (reachedFrom_of_mem_closure hb)

/-- The union holds a dictionary when it holds its name. -/
theorem mem_of_name (hr : D r) (hmem : r.name ∈ (s.closureOfAll ass).keys) :
    .dict r ∈ (s.closureOfAll ass).toList := by
  obtain ⟨b, hb, htext⟩ := (keyedBy_closureOfAll s ass).mem_keys.mp hmem
  rwa [h.eq_dict (h.among_of_mem has hb) hr htext] at hb

/-- **The union holds the dictionaries that are parts of the given expressions.** -/
theorem mem_of_node (hmem : as ∈ ass) (ha : a ∈ as) (hr : .dict r ∈ a.nodes) :
    .dict r ∈ (s.closureOfAll ass).toList := by
  have hD : D r := TypeExpr.among_dict.mp (has as hmem a ha _ hr)
  refine h.mem_of_name has hD (mem_keys_closureOfAll.mpr ⟨as, hmem, ?_⟩)
  exact (h.explored_closure (has as hmem)).2 a ha _ hr

/-- **With a dictionary the union holds those of its fields.** -/
theorem mem_of_field {r' : DictRef} (hr : .dict r ∈ (s.closureOfAll ass).toList)
    (hr' : .dict r' ∈ s.fieldNodes (.dict r)) : .dict r' ∈ (s.closureOfAll ass).toList := by
  obtain ⟨as, hmem, hr⟩ := exists_of_mem_closureOfAll hr
  have habove : (TypeExpr.dict r).Among D :=
    h.among_of_reachedFrom (has as hmem) (reachedFrom_of_mem_closure hr)
  have hD : D r' := TypeExpr.among_dict.mp (h.reaches habove (.single hr'))
  refine h.mem_of_name has hD (mem_keys_closureOfAll.mpr ⟨as, hmem, ?_⟩)
  rcases (h.explored_closure (has as hmem)).1.fields r hr with hold | hfields
  · nomatch hold
  · exact hfields _ hr'

end Closed

end Store

end ServiceStubs
