import ServiceStubs.Proofs.TypeExpr.Closure

/-!
# Searches for types

What can be reached from an expression is said twice: one step goes to a parameter,
or to the type of a field of a dictionary; the closure goes through parts and fields
at once.  Both reach the same.

The search for types enters an expression, then those that it leads to, except that
a dictionary with a known text is not entered again.  This may be told without a
bound on its depth, as a finite derivation: each search has one, so the bound on the
depth never cuts it short, whatever circles the dictionaries form.  If no dictionary
has the text of something else that is reached, nothing is missed, and the order of
several searches does not matter.

## Main definitions

* `Store.LeadsTo` — what can be reached, one step at a time.
* `Store.WellFormed`, `Store.Covers` — stores and expressions whose handles belong to
  dictionaries of the store.
* `Store.Collects`, `Store.CollectsAll` — the search, without a bound.
* `Store.ToldApart` — no dictionary has the text of something else.
* `Store.IsClosure` — a set of what is reached, each text once and in order.
* `Store.collect_closes` — searches end, and find what is reached.
-/

namespace ServiceStubs

namespace Store

/-! ## The search, without a bound -/

mutual

/-- The search from an expression finds in a set of types what turns it into another
one. -/
inductive Collects (s : Store) : TypeSet → TypeExpr → TypeSet → Prop
  | plain {types a} (hargs : a.args? = none) (hdict : ∀ r, a ≠ .dict r) :
      Collects s types a (types.insert a.text a)
  /-- The parameters are searched, whether or not the text is new. -/
  | subscript {types types' g args}
      (h : CollectsAll s (types.insert (TypeExpr.subscript g args).text (.subscript g args)) args
        types') :
      Collects s types (.subscript g args) types'
  /-- The fields of a dictionary with a known text are not searched. -/
  | known {types r} (h : r.name ∈ types.keys) : Collects s types (.dict r) types
  | entered {types types' r} (h : r.name ∉ types.keys)
      (hfields : CollectsAll s (types.insert r.name (.dict r))
        ((s.get r).fields.map (·.type)) types') :
      Collects s types (.dict r) types'

/-- The searches from some expressions, one after the other. -/
inductive CollectsAll (s : Store) : TypeSet → List TypeExpr → TypeSet → Prop
  | nil {types} : CollectsAll s types [] types
  | cons {types types' types'' a as} (h : Collects s types a types')
      (hrest : CollectsAll s types' as types'') : CollectsAll s types (a :: as) types''

end

variable {s : Store} {types types' types'' : TypeSet} {a b c : TypeExpr} {as : List TypeExpr}
  {r : DictRef}

/-! ## What an expression leads to -/

/-- The expression `b` is a parameter of `a`, or the type of a field of the dictionary
`a`. -/
inductive Refers (s : Store) : TypeExpr → TypeExpr → Prop
  | arg {g args b} (h : b ∈ args) : Refers s (.subscript g args) b
  | field {r f} (h : f ∈ (s.get r).fields) : Refers s (.dict r) f.type

/-- The expression `b` can be reached from `a`. -/
def LeadsTo (s : Store) : TypeExpr → TypeExpr → Prop :=
  Relation.ReflTransGen s.Refers

/-- The expression is reached from one of some expressions. -/
def LedTo (s : Store) (as : List TypeExpr) (b : TypeExpr) : Prop :=
  ∃ a ∈ as, s.LeadsTo a b

theorem leadsTo_of_mem_nodes : (a : TypeExpr) → b ∈ a.nodes → s.LeadsTo a b
  | .subscript g args, h => by
      rcases TypeExpr.mem_nodes_subscript.mp h with rfl | ⟨c, hc, h⟩
      · exact .refl
      · have := List.sizeOf_lt_of_mem hc
        exact .head (.arg hc) (leadsTo_of_mem_nodes c h)
  | .scalar _, h => List.mem_singleton.mp h ▸ .refl
  | .literal _, h => List.mem_singleton.mp h ▸ .refl
  | .dict _, h => List.mem_singleton.mp h ▸ .refl
  | .external _ _ _, h => List.mem_singleton.mp h ▸ .refl
  | .internal _ _, h => List.mem_singleton.mp h ▸ .refl

theorem leadsTo_of_mem_fieldNodes (h : b ∈ s.fieldNodes a) : s.LeadsTo a b := by
  cases a with
  | dict r =>
      obtain ⟨f, hf, hb⟩ := List.mem_flatMap.mp h
      exact .head (.field hf) (leadsTo_of_mem_nodes f.type hb)
  | _ => nomatch h

theorem LeadsTo.of_reaches (h : s.Reaches a b) : s.LeadsTo a b := by
  induction h with
  | refl => exact .refl
  | tail _ hfield ih => exact ih.trans (leadsTo_of_mem_fieldNodes hfield)

/-- A parameter of a part is a part. -/
theorem mem_nodes_of_arg {g : Generic} {args : List TypeExpr} (hc : c ∈ args) :
    (a : TypeExpr) → .subscript g args ∈ a.nodes → c ∈ a.nodes
  | .subscript g' args', h => by
      rcases TypeExpr.mem_nodes_subscript.mp h with heq | ⟨d, hd, h⟩
      · obtain ⟨rfl, rfl⟩ := TypeExpr.subscript.inj heq
        exact TypeExpr.mem_nodes_subscript.mpr (.inr ⟨c, hc, TypeExpr.self_mem_nodes c⟩)
      · have := List.sizeOf_lt_of_mem hd
        exact TypeExpr.mem_nodes_subscript.mpr (.inr ⟨d, hd, mem_nodes_of_arg hc d h⟩)
  | .scalar _, h => nomatch List.mem_singleton.mp h
  | .literal _, h => nomatch List.mem_singleton.mp h
  | .dict _, h => nomatch List.mem_singleton.mp h
  | .external _ _ _, h => nomatch List.mem_singleton.mp h
  | .internal _ _, h => nomatch List.mem_singleton.mp h

/-- A parameter of what is reached through the fields of dictionaries is reached so
too. -/
theorem ReachedFrom.arg {g : Generic} {args : List TypeExpr}
    (h : s.ReachedFrom as (.subscript g args)) (hc : c ∈ args) : s.ReachedFrom as c := by
  obtain ⟨a, ha, t, ht, hreaches⟩ := h
  rcases hreaches.cases_tail with heq | ⟨d, hd, hfield⟩
  · exact ⟨a, ha, c, mem_nodes_of_arg hc a (heq ▸ ht), .refl⟩
  · cases d with
    | dict r =>
        obtain ⟨f, hf, hb⟩ := List.mem_flatMap.mp hfield
        exact ⟨a, ha, t, ht, hd.tail (List.mem_flatMap.mpr ⟨f, hf, mem_nodes_of_arg hc _ hb⟩)⟩
    | _ => nomatch hfield

/-- **One step at a time, the same is reached as through parts and fields.** -/
theorem reachedFrom_iff : s.ReachedFrom as b ↔ s.LedTo as b := by
  constructor
  · rintro ⟨a, ha, t, ht, hreaches⟩
    exact ⟨a, ha, (leadsTo_of_mem_nodes a ht).trans (LeadsTo.of_reaches hreaches)⟩
  · rintro ⟨a, ha, h⟩
    induction h with
    | refl => exact ⟨a, ha, a, a.self_mem_nodes, .refl⟩
    | tail _ hstep ih =>
        cases hstep with
        | arg hc => exact ih.arg hc
        | field hf =>
            obtain ⟨a', ha', t, ht, hreaches⟩ := ih
            refine ⟨a', ha', t, ht, hreaches.tail ?_⟩
            exact List.mem_flatMap.mpr ⟨_, hf, TypeExpr.self_mem_nodes _⟩

/-! ## Well-formed stores -/

/-- The handle has the number and the name of a dictionary of the store. -/
def Holds (s : Store) (r : DictRef) : Prop :=
  ∃ d, s.dicts[r.id]? = some d ∧ d.name = r.name

/-- The dictionaries that occur in an expression are those of the store. -/
def Covers (s : Store) (a : TypeExpr) : Prop :=
  ∀ r, .dict r ∈ a.nodes → s.Holds r

/-- The fields of the dictionaries of a store refer to dictionaries of the store. -/
def WellFormed (s : Store) : Prop :=
  ∀ r, ∀ f ∈ (s.get r).fields, s.Covers f.type

theorem Holds.inUse (h : s.Holds r) : s.InUse r := by
  obtain ⟨d, hd, -⟩ := h
  exact (Array.getElem?_eq_some_iff.mp hd).1

theorem Holds.name (h : s.Holds r) : (s.get r).name = r.name := by
  obtain ⟨d, hd, hname⟩ := h
  simpa [get, hd] using hname

/-- Two handles of one dictionary are the same. -/
theorem Holds.eq_of_id {r' : DictRef} (h : s.Holds r) (h' : s.Holds r') (hid : r.id = r'.id) :
    r = r' := by
  obtain ⟨d, hd, hname⟩ := h
  obtain ⟨d', hd', hname'⟩ := h'
  rw [hid, hd'] at hd
  obtain rfl := Option.some.inj hd
  cases r
  cases r'
  simp_all

theorem Holds.add (h : s.Holds r) (d : TypedDict) : (s.add d).2.Holds r := by
  obtain ⟨d', hd', hname⟩ := h
  have hne : r.id ≠ s.dicts.size := by
    have := (Array.getElem?_eq_some_iff.mp hd').1
    omega
  exact ⟨d', by simpa [Store.add, Array.getElem?_push, hne] using hd', hname⟩

theorem Holds.addField (h : s.Holds r) (ref : DictRef) (f : Field) :
    (s.addField ref f).Holds r := by
  obtain ⟨d, hd, hname⟩ := h
  simp only [Holds, Store.addField, modify, Array.getElem?_modify, hd]
  split <;> exact ⟨_, rfl, hname⟩

/-- The empty store is well formed. -/
theorem wellFormed_empty : WellFormed ∅ := by
  intro r f hf
  simp [get, EmptyCollection.emptyCollection] at hf

/-- A new dictionary whose fields refer to dictionaries of the store keeps it well formed. -/
theorem WellFormed.addDict (h : s.WellFormed) {d : TypedDict}
    (hd : ∀ f ∈ d.fields, s.Covers f.type) : (s.add d).2.WellFormed := by
  intro r f hf r' hr'
  by_cases huse : s.InUse r
  · rw [get_add_of_inUse huse] at hf
    exact (h r f hf r' hr').add _
  · have hnew : f ∈ d.fields := by
      simp only [InUse] at huse
      simp only [get, Store.add, Array.getElem?_push] at hf
      split at hf
      · exact hf
      · rw [Array.getElem?_eq_none (by omega)] at hf
        exact absurd hf List.not_mem_nil
    exact (hd f hnew r' hr').add _

/-- A new dictionary without fields keeps a store well formed. -/
theorem WellFormed.add (h : s.WellFormed) (name : String) : (s.add { name }).2.WellFormed :=
  h.addDict nofun

/-- A new field that refers to dictionaries of the store keeps it well formed. -/
theorem WellFormed.addField (h : s.WellFormed) (ref : DictRef) {f : Field}
    (hf : s.Covers f.type) : (s.addField ref f).WellFormed := by
  intro r g hg r' hr'
  have hfields : ∀ g ∈ ((s.addField ref f).get r).fields, g = f ∨ g ∈ (s.get r).fields := by
    intro g hg
    by_cases hid : r.id = ref.id
    · by_cases huse : s.InUse ref
      · rw [get_congr (inUse_addField.mpr huse) hid, get_addField huse] at hg
        rw [get_congr huse hid]
        simpa [or_comm] using hg
      · simp only [InUse] at huse
        rw [get, Store.addField, modify, Array.getElem?_eq_none (by simp; omega)] at hg
        exact absurd hg List.not_mem_nil
    · rw [get_addField_of_ne hid] at hg
      exact .inr hg
  rcases hfields g hg with rfl | hg
  · exact (hf r' hr').addField _ _
  · exact (h r g hg r' hr').addField _ _

@[simp] theorem covers_scalar (s : Store) (x : Scalar) : s.Covers (.scalar x) := by
  simp [Covers]

@[simp] theorem covers_dict : s.Covers (.dict r) ↔ s.Holds r := by
  simp [Covers]

@[simp] theorem covers_subscript {g : Generic} {args : List TypeExpr} :
    s.Covers (.subscript g args) ↔ ∀ a ∈ args, s.Covers a := by
  simp only [Covers, TypeExpr.mem_nodes_subscript, reduceCtorEq, false_or]
  constructor
  · exact fun h a ha r hr => h r ⟨a, ha, hr⟩
  · rintro h r ⟨a, ha, hr⟩
    exact h a ha r hr

/-- All that is reached from expressions of the store is of the store. -/
theorem Covers.of_leadsTo (h : s.Covers a) (hs : s.WellFormed) (hab : s.LeadsTo a b) :
    s.Covers b := by
  induction hab with
  | refl => exact h
  | tail _ hstep ih =>
      cases hstep with
      | arg hb => exact covers_subscript.mp ih _ hb
      | field hf => exact hs _ _ hf

/-! ## What a search keeps -/

/-- What holds of each insertion, and of steps that follow each other. -/
structure OfSteps (P : TypeSet → TypeSet → Prop) : Prop where
  refl : ∀ u, P u u
  trans : ∀ u u' u'', P u u' → P u' u'' → P u u''
  insert : ∀ (u : TypeSet) (a : TypeExpr), P u (u.insert a.text a)

mutual

/-- A search makes one step after the other, and each enters an expression. -/
theorem Collects.steps {P : TypeSet → TypeSet → Prop} (hP : OfSteps P) :
    ∀ {types a types'}, s.Collects types a types' → P types types'
  | _, a, _, .plain _ _ => hP.insert _ a
  | _, _, _, .subscript h => hP.trans _ _ _ (hP.insert _ _) (CollectsAll.steps hP h)
  | _, _, _, .known _ => hP.refl _
  | _, .dict r, _, .entered _ h => hP.trans _ _ _ (hP.insert _ (.dict r)) (CollectsAll.steps hP h)

theorem CollectsAll.steps {P : TypeSet → TypeSet → Prop} (hP : OfSteps P) :
    ∀ {types as types'}, s.CollectsAll types as types' → P types types'
  | _, _, _, .nil => hP.refl _
  | _, _, _, .cons h hrest => hP.trans _ _ _ (Collects.steps hP h) (CollectsAll.steps hP hrest)

end

/-- A search keeps the order of a set. -/
theorem Collects.sorted (h : s.Collects types a types') (hsorted : types.Sorted) :
    types'.Sorted := by
  have hP : OfSteps fun u u' : TypeSet => u.Sorted → u'.Sorted :=
    ⟨fun _ hu => hu, fun _ _ _ h h' hu => h' (h hu), fun _ _ hu => KeyedSet.sorted_insert hu⟩
  exact h.steps hP hsorted

/-- A search loses nothing. -/
theorem Collects.keys_subset (h : s.Collects types a types') : types.keys ⊆ types'.keys := by
  have hP : OfSteps fun u u' : TypeSet => u.keys ⊆ u'.keys :=
    ⟨fun _ => List.Subset.refl _, fun _ _ _ => List.Subset.trans, fun u a k hk => by simp [hk]⟩
  exact h.steps hP

/-- A loop whose rounds search from expressions searches from one after the other. -/
theorem collectsAll_foldl {f : TypeSet → TypeExpr → TypeSet} (hsorted : types.Sorted)
    (h : ∀ a ∈ as, ∀ u : TypeSet, u.Sorted → types.keys ⊆ u.keys → s.Collects u a (f u a)) :
    s.CollectsAll types as (as.foldl f types) := by
  induction as generalizing types with
  | nil => exact .nil
  | cons a as ih =>
      have hstep := h a List.mem_cons_self types hsorted (List.Subset.refl _)
      refine .cons hstep (ih (hstep.sorted hsorted) ?_)
      intro b hb u hu hkeys
      exact h b (List.mem_cons_of_mem _ hb) u hu (List.Subset.trans hstep.keys_subset hkeys)

/-! ## Searches end -/

/-- An expression that has no fields is entered, and nothing else. -/
theorem visit_of_fieldNodes_eq_nil (hsorted : types.Sorted) (ha : s.fieldNodes a = [])
    (depth : Nat) : s.visit depth types a = types.insert a.text a := by
  cases depth with
  | zero => rfl
  | succ depth =>
      rw [visit, ha, List.foldl_nil]
      split
      · next h => exact (KeyedSet.insert_of_mem_keys hsorted (KeyedSet.contains_iff.mp h) a).symm
      · rfl

theorem foldl_visit_subscript (hsorted : types.Sorted) (g : Generic) (args : List TypeExpr)
    (depth : Nat) : (TypeExpr.subscript g args).nodes.foldl (s.visit depth) types =
      args.foldl (fun u b => b.nodes.foldl (s.visit depth) u)
        (types.insert (TypeExpr.subscript g args).text (.subscript g args)) := by
  rw [TypeExpr.nodes_subscript, List.foldl_cons, visit_of_fieldNodes_eq_nil hsorted rfl,
    List.foldl_flatMap]

theorem foldl_visit_dict (r : DictRef) (depth : Nat) :
    (TypeExpr.dict r).nodes.foldl (s.visit (depth + 1)) types =
      if r.name ∈ types.keys then types
      else ((s.get r).fields.map (·.type)).foldl (fun u b => b.nodes.foldl (s.visit depth) u)
        (types.insert r.name (.dict r)) := by
  rw [TypeExpr.nodes_dict, List.foldl_cons, List.foldl_nil, visit]
  simp only [KeyedSet.contains_iff, TypeExpr.text, fieldNodes, List.foldl_flatMap,
    List.foldl_map]

theorem collects_plain (hargs : a.args? = none) (hdict : ∀ r, a ≠ .dict r)
    (hsorted : types.Sorted) (depth : Nat) :
    s.Collects types a (a.nodes.foldl (s.visit depth) types) := by
  have hnodes : a.nodes = [a] := by
    cases a with
    | subscript g args => nomatch hargs
    | _ => rfl
  rw [hnodes, List.foldl_cons, List.foldl_nil,
    visit_of_fieldNodes_eq_nil hsorted (fieldNodes_eq_nil hdict)]
  exact .plain hargs hdict

/-- **A search that is deep enough is a search without a bound.**  The depth is spent on
dictionaries only, and each of them is new to the set. -/
theorem collects_foldl_visit (hs : s.WellFormed) : (depth : Nat) → (a : TypeExpr) →
    {types : TypeSet} → s.Covers a → types.Sorted → s.fresh types < depth →
      s.Collects types a (a.nodes.foldl (s.visit depth) types)
  | 0, _, _, _, _, hdepth => absurd hdepth (Nat.not_lt_zero _)
  | depth + 1, .subscript g args, types, ha, hsorted, hdepth => by
      rw [foldl_visit_subscript hsorted]
      apply Collects.subscript
      apply collectsAll_foldl (KeyedSet.sorted_insert hsorted)
      intro b hb u hu hkeys
      have hfresh : s.fresh u ≤ s.fresh types :=
        fresh_le fun k hk => hkeys (KeyedSet.mem_keys_insert.mpr (.inr hk))
      have hsize := List.sizeOf_lt_of_mem hb
      exact collects_foldl_visit hs (depth + 1) b (covers_subscript.mp ha b hb) hu (by omega)
  | depth + 1, .dict r, types, ha, hsorted, hdepth => by
      rw [foldl_visit_dict]
      split
      · next hknown => exact .known hknown
      · next hnew =>
          have hr : s.Holds r := ha r (TypeExpr.self_mem_nodes _)
          apply Collects.entered hnew
          apply collectsAll_foldl (KeyedSet.sorted_insert hsorted)
          intro b hb u hu hkeys
          obtain ⟨f, hf, rfl⟩ := List.mem_map.mp hb
          have hfresh : s.fresh u ≤ s.fresh (types.insert r.name (.dict r)) := fresh_le hkeys
          have hless := fresh_insert_lt hr.inUse hr.name hnew
          exact collects_foldl_visit hs depth f.type (hs r f hf) hu (by omega)
  | depth + 1, .scalar _, _, _, hsorted, _ => collects_plain rfl (by simp) hsorted _
  | depth + 1, .literal _, _, _, hsorted, _ => collects_plain rfl (by simp) hsorted _
  | depth + 1, .external _ _ _, _, _, hsorted, _ => collects_plain rfl (by simp) hsorted _
  | depth + 1, .internal _ _, _, _, hsorted, _ => collects_plain rfl (by simp) hsorted _
termination_by depth a => (depth, sizeOf a)

/-- **Each search ends**, whatever circles the dictionaries form. -/
theorem collects_collect (hs : s.WellFormed) (ha : s.Covers a) (hsorted : types.Sorted) :
    s.Collects types a (s.collect types a) :=
  collects_foldl_visit hs _ a ha hsorted (Nat.lt_succ_of_le (fresh_le_size s types))

mutual

/-- A search has one result. -/
theorem Collects.unique : ∀ {types a types' types''}, s.Collects types a types' →
    s.Collects types a types'' → types' = types''
  | _, _, _, _, .plain hargs hdict, h => by
      cases h with
      | plain => rfl
      | subscript => nomatch hargs
      | known => exact absurd rfl (hdict _)
      | entered => exact absurd rfl (hdict _)
  | _, _, _, _, .subscript hall, h => by
      cases h with
      | plain hargs => nomatch hargs
      | subscript h => exact CollectsAll.unique hall h
  | _, _, _, _, .known hknown, h => by
      cases h with
      | plain _ hdict => exact absurd rfl (hdict _)
      | known => rfl
      | entered hnew => exact absurd hknown hnew
  | _, _, _, _, .entered hnew hall, h => by
      cases h with
      | plain _ hdict => exact absurd rfl (hdict _)
      | known hknown => exact absurd hknown hnew
      | entered _ h => exact CollectsAll.unique hall h

theorem CollectsAll.unique : ∀ {types as types' types''}, s.CollectsAll types as types' →
    s.CollectsAll types as types'' → types' = types''
  | _, _, _, _, .nil, h => by
      cases h
      rfl
  | _, _, _, _, .cons hfirst hrest, h => by
      cases h with
      | cons h h' =>
          obtain rfl := Collects.unique hfirst h
          exact CollectsAll.unique hrest h'

end

/-- The closure is in the order of the texts. -/
theorem sorted_closure (s : Store) (as : List TypeExpr) : (s.closure as).Sorted :=
  closure_induction KeyedSet.sorted_empty fun _ _ _ h => KeyedSet.sorted_insert h

/-! ## What searches find -/

/-- No dictionary that is reached has the text of something else that is reached. -/
def ToldApart (s : Store) (as : List TypeExpr) : Prop :=
  ∀ r b, s.LedTo as (.dict r) → s.LedTo as b → b.same (.dict r) → b.sameInstance (.dict r)

/-- The set holds what is reached from some expressions: for each expression that is
reached just one of its text, nothing that is not reached, and all in the order of their
texts. -/
structure IsClosure (s : Store) (as : List TypeExpr) (types : TypeSet) : Prop where
  holds : ∀ b, s.LedTo as b → ∃! c, c ∈ types.toList ∧ c.text = b.text
  only : ∀ c ∈ types.toList, s.LedTo as c
  increasing : types.toList.Pairwise fun c c' => c.text < c'.text

section ToldApart

variable (hs : s.WellFormed) (has : ∀ a ∈ as, s.Covers a) (hapart : s.ToldApart as)

include hs has in
theorem covers_of_ledTo (hb : s.LedTo as b) : s.Covers b := by
  obtain ⟨a, ha, hab⟩ := hb
  exact (has a ha).of_leadsTo hs hab

include hs has in
theorem holds_of_ledTo (hr : s.LedTo as (.dict r)) : s.Holds r :=
  covers_of_ledTo hs has hr r (TypeExpr.self_mem_nodes _)

include hapart in
/-- What is reached is a dictionary that is reached, or not written like one. -/
theorem ToldApart.among (hb : s.LedTo as b) : b.Among fun r => s.LedTo as (.dict r) := by
  by_cases hdict : ∃ r, b = .dict r
  · obtain ⟨r, rfl⟩ := hdict
    exact TypeExpr.among_dict.mpr hb
  · rw [not_exists] at hdict
    refine .inr ⟨hdict, fun r hr htext => ?_⟩
    have hsame := hapart r b hr hb (decide_eq_true htext)
    cases b with
    | dict r' => exact hdict r' rfl
    | _ => nomatch hsame

include hs has hapart in
/-- The dictionaries that are reached are told apart by their names. -/
theorem ToldApart.closed : s.Closed fun r => s.LedTo as (.dict r) where
  inUse r hr := (holds_of_ledTo hs has hr).inUse
  name r hr := (holds_of_ledTo hs has hr).name
  injective r r' hr hr' hname := by
    have hsame := hapart r' (.dict r) hr' hr (decide_eq_true hname)
    simp only [TypeExpr.sameInstance, decide_eq_true_eq] at hsame
    exact (holds_of_ledTo hs has hr).eq_of_id (holds_of_ledTo hs has hr') hsame
  fields r hr t ht := by
    obtain ⟨a, ha, har⟩ := hr
    exact hapart.among ⟨a, ha, har.trans (leadsTo_of_mem_fieldNodes ht)⟩

include hs has hapart in
/-- **The closure holds the text of all that is reached.** -/
theorem ToldApart.mem_keys_closure (hb : s.LedTo as b) : b.text ∈ (s.closure as).keys := by
  have hclosed := hapart.closed hs has
  have hnodes : ∀ a ∈ as, ∀ t ∈ a.nodes, t.Among fun r => s.LedTo as (.dict r) :=
    fun a ha t ht => hapart.among ⟨a, ha, leadsTo_of_mem_nodes a ht⟩
  obtain ⟨hexplored, hentered⟩ := hclosed.explored_closure hnodes
  obtain ⟨a, ha, t, ht, hreaches⟩ := reachedFrom_iff.mpr hb
  clear hb
  induction hreaches with
  | refl => exact hentered a ha t ht
  | @tail c b hc hfield ih =>
      cases c with
      | dict r =>
          obtain ⟨c, hmem, htext⟩ := (keyedBy_closure s as).mem_keys.mp ih
          have hr : s.LedTo as (.dict r) := reachedFrom_iff.mp ⟨a, ha, t, ht, hc⟩
          have hcr : s.LedTo as c := reachedFrom_iff.mp (reachedFrom_of_mem_closure hmem)
          obtain rfl := hclosed.eq_dict (hapart.among hcr) hr htext
          rcases hexplored.fields r hmem with hempty | hfields
          · nomatch hempty
          · exact hfields b hfield
      | _ => nomatch hfield

include hs has hapart in
/-- **The closure is what is reached, each text once.** -/
theorem ToldApart.isClosure : s.IsClosure as (s.closure as) where
  holds b hb := by
    obtain ⟨c, hc, htext⟩ :=
      (keyedBy_closure s as).mem_keys.mp (hapart.mem_keys_closure hs has hb)
    refine ⟨c, ⟨hc, htext⟩, fun c' ⟨hc', htext'⟩ => ?_⟩
    exact (keyedBy_closure s as).eq_of_key (sorted_closure s as) hc' hc (htext'.trans htext.symm)
  only c hc := reachedFrom_iff.mp (reachedFrom_of_mem_closure hc)
  increasing := (keyedBy_closure s as).pairwise (sorted_closure s as)

end ToldApart

/-! ## One set for several searches -/

theorem LedTo.mono {as' : List TypeExpr} (h : s.LedTo as b) (hsub : as ⊆ as') :
    s.LedTo as' b := by
  obtain ⟨a, ha, hab⟩ := h
  exact ⟨a, hsub ha, hab⟩

theorem ToldApart.mono {as' : List TypeExpr} (h : s.ToldApart as) (hsub : as' ⊆ as) :
    s.ToldApart as' :=
  fun r b hr hb hsame => h r b (hr.mono hsub) (hb.mono hsub) hsame

theorem IsClosure.perm {as' : List TypeExpr} (h : s.IsClosure as types) (hperm : as.Perm as') :
    s.IsClosure as' types where
  holds b hb := h.holds b (hb.mono hperm.symm.subset)
  only c hc := (h.only c hc).mono hperm.subset
  increasing := h.increasing

/-- The texts of a closure are those of what is reached. -/
theorem IsClosure.mem_texts_iff (h : s.IsClosure as types) {k : String} :
    k ∈ types.toList.map TypeExpr.text ↔ ∃ b, s.LedTo as b ∧ b.text = k := by
  rw [List.mem_map]
  constructor
  · rintro ⟨c, hc, rfl⟩
    exact ⟨c, h.only c hc, rfl⟩
  · rintro ⟨b, hb, rfl⟩
    obtain ⟨c, ⟨hc, htext⟩, -⟩ := h.holds b hb
    exact ⟨c, hc, htext⟩

/-- **Searches for types end, and find what is reached.**  The search from an expression
ends for each set that is in order, with one result, and this is the set that `collect`
computes.  If no dictionary has the text of something else that is reached, then the set
holds exactly what is reached; and for expressions that this is true of together, the
searches one after the other find, in whatever order, what each of them finds by
itself. -/
theorem collect_closes (s : Store) (hs : s.WellFormed) :
    (∀ (types types' : TypeSet) (a : TypeExpr), types.Sorted → s.Covers a →
      (s.Collects types a types' ↔ types' = s.collect types a)) ∧
    (∀ a, s.Covers a → s.ToldApart [a] → s.IsClosure [a] (s.collect ∅ a)) ∧
    (∀ as as' : List TypeExpr, (∀ a ∈ as, s.Covers a) → s.ToldApart as → as.Perm as' →
      s.IsClosure as (as'.foldl s.collect ∅) ∧
      ∀ k, k ∈ (as'.foldl s.collect ∅).toList.map TypeExpr.text ↔
        ∃ a ∈ as, k ∈ (s.collect ∅ a).toList.map TypeExpr.text) := by
  have hone : ∀ a, s.Covers a → s.ToldApart [a] → s.IsClosure [a] (s.collect ∅ a) :=
    fun a ha hapart => hapart.isClosure hs (by simpa using ha)
  refine ⟨fun types types' a hsorted ha => ?_, hone, fun as as' has hapart hperm => ?_⟩
  · have hcollects := collects_collect hs ha hsorted
    constructor
    · intro h
      exact h.unique hcollects
    · rintro rfl
      exact hcollects
  · have has' : ∀ a ∈ as', s.Covers a := fun a ha => has a (hperm.mem_iff.mpr ha)
    have hclosure : s.IsClosure as (as'.foldl s.collect ∅) :=
      ((hapart.mono hperm.symm.subset).isClosure hs has').perm hperm.symm
    refine ⟨hclosure, fun k => ?_⟩
    rw [hclosure.mem_texts_iff]
    constructor
    · rintro ⟨b, ⟨a, ha, hab⟩, rfl⟩
      have hself := hone a (has a ha) (hapart.mono (by simpa using ha))
      exact ⟨a, ha, hself.mem_texts_iff.mpr ⟨b, ⟨a, by simp, hab⟩, rfl⟩⟩
    · rintro ⟨a, ha, hk⟩
      have hself := hone a (has a ha) (hapart.mono (by simpa using ha))
      obtain ⟨b, hb, rfl⟩ := hself.mem_texts_iff.mp hk
      exact ⟨b, hb.mono (by simpa using ha), rfl⟩

end Store

/-! ## A tree -/

/-- The handle of the nodes of a tree. -/
def nodeRef : DictRef := ⟨0, "NodeTypeDef"⟩

/-- The handle of the trees. -/
def treeRef : DictRef := ⟨1, "TreeTypeDef"⟩

/-- The dictionaries of a tree: a node has a value and other nodes and knows its tree, and
the tree has a node. -/
def treeStore : Store :=
  let s : Store := ((∅ : Store).add { name := "NodeTypeDef" }).2
  let s := (s.add { name := "TreeTypeDef" }).2
  let s := s.addField nodeRef ⟨"Value", .int, true⟩
  let s := s.addField nodeRef ⟨"Children", .listOf (.dict nodeRef), false⟩
  let s := s.addField nodeRef ⟨"Home", .dict treeRef, true⟩
  s.addField treeRef ⟨"Root", .dict nodeRef, true⟩

theorem holds_nodeRef : treeStore.Holds nodeRef := ⟨_, rfl, rfl⟩

theorem holds_treeRef : treeStore.Holds treeRef := ⟨_, rfl, rfl⟩

theorem wellFormed_treeStore : treeStore.WellFormed := by
  apply Store.WellFormed.addField
  · apply Store.WellFormed.addField
    · apply Store.WellFormed.addField
      · apply Store.WellFormed.addField
        · exact (Store.wellFormed_empty.add _).add _
        · exact Store.covers_scalar _ _
      · simp only [TypeExpr.listOf, Store.covers_subscript, List.mem_singleton, forall_eq,
          Store.covers_dict]
        exact ⟨_, rfl, rfl⟩
    · exact Store.covers_dict.mpr ⟨_, rfl, rfl⟩
  · exact Store.covers_dict.mpr ⟨_, rfl, rfl⟩

theorem ledTo_treeStore {b : TypeExpr}
    (h : treeStore.LedTo [.dict nodeRef, .dict treeRef] b) :
    b = .int ∨ b = .dict nodeRef ∨ b = .listOf (.dict nodeRef) ∨ b = .dict treeRef := by
  obtain ⟨a, ha, hab⟩ := h
  induction hab with
  | refl =>
      rcases List.mem_pair.mp ha with rfl | rfl <;> simp
  | tail _ hstep ih =>
      cases hstep with
      | arg hb =>
          rcases ih with h | h | h | h
          · cases h
          · cases h
          · obtain ⟨-, rfl⟩ := TypeExpr.subscript.inj h
            obtain rfl := List.mem_singleton.mp hb
            simp
          · cases h
      | @field r f hf =>
          have hnode : (treeStore.get nodeRef).fields = [⟨"Value", .int, true⟩,
            ⟨"Children", .listOf (.dict nodeRef), false⟩, ⟨"Home", .dict treeRef, true⟩] := rfl
          have htree : (treeStore.get treeRef).fields = [⟨"Root", .dict nodeRef, true⟩] := rfl
          rcases ih with h | h | h | h
          · cases h
          · obtain rfl := TypeExpr.dict.inj h
            simp only [hnode, List.mem_cons, List.not_mem_nil, or_false] at hf
            rcases hf with rfl | rfl | rfl <;> simp
          · cases h
          · obtain rfl := TypeExpr.dict.inj h
            simp only [htree, List.mem_singleton] at hf
            simp [hf]

theorem toldApart_treeStore : treeStore.ToldApart [.dict nodeRef, .dict treeRef] := by
  intro r b hr hb hsame
  have hr : r = nodeRef ∨ r = treeRef := by
    simpa [TypeExpr.int, TypeExpr.listOf] using ledTo_treeStore hr
  rcases hr with rfl | rfl <;> rcases ledTo_treeStore hb with rfl | rfl | rfl | rfl <;>
    revert hsame <;> decide

/-- The search from a node, which leads back to itself in two ways, ends; and node and tree
are found in either order. -/
theorem treeStore_closes :
    treeStore.WellFormed ∧ treeStore.Covers (.dict nodeRef) ∧
      treeStore.ToldApart [.dict nodeRef, .dict treeRef] ∧
      treeStore.Collects ∅ (.dict nodeRef) (treeStore.collect ∅ (.dict nodeRef)) ∧
      treeStore.IsClosure [.dict nodeRef] (treeStore.collect ∅ (.dict nodeRef)) ∧
      treeStore.IsClosure [.dict nodeRef, .dict treeRef]
        ([.dict treeRef, .dict nodeRef].foldl treeStore.collect ∅) := by
  have hs := wellFormed_treeStore
  have hnode : treeStore.Covers (.dict nodeRef) := Store.covers_dict.mpr holds_nodeRef
  have htree : treeStore.Covers (.dict treeRef) := Store.covers_dict.mpr holds_treeRef
  have hboth : ∀ a ∈ [TypeExpr.dict nodeRef, .dict treeRef], treeStore.Covers a := by
    simp [hnode, htree, -Store.covers_dict]
  have hapart := toldApart_treeStore
  obtain ⟨hends, hone, hall⟩ := Store.collect_closes treeStore hs
  refine ⟨hs, hnode, hapart, ?_, ?_, ?_⟩
  · exact (hends ∅ _ _ KeyedSet.sorted_empty hnode).mpr rfl
  · exact hone _ hnode (hapart.mono (by simp))
  · exact (hall _ _ hboth hapart (.swap _ _ _)).1

end ServiceStubs
