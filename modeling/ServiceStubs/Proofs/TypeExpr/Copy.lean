import ServiceStubs.Proofs.TypeExpr.Mutation

/-!
# What a copy shares

A copy of a typed dictionary is a dictionary of its own, to which the original does not
lead; a copy of any other annotation is the annotation itself, with parameters of its own.
In both cases the dictionaries inside are those of the original.  A field that is added to
one of them shows on both sides, and nothing else does, so a copy is independent of its
original just as far as they lead to no common dictionary.

## Main definitions

* `Store.Separates` — what changes through one annotation do to another one.
* `Store.copy_separates` — copies and originals, and what they share.
* `boxes_share_box` — a copy of a list of dictionaries that is not independent.
-/

namespace ServiceStubs

namespace Store

variable {s : Store} {a b : TypeExpr} {r : DictRef}

/-! ## A new dictionary -/

theorem Covers.add (h : s.Covers b) (d : TypedDict) : (s.add d).2.Covers b :=
  fun r hr => (h r hr).add d

/-- A new dictionary does not show. -/
theorem unchanged_add (hs : s.WellFormed) (hb : s.Covers b) (d : TypedDict) :
    s.Unchanged (s.add d).2 b := by
  have hget : ∀ r, s.LeadsTo b (.dict r) → (s.add d).2.get r = s.get r :=
    fun r hr => get_add_of_inUse (holds_of_leadsTo hs hb hr).inUse d
  have hfields : s.SameFields (s.add d).2 b := fun r hr => congrArg TypedDict.fields (hget r hr)
  refine hfields.unchanged hs hb ?_ fun r hr => congrArg TypedDict.name (hget r hr)
  rw [size_add]
  exact Nat.le_succ _

/-! ## Copies -/

/-- Changes through `a` show in `b` by fields of dictionaries that `b` leads to, and by nothing
else; these dictionaries keep the names that `b` is written with; docstrings stay where none is
given; and if `a` leads to no dictionary of `b`, and what is brought in does not either, all of
`b` stays. -/
structure Separates (s : Store) (a b : TypeExpr) : Prop where
  name : ∀ ms a' s', Mutated a s ms a' s' → ∀ r, s.LeadsTo b (.dict r) → (s'.get r).name = r.name
  unchanged_iff : ∀ ms a' s', Mutated a s ms a' s' →
    (s.Unchanged s' b ↔ ∀ ref f, .addField ref f ∈ ms → ¬ s.Sees b ref)
  docstring : ∀ ms a' s', Mutated a s ms a' s' → ∀ r, s.LeadsTo b (.dict r) →
    (∀ ref text, .setDocstring ref text ∈ ms → ref.id ≠ r.id) →
      (s'.get r).docstring = (s.get r).docstring
  apart : (∀ ref, s.Sees a ref → ¬ s.Sees b ref) → ∀ ms a' s', Mutated a s ms a' s' →
    (∀ m ∈ ms, ∀ x ∈ m.brought, ∀ ref, s.Sees x ref → ¬ s.Sees b ref) → s.Unchanged s' b

theorem separates (hs : s.WellFormed) (hb : s.Covers b) : s.Separates a b where
  name _ _ _ h _ hr :=
    have hholds := holds_of_leadsTo hs hb hr
    (h.get_eq hholds.inUse).1.trans hholds.name
  unchanged_iff _ _ _ h := h.unchanged_iff hs hb
  docstring _ _ _ h _ hr := h.docstring_eq (holds_of_leadsTo hs hb hr).inUse
  apart hapart _ _ _ h hms := h.unchanged_of_apart hs hb hapart hms

/-- The copy of a dictionary shares with it what its fields lead to. -/
theorem sees_add_get (hs : s.WellFormed) (r ref : DictRef) :
    (s.add (s.get r)).2.Sees (.dict (s.add (s.get r)).1) ref ↔
      ref.id = (s.add (s.get r)).1.id ∨ ∃ f ∈ (s.get r).fields, s.Sees f.type ref := by
  have hfield : ∀ f ∈ (s.get r).fields, ∀ b, (s.add (s.get r)).2.LeadsTo f.type b ↔
      s.LeadsTo f.type b := fun f hf => (unchanged_add hs (hs r f hf) _).leadsTo
  constructor
  · rintro ⟨r', hr', hid⟩
    rcases hr'.cases_head with heq | ⟨b, hstep, hb⟩
    · exact .inl (TypeExpr.dict.inj heq ▸ hid.symm)
    · cases hstep with
      | @field _ f hf =>
          rw [get_add] at hf
          exact .inr ⟨f, hf, r', (hfield f hf _).mp hb, hid⟩
  · rintro (hid | ⟨f, hf, r', hr', hid⟩)
    · exact ⟨_, .refl, hid.symm⟩
    · refine ⟨r', .head (.field ?_) ((hfield f hf _).mpr hr'), hid⟩
      rwa [get_add]

/-- **A copy is independent of its original but for the dictionaries inside.**  It is written
like the original, and copying does not show in the original.  Changes through either of
them show in the other one exactly by fields that are added to a dictionary which the other
one leads to.  The original does not lead to the copy of a dictionary, which shares with it
what its fields lead to; any other copy shares all. -/
theorem copy_separates (s : Store) (t : TypeExpr) (hs : s.WellFormed) (ht : s.Covers t) :
    (s.copy t).1.text = t.text ∧
      s.Unchanged (s.copy t).2 t ∧
      (s.copy t).2.Separates (s.copy t).1 t ∧
      (s.copy t).2.Separates t (s.copy t).1 ∧
      (∀ r, t = .dict r → ∃ r', (s.copy t).1 = .dict r' ∧ (s.copy t).2.get r' = s.get r ∧
        ¬ (s.copy t).2.Sees t r' ∧
        ∀ ref, (s.copy t).2.Sees (.dict r') ref ↔
          ref.id = r'.id ∨ ∃ f ∈ (s.get r).fields, s.Sees f.type ref) ∧
      ((∀ r, t ≠ .dict r) → s.copy t = (t, s)) := by
  by_cases hdict : ∃ r, t = .dict r
  · obtain ⟨r, rfl⟩ := hdict
    have hr : s.Holds r := covers_dict.mp ht
    have hafter : (s.add (s.get r)).2.WellFormed := hs.addDict (hs r)
    have hcopy : (s.add (s.get r)).2.Holds (s.add (s.get r)).1 :=
      ⟨s.get r, by simp [Store.add], rfl⟩
    have hsame : s.Unchanged (s.add (s.get r)).2 (.dict r) := unchanged_add hs ht _
    refine ⟨hr.name, hsame, separates hafter (ht.add _),
      separates hafter (covers_dict.mpr hcopy), ?_, fun h => absurd rfl (h r)⟩
    rintro _ ⟨⟩
    refine ⟨_, rfl, get_add s _, ?_, sees_add_get hs r⟩
    rintro ⟨r', hr', hid⟩
    have huse : s.InUse r' := (holds_of_leadsTo hs ht ((hsame.leadsTo _).mp hr')).inUse
    rw [InUse, hid] at huse
    exact Nat.lt_irrefl _ huse
  · have hcopy : s.copy t = (t, s) := by
      cases t with
      | dict r => exact absurd ⟨r, rfl⟩ hdict
      | _ => rfl
    have hsame : s.Unchanged s t :=
      SameFields.unchanged (fun _ _ => rfl) hs ht le_rfl fun _ _ => rfl
    rw [hcopy]
    exact ⟨rfl, hsame, separates hs ht, separates hs ht,
      fun r h => absurd ⟨r, h⟩ hdict, fun _ => rfl⟩

end Store

/-- A node of a tree and its copy: a field that is added to the copy does not show in the
node, but the children of both are nodes, so a field that is added to the node shows in the
copy. -/
theorem copy_of_node : treeStore.WellFormed ∧ treeStore.Covers (.dict nodeRef) ∧
    ∃ r' s', treeStore.copy (.dict nodeRef) = (.dict r', s') ∧ ∀ f,
      s'.Unchanged (s'.addField r' f) (.dict nodeRef) ∧
        ¬ s'.Unchanged (s'.addField nodeRef f) (.dict r') := by
  have hs := wellFormed_treeStore
  have hnode : treeStore.Covers (.dict nodeRef) := Store.covers_dict.mpr holds_nodeRef
  obtain ⟨-, -, hcopy, horiginal, hdict, -⟩ :=
    Store.copy_separates treeStore (.dict nodeRef) hs hnode
  obtain ⟨r', hr', -, hnot, hsees⟩ := hdict nodeRef rfl
  rw [hr'] at hcopy horiginal
  have hadd : ∀ s (ref : DictRef) (f : Field),
      Mutated (.dict ref) s [.addField ref f] (.dict ref) (s.addField ref f) :=
    fun _ _ _ => .cons (fun ref' href => Option.some.inj href ▸ .refl) .nil
  refine ⟨hs, hnode, r', _, Prod.ext hr' rfl, fun f => ⟨?_, fun hsame => ?_⟩⟩
  · refine (hcopy.unchanged_iff _ _ _ (hadd _ r' f)).mpr fun ref g hg => ?_
    obtain ⟨rfl, -⟩ := Mutation.addField.inj (List.mem_singleton.mp hg)
    exact hnot
  · have hchildren : treeStore.Sees (.listOf (.dict nodeRef)) nodeRef :=
      ⟨nodeRef, .single (.arg List.mem_cons_self), rfl⟩
    have hshared := (hsees nodeRef).mpr <| .inr
      ⟨⟨"Children", .listOf (.dict nodeRef), false⟩, .tail _ (.head _), hchildren⟩
    exact (horiginal.unchanged_iff _ _ _ (hadd _ nodeRef f)).mp hsame nodeRef f
      List.mem_cons_self hshared

/-- The handle of a box. -/
def boxRef : DictRef := ⟨0, "BoxTypeDef"⟩

/-- A dictionary for boxes, so far without fields. -/
def boxStore : Store := ((∅ : Store).add { name := "BoxTypeDef" }).2

/-- What a box gets later. -/
def boxTime : Field := ⟨"When", .datetime, true⟩

/-- **A copy of a list of boxes is not independent.**  The box inside is the one of the list:
a field that is added to it through the copy changes the definition that the list leads to,
and brings its type into the closure of the list; and the same the other way round. -/
theorem boxes_share_box :
    let boxes : TypeExpr := .listOf (.dict boxRef)
    let copied := (boxStore.copy boxes).1
    let s := (boxStore.copy boxes).2
    let s' := s.addField boxRef boxTime
    Mutated copied s [.addField boxRef boxTime] copied s' ∧
      Mutated boxes s [.addField boxRef boxTime] boxes s' ∧
      ((s.collect ∅ boxes).toList.map TypeExpr.text = ["BoxTypeDef", "List[BoxTypeDef]"] ∧
        (s'.collect ∅ boxes).toList.map TypeExpr.text =
          ["BoxTypeDef", "List[BoxTypeDef]", "datetime"]) ∧
      ((s.get boxRef).definition = "class BoxTypeDef(TypedDict):\n    pass" ∧
        (s'.get boxRef).definition = "class BoxTypeDef(TypedDict):\n    When: datetime") ∧
      ¬ s.Unchanged s' boxes ∧ ¬ s.Unchanged s' copied := by
  have hleads : boxStore.LeadsTo (.listOf (.dict boxRef)) (.dict boxRef) :=
    .single (.arg List.mem_cons_self)
  have hmutated : Mutated (.listOf (.dict boxRef)) boxStore [.addField boxRef boxTime]
      (.listOf (.dict boxRef)) (boxStore.addField boxRef boxTime) :=
    .cons (fun ref href => Option.some.inj href ▸ hleads) .nil
  have hshows : ¬ boxStore.Unchanged (boxStore.addField boxRef boxTime)
      (.listOf (.dict boxRef)) := by
    intro hsame
    nomatch hsame.fields boxRef hleads
  refine ⟨hmutated, hmutated, ⟨?_, ?_⟩, ⟨?_, ?_⟩, hshows, hshows⟩ <;> decide

end ServiceStubs
