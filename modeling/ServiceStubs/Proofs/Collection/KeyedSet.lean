import Mathlib.Data.List.Nodup
import Mathlib.Order.Lattice
import ServiceStubs.Collection.KeyedSet

/-!
# Elements and keys of sets

A set gains elements only by insertion, and loses none.  An insertion makes sure
that its key is there, with the new element or with an old one.  The keys stay in
strictly increasing order when keys can always be compared.

## Main definitions

* `KeyedSet.keys` — the keys in order.
* `KeyedSet.KeyedBy` — each element stands under the key that a function gives it.
* `KeyedSet.sorted_insert`, `KeyedSet.sorted_union` — the keys increase strictly.
-/

namespace ServiceStubs.KeyedSet

section Elements

variable {κ α : Type} {s t : KeyedSet κ α} {k k' : κ} {a b : α}

/-! ## Elements and keys -/

/-- The keys in order. -/
def keys (s : KeyedSet κ α) : List κ :=
  s.entries.map Prod.fst

@[simp] theorem toList_empty : (∅ : KeyedSet κ α).toList = [] := rfl
@[simp] theorem keys_empty : (∅ : KeyedSet κ α).keys = [] := rfl

theorem mem_toList_iff : a ∈ s.toList ↔ ∃ k, (k, a) ∈ s.entries := by
  simp [toList]

theorem mem_keys_iff : k ∈ s.keys ↔ ∃ a, (k, a) ∈ s.entries := by
  simp [keys]

theorem contains_iff [DecidableEq κ] : s.contains k ↔ k ∈ s.keys := by
  simp [contains, keys]

theorem mem_toList_filter {p : α → Bool} : a ∈ (s.filter p).toList ↔ a ∈ s.toList ∧ p a := by
  simp only [mem_toList_iff, filter, List.mem_filter]
  constructor
  · rintro ⟨k, h, hp⟩
    exact ⟨⟨k, h⟩, hp⟩
  · rintro ⟨⟨k, h⟩, hp⟩
    exact ⟨k, h, hp⟩

/-- Each element stands under the key that the function gives it. -/
def KeyedBy (f : α → κ) (s : KeyedSet κ α) : Prop :=
  ∀ e ∈ s.entries, e.1 = f e.2

variable {f : α → κ}

theorem KeyedBy.empty : KeyedBy f (∅ : KeyedSet κ α) := nofun

/-- The keys are those of the elements. -/
theorem KeyedBy.mem_keys (h : s.KeyedBy f) : k ∈ s.keys ↔ ∃ a ∈ s.toList, f a = k := by
  simp only [mem_keys_iff, mem_toList_iff]
  constructor
  · rintro ⟨a, ha⟩
    exact ⟨a, ⟨k, ha⟩, (h _ ha).symm⟩
  · rintro ⟨a, ⟨k', ha⟩, rfl⟩
    exact ⟨a, h _ ha ▸ ha⟩

/-! ## Insertion -/

variable [LT κ] [DecidableLT κ] [DecidableEq κ] {e : κ × α} {es : List (κ × α)}

theorem mem_insertEntry (h : e ∈ insertEntry k a es) : e = (k, a) ∨ e ∈ es := by
  induction es with
  | nil => exact .inl (List.mem_singleton.mp h)
  | cons e' es ih =>
      rw [insertEntry] at h
      split at h
      · exact (List.mem_cons.mp h)
      · split at h
        · exact .inr h
        · rcases List.mem_cons.mp h with h | h
          · exact .inr (h ▸ List.mem_cons_self)
          · exact (ih h).imp id (List.mem_cons_of_mem _)

theorem mem_insertEntry_of_mem (h : e ∈ es) : e ∈ insertEntry k a es := by
  induction es with
  | nil => nomatch h
  | cons e' es ih =>
      rw [insertEntry]
      split
      · exact List.mem_cons_of_mem _ h
      · split
        · exact h
        · rcases List.mem_cons.mp h with h | h
          · exact h ▸ List.mem_cons_self
          · exact List.mem_cons_of_mem _ (ih h)

/-- The key is there afterwards, with the new element unless it was there
before. -/
theorem self_mem_insertEntry (k : κ) (a : α) (es : List (κ × α)) :
    (k, a) ∈ insertEntry k a es ∨ ∃ b, (k, b) ∈ es := by
  induction es with
  | nil => exact .inl List.mem_cons_self
  | cons e es ih =>
      rw [insertEntry]
      split
      · exact .inl List.mem_cons_self
      · split
        · next h => exact .inr ⟨e.2, h ▸ List.mem_cons_self⟩
        · rcases ih with ih | ⟨b, ih⟩
          · exact .inl (List.mem_cons_of_mem _ ih)
          · exact .inr ⟨b, List.mem_cons_of_mem _ ih⟩

theorem mem_toList_insert (h : b ∈ (s.insert k a).toList) : b = a ∨ b ∈ s.toList := by
  obtain ⟨k', h⟩ := mem_toList_iff.mp h
  rcases mem_insertEntry h with h | h
  · exact .inl (Prod.mk.inj h).2
  · exact .inr (mem_toList_iff.mpr ⟨k', h⟩)

@[simp] theorem mem_keys_insert : k' ∈ (s.insert k a).keys ↔ k' = k ∨ k' ∈ s.keys := by
  simp only [mem_keys_iff]
  constructor
  · rintro ⟨b, h⟩
    rcases mem_insertEntry h with h | h
    · exact .inl (Prod.mk.inj h).1
    · exact .inr ⟨b, h⟩
  · rintro (rfl | ⟨b, h⟩)
    · rcases self_mem_insertEntry k' a s.entries with hmem | ⟨b, hold⟩
      · exact ⟨a, hmem⟩
      · exact ⟨b, mem_insertEntry_of_mem hold⟩
    · exact ⟨b, mem_insertEntry_of_mem h⟩

theorem KeyedBy.insert (h : s.KeyedBy f) (a : α) : (s.insert (f a) a).KeyedBy f := by
  intro e he
  rcases mem_insertEntry he with rfl | he
  · rfl
  · exact h e he

/-! ## Unions -/

/-- The union inserts the elements of the second set, one after the other. -/
theorem union_induction {P : KeyedSet κ α → Prop} (hs : P s)
    (hstep : ∀ u, P u → ∀ e ∈ t.entries, P (u.insert e.1 e.2)) : P (s.union t) := by
  suffices h : ∀ es ⊆ t.entries, ∀ u, P u → P (es.foldl (fun u e => u.insert e.1 e.2) u) from
    h t.entries (List.Subset.refl _) s hs
  intro es
  induction es with
  | nil => exact fun _ u hu => hu
  | cons e es ih =>
      intro hes u hu
      exact ih (fun x hx => hes (List.mem_cons_of_mem _ hx)) _
        (hstep u hu e (hes List.mem_cons_self))

theorem mem_toList_union (h : a ∈ (s.union t).toList) : a ∈ s.toList ∨ a ∈ t.toList := by
  revert a
  refine union_induction (P := fun u => ∀ {a}, a ∈ u.toList → a ∈ s.toList ∨ a ∈ t.toList) .inl ?_
  intro u hu e he a ha
  rcases mem_toList_insert ha with rfl | ha
  · exact .inr (mem_toList_iff.mpr ⟨e.1, he⟩)
  · exact hu ha

@[simp] theorem mem_keys_union : k ∈ (s.union t).keys ↔ k ∈ s.keys ∨ k ∈ t.keys := by
  suffices h : ∀ (es : List (κ × α)) (u : KeyedSet κ α),
      k ∈ (es.foldl (fun u e => u.insert e.1 e.2) u).keys ↔ k ∈ u.keys ∨ k ∈ es.map Prod.fst from
    h t.entries s
  intro es
  induction es with
  | nil => simp
  | cons e es ih =>
      intro u
      rw [List.foldl_cons, ih, mem_keys_insert, List.map_cons, List.mem_cons]
      constructor
      · rintro ((h | h) | h)
        · exact .inr (.inl h)
        · exact .inl h
        · exact .inr (.inr h)
      · rintro (h | h | h)
        · exact .inl (.inr h)
        · exact .inl (.inl h)
        · exact .inr h

theorem KeyedBy.union (hs : s.KeyedBy f) (ht : t.KeyedBy f) : (s.union t).KeyedBy f :=
  union_induction (P := KeyedBy f) hs fun u hu e he => by
    rw [ht e he]
    exact hu.insert e.2

end Elements

/-! ## Order -/

section Order

variable {κ α : Type} [LinearOrder κ] {s t : KeyedSet κ α} {k : κ} {a : α} {es : List (κ × α)}

theorem pairwise_insertEntry (h : es.Pairwise fun e e' => e.1 < e'.1) :
    (insertEntry k a es).Pairwise fun e e' => e.1 < e'.1 := by
  induction es with
  | nil => exact List.pairwise_singleton _ _
  | cons e es ih =>
      rw [List.pairwise_cons] at h
      rw [insertEntry]
      split
      · next hlt =>
          refine List.pairwise_cons.mpr ⟨?_, List.pairwise_cons.mpr h⟩
          intro e' he'
          rcases List.mem_cons.mp he' with rfl | he'
          · exact hlt
          · exact lt_trans hlt (h.1 e' he')
      · next hge =>
          split
          · exact List.pairwise_cons.mpr h
          · next hne =>
              have hlt : e.1 < k := lt_of_le_of_ne (not_lt.mp hge) (Ne.symm hne)
              refine List.pairwise_cons.mpr ⟨?_, ih h.2⟩
              intro e' he'
              rcases mem_insertEntry he' with rfl | he'
              · exact hlt
              · exact h.1 e' he'

theorem insertEntry_of_mem (h : es.Pairwise fun e e' => e.1 < e'.1) (hk : k ∈ es.map Prod.fst) :
    insertEntry k a es = es := by
  induction es with
  | nil => nomatch hk
  | cons e es ih =>
      rw [List.pairwise_cons] at h
      rw [insertEntry]
      by_cases heq : k = e.1
      · simp [heq]
      · have htail : k ∈ es.map Prod.fst := by simpa [heq] using hk
        obtain ⟨e', he', rfl⟩ := List.mem_map.mp htail
        simp [not_lt_of_gt (h.1 e' he'), heq, ih h.2 htail]

/-- The keys increase strictly. -/
def Sorted (s : KeyedSet κ α) : Prop :=
  s.entries.Pairwise fun e e' => e.1 < e'.1

theorem sorted_empty : Sorted (∅ : KeyedSet κ α) := List.Pairwise.nil

/-- **Insertion keeps the order.** -/
theorem sorted_insert (h : s.Sorted) : (s.insert k a).Sorted :=
  pairwise_insertEntry h

/-- Insertion under a key that is there changes nothing. -/
theorem insert_of_mem_keys (h : s.Sorted) (hk : k ∈ s.keys) (a : α) : s.insert k a = s := by
  rw [insert, insertEntry_of_mem h hk]

theorem sorted_union (h : s.Sorted) : (s.union t).Sorted :=
  union_induction (P := Sorted) h fun _ hu _ _ => sorted_insert hu

variable {f : α → κ} {b : α}

/-- Elements that stand under their keys are in the order of their keys. -/
theorem KeyedBy.pairwise (hkeyed : s.KeyedBy f) (h : s.Sorted) :
    s.toList.Pairwise fun a b => f a < f b := by
  rw [toList, List.pairwise_map]
  apply List.Pairwise.imp_of_mem _ h
  intro e e' he he' hlt
  rwa [hkeyed e he, hkeyed e' he'] at hlt

/-- The key tells the element. -/
theorem KeyedBy.eq_of_key (hkeyed : s.KeyedBy f) (h : s.Sorted) (ha : a ∈ s.toList)
    (hb : b ∈ s.toList) (heq : f a = f b) : a = b := by
  have hnodup : (s.toList.map f).Nodup := by
    rw [List.Nodup, List.pairwise_map]
    exact (hkeyed.pairwise h).imp fun hlt => ne_of_lt hlt
  exact List.inj_on_of_nodup_map hnodup ha hb heq

end Order

end ServiceStubs.KeyedSet
