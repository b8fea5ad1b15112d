import ServiceStubs.Collection.OrderedMap

/-!
# Ordered maps by their entries

The value of a name is the one it has among the entries, since names are
distinct.  What insertion, removal, renaming and a change of values do to the values
of names, to the list of names and to the list of entries.

## Main definitions

* `OrderedMap.get?_eq_some_iff` — values and entries.
* `OrderedMap.get?_mapValues`, `OrderedMap.get?_insert` — what changes do to the values.
* `OrderedMap.mem_keys_erase`, `OrderedMap.mem_keys_rename` — what is left of the names.
* `OrderedMap.entries_erase`, `OrderedMap.keys_rename` — the places of what is left.
* `OrderedMap.entries_insert_of_not_mem` — a new name comes last.
* `OrderedMap.ofList_entries`, `OrderedMap.mem_of_mem_values_ofList` — the map of a list.
-/

namespace ServiceStubs.OrderedMap

variable {α β γ : Type}

/-! ## Values of names -/

@[simp] theorem get?_empty (k : String) : (∅ : OrderedMap α).get? k = none := rfl

theorem mem_keys_of_mem {m : OrderedMap α} {e : String × α} (h : e ∈ m.entries) : e.1 ∈ m.keys :=
  List.mem_map_of_mem h

/-- A name has the value that stands beside it. -/
theorem get?_eq_some_iff {m : OrderedMap α} {k : String} {v : α} :
    m.get? k = some v ↔ (k, v) ∈ m.entries := by
  obtain ⟨entries, nodup⟩ := m
  simp only [get?]
  induction entries with
  | nil => simp
  | cons e es ih =>
      obtain ⟨k', v'⟩ := e
      rw [List.map_cons, List.nodup_cons] at nodup
      rw [List.lookup_cons]
      by_cases hk : k = k'
      · subst hk
        have hfresh : (k, v) ∉ es := fun h => nodup.1 (List.mem_map.mpr ⟨_, h, rfl⟩)
        simp [hfresh, eq_comm]
      · have hbeq : (k == k') = false := by simpa using hk
        rw [hbeq]
        simpa [hk] using ih nodup.2

theorem get?_eq_none_iff {m : OrderedMap α} {k : String} : m.get? k = none ↔ k ∉ m.keys := by
  rw [Option.eq_none_iff_forall_ne_some]
  simp only [ne_eq, get?_eq_some_iff, keys, List.mem_map, not_exists, not_and]
  constructor
  · rintro h ⟨k', v⟩ he rfl
    exact h v he
  · intro h v he
    exact h _ he rfl

theorem isSome_get?_iff {m : OrderedMap α} {k : String} : (m.get? k).isSome ↔ k ∈ m.keys := by
  cases h : m.get? k with
  | none => simpa using get?_eq_none_iff.mp h
  | some v => simpa using mem_keys_of_mem (get?_eq_some_iff.mp h)

@[simp] theorem contains_iff {m : OrderedMap α} {k : String} : m.contains k ↔ k ∈ m.keys := by
  simp [contains]

theorem mem_keys_of_get? {m : OrderedMap α} {k : String} {v : α} (h : m.get? k = some v) :
    k ∈ m.keys :=
  isSome_get?_iff.mp (by simp [h])

theorem mem_values_of_get? {m : OrderedMap α} {k : String} {v : α} (h : m.get? k = some v) :
    v ∈ m.values :=
  List.mem_map.mpr ⟨_, get?_eq_some_iff.mp h, rfl⟩

/-! ## Changes of values -/

/-- Maps with the same entries are equal. -/
theorem eq_of_entries_eq {m n : OrderedMap α} (h : m.entries = n.entries) : m = n := by
  cases m
  cases n
  subst h
  rfl

theorem get?_mapValues (m : OrderedMap α) (f : String → α → β) (k : String) :
    (m.mapValues f).get? k = (m.get? k).map (f k) := by
  obtain ⟨entries, nodup⟩ := m
  simp only [get?, mapValues]
  clear nodup
  induction entries with
  | nil => rfl
  | cons e es ih =>
      rw [List.map_cons, List.lookup_cons, List.lookup_cons, ih]
      by_cases hk : k = e.1
      · simp [hk]
      · have hbeq : (k == e.1) = false := by simpa using hk
        simp [hbeq]

@[simp] theorem keys_mapValues (m : OrderedMap α) (f : String → α → β) :
    (m.mapValues f).keys = m.keys := by
  simp [keys, mapValues]

theorem mapValues_mapValues (m : OrderedMap α) (f : String → α → β) (g : String → β → γ) :
    (m.mapValues f).mapValues g = m.mapValues fun k v => g k (f k v) :=
  eq_of_entries_eq List.map_map

theorem mapValues_congr {m : OrderedMap α} {f g : String → α → β}
    (h : ∀ k v, m.get? k = some v → f k v = g k v) : m.mapValues f = m.mapValues g := by
  refine eq_of_entries_eq (List.map_congr_left fun e he => ?_)
  exact congrArg (e.1, ·) (h e.1 e.2 (get?_eq_some_iff.mpr he))

@[simp] theorem mapValues_self (m : OrderedMap α) : (m.mapValues fun _ v => v) = m :=
  eq_of_entries_eq (List.map_id _)

/-- Values that stay the same make no other map. -/
theorem mapValues_eq_self {m : OrderedMap α} {f : String → α → α}
    (h : ∀ k v, m.get? k = some v → f k v = v) : m.mapValues f = m :=
  (mapValues_congr h).trans m.mapValues_self

theorem get?_update (m : OrderedMap α) (k k' : String) (f : α → α) :
    (m.update k f).get? k' = (m.get? k').map fun v => if k' = k then f v else v :=
  get?_mapValues m _ k'

/-! ## Insertion -/

/-- A new name comes after the others. -/
theorem entries_insert_of_not_mem {m : OrderedMap α} {k : String} (h : k ∉ m.keys) (v : α) :
    (m.insert k v).entries = m.entries ++ [(k, v)] := by
  simp only [keys] at h
  rw [insert, dif_neg h]

/-- Insertion changes the value of one name. -/
theorem get?_insert (m : OrderedMap α) (k k' : String) (v : α) :
    (m.insert k v).get? k' = if k' = k then some v else m.get? k' := by
  by_cases h : k ∈ m.keys
  · have hm : k ∈ m.entries.map Prod.fst := h
    rw [insert, dif_pos hm, get?_update]
    by_cases hk : k' = k
    · subst hk
      obtain ⟨w, hw⟩ := Option.isSome_iff_exists.mp (isSome_get?_iff.mpr h)
      simp [hw]
    · simp [hk]
  · rw [get?, entries_insert_of_not_mem h, List.lookup_append]
    by_cases hk : k' = k
    · subst hk
      have hnone : m.entries.lookup k' = none := get?_eq_none_iff.mpr h
      simp [hnone]
    · have hbeq : (k' == k) = false := by simpa using hk
      simp [get?, hk, List.lookup_cons, hbeq]

/-! ## Removal and renaming -/

theorem mem_keys_erase {m : OrderedMap α} {k k' : String} :
    k ∈ (m.erase k').keys ↔ k ∈ m.keys ∧ k ≠ k' := by
  simp only [keys, erase, List.mem_map, List.mem_filter, decide_eq_true_eq]
  constructor
  · rintro ⟨e, ⟨he, hne⟩, rfl⟩
    exact ⟨⟨e, he, rfl⟩, hne⟩
  · rintro ⟨⟨e, he, rfl⟩, hne⟩
    exact ⟨e, ⟨he, hne⟩, rfl⟩

/-- The entries whose names are kept. -/
def keep (m : OrderedMap α) (p : String → Bool) : OrderedMap α where
  entries := m.entries.filter fun e => p e.1
  nodup := m.nodup.sublist (List.filter_sublist.map Prod.fst)

theorem get?_keep (m : OrderedMap α) (p : String → Bool) (k : String) :
    (m.keep p).get? k = if p k then m.get? k else none := by
  refine Option.ext fun v => ?_
  by_cases hk : p k
  · simp [hk, get?_eq_some_iff, keep]
  · simp [hk, get?_eq_some_iff, keep]

/-- A name that is there gives way to one that is not. -/
theorem mem_keys_rename {m : OrderedMap α} {old new k : String} (hold : old ∈ m.keys)
    (hnew : new ∉ m.keys) :
    k ∈ (m.rename old new).keys ↔ (k ∈ m.keys ∧ k ≠ old) ∨ k = new := by
  rw [rename, dif_neg (by simpa [keys] using hnew)]
  simp only [keys, List.map_map, List.mem_map, Function.comp_apply] at hold ⊢
  obtain ⟨e₀, he₀, rfl⟩ := hold
  constructor
  · rintro ⟨e, he, rfl⟩
    split
    · exact .inr rfl
    · next hne => exact .inl ⟨⟨e, he, rfl⟩, hne⟩
  · rintro (⟨⟨e, he, rfl⟩, hne⟩ | rfl)
    · exact ⟨e, he, if_neg hne⟩
    · exact ⟨e₀, he₀, if_pos rfl⟩

theorem entries_foldl_insert (m : OrderedMap α) (es : List (String × α))
    (h : ((m.entries ++ es).map Prod.fst).Nodup) :
    (es.foldl (fun m (k, v) => m.insert k v) m).entries = m.entries ++ es := by
  induction es generalizing m with
  | nil => rw [List.foldl_nil, List.append_nil]
  | cons e es ih =>
      have hfresh : e.1 ∉ m.keys := by
        rw [List.map_append, List.nodup_append] at h
        exact fun hmem => h.2.2 e.1 hmem e.1 (by simp) rfl
      have hinsert := entries_insert_of_not_mem hfresh e.2
      have hcut : m.entries ++ e :: es = (m.insert e.1 e.2).entries ++ es := by
        rw [hinsert, List.append_assoc, List.singleton_append]
      rw [hcut] at h ⊢
      exact ih _ h

/-- A map is the map of its entries. -/
theorem ofList_entries (m : OrderedMap α) : ofList m.entries = m :=
  eq_of_entries_eq (entries_foldl_insert ∅ m.entries m.nodup)

theorem mem_values_insert {m : OrderedMap α} {k : String} {v w : α}
    (h : w ∈ (m.insert k v).values) : w = v ∨ w ∈ m.values := by
  obtain ⟨e, he, rfl⟩ := List.mem_map.mp h
  have hget := get?_eq_some_iff.mpr he
  rw [get?_insert] at hget
  split at hget
  · exact .inl (Option.some.inj hget).symm
  · exact .inr (mem_values_of_get? hget)

theorem mem_values_foldl_insert {m : OrderedMap α} {es : List (String × α)} {v : α}
    (h : v ∈ (es.foldl (fun m (k, v) => m.insert k v) m).values) :
    v ∈ m.values ∨ v ∈ es.map Prod.snd := by
  induction es generalizing m with
  | nil => exact .inl h
  | cons e es ih =>
      rcases ih h with h | h
      · rcases mem_values_insert h with rfl | h
        · exact .inr List.mem_cons_self
        · exact .inl h
      · exact .inr (List.mem_cons_of_mem _ h)

/-- The values of the map of a list stand in the list. -/
theorem mem_of_mem_values_ofList {es : List (String × α)} {v : α} (h : v ∈ (ofList es).values) :
    v ∈ es.map Prod.snd :=
  (mem_values_foldl_insert h).resolve_left List.not_mem_nil

end ServiceStubs.OrderedMap
