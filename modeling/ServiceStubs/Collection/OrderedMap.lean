/-!
# Ordered maps

A map from names to values that remembers the order in which its names were
first given.  That names are pairwise distinct is part of the type.

## Main definitions

* `OrderedMap` — the map, as its list of entries.
* `get?`, `contains`, `insert`, `erase`, `rename`, `update`, `ofList`.
* `sameEntries` — equality up to the order of the entries.
-/

namespace ServiceStubs

/-- A map from names to values that keeps the order of first insertion. -/
structure OrderedMap (α : Type) where
  entries : List (String × α)
  nodup : (entries.map Prod.fst).Nodup := by simp
  deriving DecidableEq

namespace OrderedMap

variable {α β : Type}

instance : EmptyCollection (OrderedMap α) := ⟨{ entries := [] }⟩

instance : Inhabited (OrderedMap α) := ⟨∅⟩

/-- The names, in order. -/
def keys (m : OrderedMap α) : List String :=
  m.entries.map Prod.fst

/-- The values, in the order of their names. -/
def values (m : OrderedMap α) : List α :=
  m.entries.map Prod.snd

/-- Whether the map has no entry. -/
def isEmpty (m : OrderedMap α) : Bool :=
  m.entries.isEmpty

/-- The number of entries. -/
def size (m : OrderedMap α) : Nat :=
  m.entries.length

/-- The value of a name. -/
def get? (m : OrderedMap α) (k : String) : Option α :=
  m.entries.lookup k

/-- Whether a name has a value. -/
def contains (m : OrderedMap α) (k : String) : Bool :=
  m.keys.contains k

/-! ## Changing values

What changes values and no names keeps the names distinct. -/

/-- Applies a function to every value. -/
def mapValues (f : String → α → β) (m : OrderedMap α) : OrderedMap β where
  entries := m.entries.map fun (k, v) => (k, f k v)
  nodup := by simpa [List.map_map, Function.comp_def] using m.nodup

/-- Applies a function to the value of one name, if it has one. -/
def update (m : OrderedMap α) (k : String) (f : α → α) : OrderedMap α :=
  m.mapValues fun k' v => if k' = k then f v else v

/-! ## Insertion -/

/-- Gives a name a value: at its place if it has one already, else at the
end. -/
def insert (m : OrderedMap α) (k : String) (v : α) : OrderedMap α :=
  if h : k ∈ m.entries.map Prod.fst then m.update k fun _ => v
  else
    { entries := m.entries ++ [(k, v)]
      nodup := by
        rw [List.map_append, List.nodup_append]
        refine ⟨m.nodup, by simp, ?_⟩
        intro a ha b hb
        simp only [List.map_cons, List.map_nil, List.mem_singleton] at hb
        exact fun e => h (hb ▸ e ▸ ha) }

/-- The map of a list of entries.  A name that is given again takes its last
value, at its first place. -/
def ofList (entries : List (String × α)) : OrderedMap α :=
  entries.foldl (fun m (k, v) => m.insert k v) ∅

/-! ## Removal and renaming -/

/-- Removes a name; the others keep their order. -/
def erase (m : OrderedMap α) (k : String) : OrderedMap α where
  entries := m.entries.filter (·.1 ≠ k)
  nodup := m.nodup.sublist (List.filter_sublist.map Prod.fst)

/-- Replaces the name `old` by `new`, at its place.  Does nothing when `new` is
already a name of the map. -/
def rename (m : OrderedMap α) (old new : String) : OrderedMap α :=
  if h : new ∈ m.entries.map Prod.fst then m
  else
    { entries := m.entries.map fun (k, v) => (if k = old then new else k, v)
      nodup := by
        have hk : ∀ l : List (String × α), new ∉ l.map Prod.fst → (l.map Prod.fst).Nodup →
            ((l.map fun (k, v) => (if k = old then new else k, v)).map Prod.fst).Nodup := by
          intro l
          induction l with
          | nil => simp
          | cons e l ih =>
            intro hn hd
            simp only [List.map_cons, List.nodup_cons, List.mem_cons, not_or] at hn hd ⊢
            refine ⟨?_, ih hn.2 hd.2⟩
            simp only [List.map_map, List.mem_map, Function.comp_apply, not_exists, not_and]
            intro x hx he
            by_cases h1 : x.1 = old <;> by_cases h2 : e.1 = old
            · exact hd.1 (h2 ▸ h1 ▸ List.mem_map_of_mem hx)
            · simp only [h1, h2, if_true, if_false] at he
              exact hn.1 he
            · simp only [h1, h2, if_true, if_false] at he
              exact hn.2 (he ▸ List.mem_map_of_mem hx)
            · simp only [h1, h2, if_false] at he
              exact hd.1 (he ▸ List.mem_map_of_mem hx)
        exact hk m.entries h m.nodup }

/-! ## Equality up to order -/

/-- Whether two maps have the same names with values that `same` takes for
equal, in whatever order. -/
def sameEntries (same : α → α → Bool) (m n : OrderedMap α) : Bool :=
  m.size == n.size && m.entries.all fun (k, v) => (n.get? k).any (same v)

end OrderedMap

end ServiceStubs
