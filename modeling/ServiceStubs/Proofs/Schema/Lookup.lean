import ServiceStubs.Proofs.Collection.OrderedMap
import ServiceStubs.Schema.Lookup

/-!
# Results of looking up

A look-up has a result exactly when the name is declared.

## Main definitions

* `OrderedMap.lookup_eq_ok_iff`, `OrderedMap.exists_lookup_iff` — when there is a
  result, and which.
* `Schema.exists_resource_iff` — resources.
-/

namespace ServiceStubs

namespace OrderedMap

variable {α : Type} {m : OrderedMap α} {service name : String} {kind : EntryKind} {a : α}

theorem lookup_eq_ok_iff : m.lookup service kind name = .ok a ↔ m.get? name = some a := by
  unfold lookup
  cases m.get? name with
  | none => exact ⟨nofun, nofun⟩
  | some b => simp

theorem lookup_eq_ok_iff_mem :
    m.lookup service kind name = .ok a ↔ (name, a) ∈ m.entries :=
  lookup_eq_ok_iff.trans get?_eq_some_iff

theorem exists_lookup_iff : (∃ a, m.lookup service kind name = .ok a) ↔ name ∈ m.keys := by
  simp only [lookup_eq_ok_iff, ← isSome_get?_iff, Option.isSome_iff_exists]

/-- What holds of every value that is looked up under a name holds of every
value. -/
theorem forall_lookup_iff {P : α → Prop} :
    (∀ k ∈ m.keys, ∃ a, m.lookup service kind k = .ok a ∧ P a) ↔ ∀ a ∈ m.values, P a := by
  simp only [lookup_eq_ok_iff]
  constructor
  · intro h a ha
    obtain ⟨⟨k, a⟩, he, rfl⟩ := List.mem_map.mp ha
    obtain ⟨b, hb, hP⟩ := h k (mem_keys_of_mem he)
    obtain rfl : b = a := Option.some.inj (hb.symm.trans (get?_eq_some_iff.mpr he))
    exact hP
  · intro h k hk
    obtain ⟨a, ha⟩ := Option.isSome_iff_exists.mp (isSome_get?_iff.mpr hk)
    exact ⟨a, ha, h a (mem_values_of_get? ha)⟩

theorem forall_entries_iff {P : α → Prop} : (∀ e ∈ m.entries, P e.2) ↔ ∀ a ∈ m.values, P a :=
  List.forall_mem_map.symm

end OrderedMap

theorem Schema.exists_resource_iff {s : Schema} {name : String} :
    (∃ r, s.resource name = .ok r) ↔ name ∈ s.resourceNames :=
  OrderedMap.exists_lookup_iff

end ServiceStubs
