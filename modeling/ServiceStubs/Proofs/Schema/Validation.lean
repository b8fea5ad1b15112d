import ServiceStubs.Proofs.Schema.Lookup
import ServiceStubs.Proofs.Session.Execution
import ServiceStubs.Schema.Loading

/-!
# Checked schemas

A schema passes its check exactly when the shapes of its operations and the
operations of its paginators and waiters are declared.

## Main definitions

* `Schema.validate_eq_ok_iff` — the schemas that pass the check.
-/

namespace ServiceStubs

/-! ## Checks of lists -/

/-- Two checks pass when each of them does. -/
theorem seq_eq_ok_iff {ε : Type} {x y : Except ε Unit} :
    (x >>= fun _ => y) = .ok () ↔ x = .ok () ∧ y = .ok () := by
  rw [bind_eq_ok_iff]
  exact ⟨fun ⟨(), hx, hy⟩ => ⟨hx, hy⟩, fun ⟨hx, hy⟩ => ⟨(), hx, hy⟩⟩

theorem forM_eq_ok_iff {ε α : Type} {f : α → Except ε Unit} {as : List α} :
    as.forM f = .ok () ↔ ∀ a ∈ as, f a = .ok () := by
  induction as with
  | nil => simp [pure, Except.pure]
  | cons a as ih =>
      have hcons : (a :: as).forM f = f a >>= fun _ => as.forM f := rfl
      rw [hcons, seq_eq_ok_iff, List.forall_mem_cons, ih]

theorem exists_mapM_eq_ok_iff {ε α β : Type} {f : α → Except ε β} {as : List α} :
    (∃ bs, as.mapM f = .ok bs) ↔ ∀ a ∈ as, ∃ b, f a = .ok b := by
  induction as with
  | nil => simp [pure, Except.pure]
  | cons a as ih =>
      rw [List.forall_mem_cons, ← ih, List.mapM_cons]
      constructor
      · rintro ⟨cs, h⟩
        obtain ⟨b, hb, h⟩ := bind_eq_ok_iff.mp h
        obtain ⟨bs, hbs, -⟩ := bind_eq_ok_iff.mp h
        exact ⟨⟨b, hb⟩, bs, hbs⟩
      · rintro ⟨⟨b, hb⟩, bs, hbs⟩
        exact ⟨b :: bs, bind_eq_ok_iff.mpr ⟨b, hb, bind_eq_ok_iff.mpr ⟨bs, hbs, rfl⟩⟩⟩

/-- What is looked up only to be there is there. -/
theorem discard_lookup_eq_ok_iff {α : Type} {m : OrderedMap α} {service name : String}
    {kind : EntryKind} : discard (m.lookup service kind name) = .ok () ↔ name ∈ m.keys := by
  refine .trans ?_ (OrderedMap.exists_lookup_iff : (∃ a, m.lookup service kind name = .ok a) ↔ _)
  cases m.lookup service kind name with
  | error e => exact ⟨nofun, nofun⟩
  | ok a => exact ⟨fun _ => ⟨a, rfl⟩, fun _ => rfl⟩

namespace Schema

/-- **A schema passes its check exactly when the shapes of its operations and the
operations of its paginators and waiters are declared.** -/
theorem validate_eq_ok_iff {s : Schema} :
    s.validate = .ok () ↔
      (∀ o ∈ s.model.operations.values, ∀ r ∈ o.shapeRefs, r.shape ∈ s.model.shapes.keys) ∧
      (∀ name ∈ s.paginators.keys, name ∈ s.model.operations.keys) ∧
      ∀ w ∈ s.waiters.values, w.operation ∈ s.model.operations.keys := by
  unfold validate
  rw [seq_eq_ok_iff, seq_eq_ok_iff]
  simp only [forM_eq_ok_iff, shape, operation, discard_lookup_eq_ok_iff, List.mem_flatMap,
    forall_exists_index, and_imp]
  refine and_congr_left' ⟨fun h o ho r hr => h r o ho hr, fun h r o ho hr => h o ho r hr⟩

end Schema

end ServiceStubs
