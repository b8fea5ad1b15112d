import ServiceStubs.Proofs.Package.Calls
import ServiceStubs.Proofs.Session.Reachable

/-!
# Records that references lead to

Shapes may refer to each other in circles.  If there is a record with members on each
of them, the translation of a shape comes to an end: it does not go on at a record whose
dictionary is there.  After any calls the dictionaries that are there refer to such ones
only, so nothing is missed in this way, and nothing else is entered.

## Main definitions

* `Service.closed_afterAll` — calls enter all that is referred to.
* `Service.shapeType_enters_reachable` — the translation of a shape after any calls.
-/

open Relation (ReflTransGen)

namespace ServiceStubs

namespace Service

variable {svc : Service}

/-- What is referred to from the dictionaries of a session is there after any calls. -/
theorem closed_afterAll (hcycles : svc.model.CyclesPassRecords)
    (hnames : Set.InjOn dictName {n | svc.model.HasFields n}) (calls : List Call) :
    svc.Closed (svc.afterAll calls).shapes := by
  obtain ⟨rs, hrs, -⟩ := svc.requests_of_calls {} calls
  have hempty : svc.Closed (∅ : DictTable) := fun name _ _ hn => by
    obtain ⟨r, hr⟩ := DictTable.mem_names_iff.mp hn
    nomatch hr
  rw [afterAll, ← hrs]
  exact closed_performAll hcycles hnames hempty rs

/-- **The translation of a shape comes to an end and enters the records that references
lead to.**  If every cycle of references passes through a record with members, then from
every session the unlimited translation ends, in one way, and this is how the limited one
ends.  If besides no two records with members give their dictionaries the same name, then
after any calls it adds the names for all records with members that references lead to,
from the shape itself on, and no others. -/
theorem shapeType_enters_reachable (svc : Service) (hcycles : svc.model.CyclesPassRecords)
    (position : Position) (name : String) :
    (∀ s a t, svc.Resolves position name s a t ↔
      a = (svc.shapeType position name).val s ∧ t = (svc.shapeType position name).state s) ∧
    (Set.InjOn dictName {n | svc.model.HasFields n} → ∀ calls n,
      n ∈ ((svc.shapeType position name).state (svc.afterAll calls)).shapes.names ↔
        n ∈ (svc.afterAll calls).shapes.names ∨
          ∃ other, ReflTransGen svc.model.Refers name other ∧ svc.model.HasFields other ∧
            dictName other = n) := by
  refine ⟨fun s a t => resolves_iff hcycles, fun hnames calls n => ?_⟩
  exact (collects_shapeType hcycles hnames position name _).mem_names_iff
    (closed_afterAll hcycles hnames calls)

end Service

/-- Boxes lead back to themselves, and a box is a record: whatever was made before, the
translation of what lists them comes to an end and enters the dictionary of boxes. -/
theorem boxSchema_enters_reachable :
    let svc := Service.ofSchema boxSchema
    svc.model.CyclesPassRecords ∧ svc.model.Refers "Box" "Box" ∧
    Set.InjOn dictName {n | svc.model.HasFields n} ∧
    (∀ s, ∃ a t, svc.Resolves .output "ListResult" s a t) ∧
    ∀ calls, "BoxTypeDef" ∈
      ((svc.shapeType .output "ListResult").state (svc.afterAll calls)).shapes.names := by
  intro svc
  have hflat : ∀ a ∈ svc.model.shapes.keys, ∀ ref ∈ (svc.head .input a).parts,
      (svc.head .input ref.shape).parts = [] := by
    decide +kernel
  have hcycles : svc.model.CyclesPassRecords := by
    refine Schema.Model.cyclesPassRecords_iff.mpr (Schema.Model.ends_of_flat ?_)
    intro a b c hab hbc
    obtain ⟨-, ref, href, rfl⟩ := (Service.hasPart_iff .input).mp hab
    obtain ⟨-, ref', href', -⟩ := (Service.hasPart_iff .input).mp hbc
    rw [hflat a hab.declared ref href] at href'
    nomatch href'
  have hkeys : ∀ a ∈ svc.model.shapes.keys, ∀ b ∈ svc.model.shapes.keys,
      dictName a = dictName b → a = b := by
    decide +kernel
  have hnames : Set.InjOn dictName {n | svc.model.HasFields n} := by
    rintro a ⟨_, ha, -⟩ b ⟨_, hb, -⟩
    exact hkeys a (OrderedMap.mem_keys_of_get? ha) b (OrderedMap.mem_keys_of_get? hb)
  have hlist : svc.model.Refers "ListResult" "Boxes" :=
    .inr ⟨by decide +kernel, _, ("Boxes", ⟨"Boxes", none⟩), rfl, rfl, by decide +kernel, rfl⟩
  have hitem : svc.model.Refers "Boxes" "Box" :=
    .inl ⟨by decide +kernel, _, .item, ⟨"Box", none⟩, rfl, rfl, rfl⟩
  have hinner : svc.model.Refers "Box" "Box" :=
    .inr ⟨by decide +kernel, _, ("Inner", ⟨"Box", none⟩), rfl, rfl, by decide +kernel, rfl⟩
  have hfields : svc.model.HasFields "Box" := ⟨_, rfl, rfl, rfl⟩
  have h := svc.shapeType_enters_reachable hcycles .output "ListResult"
  refine ⟨hcycles, hinner, hnames, fun s => ⟨_, _, (h.1 s _ _).mpr ⟨rfl, rfl⟩⟩, fun calls => ?_⟩
  have hway := (ReflTransGen.single hlist).tail hitem
  exact (h.2 hnames calls "BoxTypeDef").mpr (.inr ⟨"Box", hway, hfields, by decide +kernel⟩)

end ServiceStubs
