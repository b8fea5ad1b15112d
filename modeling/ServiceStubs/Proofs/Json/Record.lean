import ServiceStubs.Json.Record
import ServiceStubs.Proofs.Collection.OrderedMap
import ServiceStubs.Proofs.Json.Printing

/-!
# Records are read back

A record whose fields have distinct names gives for each name what it was written with.
What the readers of the basic types read from texts of lists, maps and fields, and where
what they read comes from.

## Main definitions

* `Json.Denotes` — a JSON value that can be written and from which a value is read.
* `Json.Denotes.text`, `Json.Denotes.list`, `Json.Denotes.nullable` — the basic types.
* `Json.fields?_record` — the fields of a record.
* `Json.exists_read_of_optional`, `Json.exists_read_of_map` — what is read is read from
  some JSON value.
-/

namespace ServiceStubs.Json

variable {α : Type} {r : Reader α} {w : α → Json} {ms : List (String × Json)}
  {names : List String}

/-! ## Basic types -/

/-- The JSON value can be written, and `r` reads `a` from it. -/
structure Denotes (r : Reader α) (j : Json) (a : α) : Prop where
  wellFormed : j.WellFormed
  read : r j = some a

/-- What is read from the texts of some values, if each is read from its own. -/
theorem mapM_map_eq_some {β : Type} {f : β → Option α} {w : α → β} {as : List α}
    (h : ∀ a ∈ as, f (w a) = some a) : (as.map w).mapM f = some as := by
  induction as with
  | nil => rfl
  | cons a as ih =>
      rw [List.map_cons, List.mapM_cons, h a List.mem_cons_self,
        ih fun b hb => h b (List.mem_cons_of_mem a hb)]
      rfl

namespace Denotes

theorem text (s : String) : Denotes Reader.text (.text s) s :=
  ⟨.string, rfl⟩

theorem flag (b : Bool) : Denotes Reader.flag (.bool b) b :=
  ⟨.bool, rfl⟩

theorem word32 {n : Nat} (h : n < Nat.pow 2 32) : Denotes Reader.word32 (.nat n) n where
  wellFormed := .number (wellFormed_ofNat n false)
  read := by
    simp only [nat, Numeral.ofNat, Reader.word32, Reader.boundedNat?, foldl_toDigits]
    rw [if_pos h]

theorem list {as : List α} (h : ∀ a ∈ as, Denotes r (w a) a) :
    Denotes (Reader.list r) (.list (as.map w)) as where
  wellFormed := .list (List.forall_mem_map.mpr fun a ha => (h a ha).wellFormed)
  read := mapM_map_eq_some fun a ha => (h a ha).read

theorem texts (ss : List String) : Denotes (Reader.list Reader.text) (.texts ss) ss :=
  list fun s _ => text s

/-- What is written if it is there, and else is null. -/
theorem nullable {o : Option α} (hnull : ∀ a ∈ o, w a ≠ .null) (h : ∀ a ∈ o, Denotes r (w a) a) :
    Denotes (Reader.nullable r) (.ofOption w o) o := by
  cases o with
  | none => exact ⟨.null, rfl⟩
  | some a =>
      have ha := h a rfl
      refine ⟨ha.wellFormed, ?_⟩
      rw [ofOption, Reader.nullable, ha.read, Option.map_some]
      exact hnull a rfl

end Denotes

/-! ## Records -/

/-- A name that stands once gives its member. -/
theorem member?_eq (h : (ms.map Prod.fst).Nodup) (name : String) :
    member? ms name = some (ms.lookup name) := by
  induction ms with
  | nil => rfl
  | cons m ms ih =>
      obtain ⟨hfresh, hrest⟩ := List.nodup_cons.mp h
      have hread := ih hrest
      unfold member? at hread ⊢
      by_cases hname : m.1 = name
      · have hnone : ms.filter (·.1 = name) = [] := by
          refine List.filter_eq_nil_iff.mpr fun m' hm' heq => hfresh ?_
          have hsame : m'.1 = m.1 := (of_decide_eq_true heq).trans hname.symm
          exact hsame ▸ List.mem_map_of_mem hm'
        rw [List.filter_cons_of_pos (by simpa using hname), hnone, List.lookup_cons]
        simp [hname]
      · have hbeq : (name == m.1) = false := by simpa using Ne.symm hname
        rw [List.filter_cons_of_neg (by simpa using hname), List.lookup_cons, hbeq]
        exact hread

/-- **A record gives for each name what it was written with**, if it is written with names
of the record in their order. -/
theorem fields?_record (hnames : names.Nodup) (hsub : (ms.map Prod.fst).Sublist names) :
    (record ms).fields? names = some (names.map fun name => ms.lookup name) := by
  have hmembers : (ms.map fun m => (some m.1, m.2)).mapM
      (fun m : Option String × Json => m.1.map (·, m.2)) = some ms :=
    mapM_map_eq_some fun _ _ => rfl
  have hmember : member? ms = fun name => some (ms.lookup name) :=
    funext (member?_eq (hnames.sublist hsub))
  simp only [record, fields?, hmembers, Option.bind_eq_bind, Option.bind_some, hmember]
  exact List.mapM_pure

theorem lookup_of_mem (h : (ms.map Prod.fst).Nodup) {m : String × Json} (hm : m ∈ ms) :
    ms.lookup m.1 = some m.2 :=
  OrderedMap.get?_eq_some_iff (m := ⟨ms, h⟩).mpr hm

/-- A record that is written with all its names. -/
theorem fields?_record_all (h : (ms.map Prod.fst).Nodup) :
    (record ms).fields? (ms.map Prod.fst) = some (ms.map fun m => some m.2) := by
  rw [fields?_record h (List.Sublist.refl _), List.map_map]
  congr 1
  exact List.map_congr_left fun m hm => lookup_of_mem h hm

theorem wellFormed_record (h : ∀ m ∈ ms, m.2.WellFormed) : (record ms).WellFormed := by
  refine .object ?_ ?_
  · exact List.forall_mem_map.mpr fun _ _ => rfl
  · exact List.forall_mem_map.mpr h

/-! ## Where values come from -/

theorem read_of_nullable {j : Json} {o : Option α} (h : Reader.nullable r j = some o) :
    ∀ a ∈ o, j ≠ .null ∧ r j = some a := by
  rintro a rfl
  unfold Reader.nullable at h
  split at h
  · simp at h
  · next hnull =>
      obtain ⟨b, hb, hba⟩ := Option.map_eq_some_iff.mp h
      obtain rfl := Option.some.inj hba
      exact ⟨hnull, hb⟩

/-- The value of an optional field is read from what is no null. -/
theorem exists_read_of_optional {f : Option Json} {o : Option α}
    (h : Reader.optional r f = some o) : ∀ a ∈ o, ∃ j, j ≠ .null ∧ r j = some a := by
  intro a ha
  cases f with
  | none =>
      obtain rfl := Option.some.inj h
      simp at ha
  | some j => exact ⟨j, read_of_nullable h a ha⟩

theorem exists_of_mem_mapM {β γ : Type} {f : β → Option γ} {bs : List β} {cs : List γ} {c : γ}
    (h : bs.mapM f = some cs) (hc : c ∈ cs) : ∃ b ∈ bs, f b = some c := by
  induction bs generalizing cs with
  | nil =>
      obtain rfl := Option.some.inj h
      simp at hc
  | cons b bs ih =>
      rw [List.mapM_cons] at h
      obtain ⟨c', hc', h⟩ := Option.bind_eq_some_iff.mp h
      obtain ⟨cs', hcs', h⟩ := Option.bind_eq_some_iff.mp h
      obtain rfl := Option.some.inj h
      rcases List.mem_cons.mp hc with rfl | hc
      · exact ⟨b, List.mem_cons_self, hc'⟩
      · obtain ⟨b', hb', hread⟩ := ih hcs' hc
        exact ⟨b', List.mem_cons_of_mem b hb', hread⟩

/-- The values of a map are read. -/
theorem exists_read_of_map {j : Json} {m : OrderedMap α} (h : Reader.map r j = some m) :
    ∀ a ∈ m.values, ∃ j, r j = some a := by
  intro a ha
  unfold Reader.map at h
  split at h
  · next members =>
      obtain ⟨entries, hentries, hm⟩ := Option.bind_eq_some_iff.mp h
      obtain rfl := Option.some.inj hm
      obtain ⟨e, he, rfl⟩ := List.mem_map.mp (OrderedMap.mem_of_mem_values_ofList ha)
      obtain ⟨⟨k, j⟩, -, hread⟩ := exists_of_mem_mapM hentries he
      obtain ⟨k', -, hread⟩ := Option.bind_eq_some_iff.mp hread
      obtain ⟨b, hb, hread⟩ := Option.bind_eq_some_iff.mp hread
      obtain rfl := Option.some.inj hread
      exact ⟨j, hb⟩
  · simp at h

/-- The values of a map that may be left out are read. -/
theorem exists_read_of_defaulted_map {f : Option Json} {m : OrderedMap α}
    (h : Reader.defaulted (Reader.map r) ∅ f = some m) : ∀ a ∈ m.values, ∃ j, r j = some a := by
  cases f with
  | none =>
      obtain rfl := Option.some.inj h
      exact nofun
  | some j => exact exists_read_of_map h

end ServiceStubs.Json
