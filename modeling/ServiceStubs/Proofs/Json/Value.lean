import Mathlib.Data.String.Basic
import ServiceStubs.Json.Value
import ServiceStubs.Proofs.Json.Record

/-!
# Values of any shape are read back

What is read from a text is a value in which names increase, numbers fit their kind and
lists and objects are not nested too deeply.  Such a value is read from the text that it
is written as, if no floating-point number stands in it.

## Main definitions

* `JsonValue.Kept` — the values that are read.
* `JsonValue.holdsFloat` — whether a floating-point number stands in a value.
* `JsonValue.Kept.denotes` — values are read back.
-/

namespace ServiceStubs

namespace JsonNumber

/-- Digits are read as the number that they are the digits of. -/
theorem natOfDigits_toDigits (n : Nat) : natOfDigits (Nat.toDigits 10 n) = n :=
  foldl_toDigits n

theorem ofNumeral?_natural {n : Nat} (hn : n < digitsLimit) :
    ofNumeral? (toNumeral (.natural n)) = some (.natural n) := by
  simp [ofNumeral?, toNumeral, Numeral.ofNat, natOfDigits_toDigits, hn]

theorem ofNumeral?_negative {n : Nat} (hpos : 0 < n) (hn : n ≤ digitsLimit / 2) :
    ofNumeral? (toNumeral (.negative n)) = some (.negative n) := by
  simp [ofNumeral?, toNumeral, Numeral.ofNat, natOfDigits_toDigits, hpos, hn]

end JsonNumber

namespace JsonValue

open JsonNumber (digitsLimit)

/-! ## Values that are read -/

/-- Names in increasing order. -/
def Sorted (members : List (String × JsonValue)) : Prop :=
  members.Pairwise (·.1 < ·.1)

/-- The values that are read where at most `depth` lists and objects are nested. -/
inductive Kept : (depth : Nat) → JsonValue → Prop
  | null {depth} : Kept depth .null
  | bool {depth b} : Kept depth (.bool b)
  | natural {depth n} (h : n < digitsLimit) : Kept depth (.number (.natural n))
  | negative {depth n} (hpos : 0 < n) (h : n ≤ digitsLimit / 2) :
      Kept depth (.number (.negative n))
  | float {depth minus x} : Kept depth (.number (.float minus x))
  | text {depth s} : Kept depth (.text s)
  | list {depth items} (h : ∀ v ∈ items, Kept depth v) : Kept (depth + 1) (.list items)
  | object {depth} {members : List (String × JsonValue)} (hsorted : Sorted members)
      (h : ∀ m ∈ members, Kept depth m.2) : Kept (depth + 1) (.object members)

variable {depth : Nat} {before members : List (String × JsonValue)} {k : String} {v : JsonValue}

theorem kept_of_ofNumeral? {n : Numeral} {x : JsonNumber} (h : JsonNumber.ofNumeral? n = some x) :
    Kept depth (.number x) := by
  unfold JsonNumber.ofNumeral? at h
  dsimp only at h
  split at h
  · next hnatural =>
      obtain rfl := Option.some.inj h
      simp only [Bool.and_eq_true, decide_eq_true_eq] at hnatural
      exact .natural hnatural.2
  · split at h
    · next hnegative =>
        obtain rfl := Option.some.inj h
        simp only [Bool.and_eq_true, decide_eq_true_eq] at hnegative
        exact .negative hnegative.1.2 hnegative.2
    · obtain ⟨y, -, rfl⟩ := Option.map_eq_some_iff.mp h
      exact .float

theorem mem_insertMember {m : String × JsonValue} (h : m ∈ insertMember k v members) :
    m = (k, v) ∨ m ∈ members := by
  induction members with
  | nil => simpa [insertMember] using h
  | cons e ms ih =>
      unfold insertMember at h
      split_ifs at h with hlt heq
      · simpa using h
      · rcases List.mem_cons.mp h with h | h
        · exact .inl h
        · exact .inr (List.mem_cons_of_mem e h)
      · rcases List.mem_cons.mp h with h | h
        · exact .inr (h ▸ List.mem_cons_self)
        · exact (ih h).imp_right (List.mem_cons_of_mem e)

/-- **An inserted member takes the place of its name.** -/
theorem Sorted.insertMember (h : Sorted members) : Sorted (insertMember k v members) := by
  induction members with
  | nil => exact List.pairwise_singleton _ _
  | cons e ms ih =>
      obtain ⟨hhead, htail⟩ := List.pairwise_cons.mp h
      unfold JsonValue.insertMember
      split_ifs with hlt heq
      · refine List.pairwise_cons.mpr ⟨?_, h⟩
        intro m hm
        rcases List.mem_cons.mp hm with rfl | hm
        · exact hlt
        · exact lt_trans hlt (hhead m hm)
      · refine List.pairwise_cons.mpr ⟨?_, htail⟩
        intro m hm
        exact heq ▸ hhead m hm
      · refine List.pairwise_cons.mpr ⟨?_, ih htail⟩
        intro m hm
        rcases mem_insertMember hm with rfl | hm
        · exact lt_of_le_of_ne (not_lt.mp hlt) (Ne.symm heq)
        · exact hhead m hm

mutual

/-- **What is read from a text is such a value.** -/
theorem kept_of_ofJson? : ∀ {depth : Nat} {j : Json} {v : JsonValue},
    ofJson? depth j = some v → Kept depth v
  | _, .null, _, h => by
      simp only [ofJson?, Option.some.injEq] at h
      exact h ▸ .null
  | _, .bool _, _, h => by
      simp only [ofJson?, Option.some.injEq] at h
      exact h ▸ .bool
  | _, .number _, _, h => by
      simp only [ofJson?, Option.map_eq_some_iff] at h
      obtain ⟨x, hx, rfl⟩ := h
      exact kept_of_ofNumeral? hx
  | _, .string _, _, h => by
      simp only [ofJson?, Option.map_eq_some_iff] at h
      obtain ⟨s, -, rfl⟩ := h
      exact .text
  | 0, .list _, _, h => by simp [ofJson?] at h
  | 0, .object _, _, h => by simp [ofJson?] at h
  | depth + 1, .list items, _, h => by
      simp only [ofJson?, Option.map_eq_some_iff] at h
      obtain ⟨vs, hvs, rfl⟩ := h
      exact .list (kept_of_ofItems? hvs)
  | depth + 1, .object members, _, h => by
      simp only [ofJson?, Option.map_eq_some_iff] at h
      obtain ⟨ms, hms, rfl⟩ := h
      obtain ⟨hsorted, hkept⟩ := kept_of_ofMembers? hms .nil nofun
      exact .object hsorted hkept

theorem kept_of_ofItems? : ∀ {depth : Nat} {js : List Json} {vs : List JsonValue},
    ofItems? depth js = some vs → ∀ v ∈ vs, Kept depth v
  | _, [], _, h => by
      simp only [ofItems?, Option.some.injEq] at h
      exact h ▸ nofun
  | depth, j :: js, _, h => by
      simp only [ofItems?, Option.bind_eq_bind, Option.bind_eq_some_iff, Option.pure_def,
        Option.some.injEq] at h
      obtain ⟨v, hv, vs, hvs, rfl⟩ := h
      exact List.forall_mem_cons.mpr ⟨kept_of_ofJson? hv, kept_of_ofItems? hvs⟩

theorem kept_of_ofMembers? : ∀ {depth : Nat} {before after : List (String × JsonValue)}
    {ms : List (Option String × Json)}, ofMembers? depth before ms = some after →
    Sorted before → (∀ m ∈ before, Kept depth m.2) →
    Sorted after ∧ ∀ m ∈ after, Kept depth m.2
  | _, _, _, [], h, hsorted, hkept => by
      simp only [ofMembers?, Option.some.injEq] at h
      exact h ▸ ⟨hsorted, hkept⟩
  | depth, _, _, (k, j) :: ms, h, hsorted, hkept => by
      simp only [ofMembers?, Option.bind_eq_bind, Option.bind_eq_some_iff] at h
      obtain ⟨k, -, v, hv, hms⟩ := h
      refine kept_of_ofMembers? hms hsorted.insertMember ?_
      intro m hm
      rcases mem_insertMember hm with rfl | hm
      · exact kept_of_ofJson? hv
      · exact hkept m hm

end

/-! ## Writing and reading -/

mutual

/-- Whether a floating-point number stands in the value. -/
def holdsFloat : JsonValue → Bool
  | null => false
  | bool _ => false
  | number (.natural _) => false
  | number (.negative _) => false
  | number (.float _ _) => true
  | text _ => false
  | list items => itemsHoldFloat items
  | object members => membersHoldFloat members

/-- Whether a floating-point number stands in an item of a list. -/
def itemsHoldFloat : List JsonValue → Bool
  | [] => false
  | v :: vs => v.holdsFloat || itemsHoldFloat vs

/-- Whether a floating-point number stands in a member of an object. -/
def membersHoldFloat : List (String × JsonValue) → Bool
  | [] => false
  | (_, v) :: ms => v.holdsFloat || membersHoldFloat ms

end

theorem itemsHoldFloat_eq (vs : List JsonValue) : itemsHoldFloat vs = vs.any holdsFloat := by
  induction vs with
  | nil => rfl
  | cons v vs ih => rw [itemsHoldFloat, ih, List.any_cons]

theorem membersHoldFloat_eq (ms : List (String × JsonValue)) :
    membersHoldFloat ms = ms.any (·.2.holdsFloat) := by
  induction ms with
  | nil => rfl
  | cons m ms ih => rw [membersHoldFloat, ih, List.any_cons]

theorem itemsToJson_eq (vs : List JsonValue) : itemsToJson vs = vs.map toJson := by
  induction vs with
  | nil => rfl
  | cons v vs ih => rw [itemsToJson, ih, List.map_cons]

theorem membersToJson_eq (ms : List (String × JsonValue)) :
    membersToJson ms = ms.map fun m => (some m.1, m.2.toJson) := by
  induction ms with
  | nil => rfl
  | cons m ms ih => rw [membersToJson, ih, List.map_cons]

theorem ofItems?_eq (depth : Nat) (js : List Json) :
    ofItems? depth js = js.mapM (ofJson? depth) := by
  induction js with
  | nil => rfl
  | cons j js ih =>
      rw [ofItems?, ih, List.mapM_cons]

/-- A member with the greatest name comes last. -/
theorem insertMember_of_forall_lt (h : ∀ m ∈ members, m.1 < k) :
    insertMember k v members = members ++ [(k, v)] := by
  induction members with
  | nil => rfl
  | cons e ms ih =>
      have hlt : e.1 < k := h e List.mem_cons_self
      rw [insertMember, if_neg (not_lt.mpr hlt.le), if_neg hlt.ne', ih fun m hm =>
        h m (List.mem_cons_of_mem e hm), List.cons_append]

/-- Members in increasing order are read in their order. -/
theorem ofMembers?_membersToJson (hsorted : Sorted (before ++ members))
    (hread : ∀ m ∈ members, ofJson? depth m.2.toJson = some m.2) :
    ofMembers? depth before (membersToJson members) = some (before ++ members) := by
  -- All that was read has smaller names, so the next member comes last.
  induction members generalizing before with
  | nil => rw [List.append_nil, membersToJson, ofMembers?]
  | cons e ms ih =>
      have hlast : ∀ m ∈ before, m.1 < e.1 := fun m hm =>
        (List.pairwise_append.mp hsorted).2.2 m hm e List.mem_cons_self
      have hcut : before ++ e :: ms = (before ++ [e]) ++ ms := by simp
      rw [hcut] at hsorted ⊢
      rw [membersToJson, ofMembers?, hread e List.mem_cons_self]
      simp only [Option.bind_eq_bind, Option.bind_some, insertMember_of_forall_lt hlast]
      exact ih hsorted fun m hm => hread m (List.mem_cons_of_mem e hm)

/-- **A value without floating-point numbers is read from the text that it is written as.** -/
theorem Kept.denotes (h : Kept depth v) (hfloat : v.holdsFloat = false) :
    Json.Denotes (ofJson? depth) v.toJson v := by
  induction h with
  | null => exact ⟨.null, by rw [toJson, ofJson?]⟩
  | bool => exact ⟨.bool, by rw [toJson, ofJson?]⟩
  | @natural _ n hn =>
      refine ⟨.number (wellFormed_ofNat n false), ?_⟩
      rw [toJson, ofJson?, JsonNumber.ofNumeral?_natural hn, Option.map_some]
  | @negative _ n hpos hn =>
      refine ⟨.number (wellFormed_ofNat n true), ?_⟩
      rw [toJson, ofJson?, JsonNumber.ofNumeral?_negative hpos hn, Option.map_some]
  | float => simp [holdsFloat] at hfloat
  | text => exact ⟨.string, by rw [toJson, Json.text, ofJson?, Option.map_some]⟩
  | @list depth items _ ih =>
      rw [holdsFloat, itemsHoldFloat_eq, List.any_eq_false] at hfloat
      have hitems : ∀ v ∈ items, Json.Denotes (ofJson? depth) v.toJson v := fun v hv =>
        ih v hv (by simpa using hfloat v hv)
      rw [toJson, itemsToJson_eq]
      refine ⟨.list (List.forall_mem_map.mpr fun v hv => (hitems v hv).wellFormed), ?_⟩
      rw [ofJson?, ofItems?_eq, Json.mapM_map_eq_some fun v hv => (hitems v hv).read,
        Option.map_some]
  | @object depth members hsorted _ ih =>
      rw [holdsFloat, membersHoldFloat_eq, List.any_eq_false] at hfloat
      have hmembers : ∀ m ∈ members, Json.Denotes (ofJson? depth) m.2.toJson m.2 := fun m hm =>
        ih m hm (by simpa using hfloat m hm)
      have hread := @ofMembers?_membersToJson depth [] members hsorted
        fun m hm => (hmembers m hm).read
      rw [toJson]
      refine ⟨.object ?_ ?_, ?_⟩
      · rw [membersToJson_eq]
        exact List.forall_mem_map.mpr fun _ _ => rfl
      · rw [membersToJson_eq]
        exact List.forall_mem_map.mpr fun m hm => (hmembers m hm).wellFormed
      · rw [ofJson?, hread, Option.map_some, List.nil_append]

end JsonValue

end ServiceStubs
