import ServiceStubs.Proofs.Session.Invariant

/-!
# What a session does to a store

A store may hold more than the dictionaries of one session.  A session that is
asked for things changes only dictionaries of its own, and those that it enters are
new to the store.  So whatever else the store holds is safe from it, and a session
stays what it is while others use the same store.

## Main definitions

* `Session.Owns` — a number is that of one of the session's dictionaries.
* `Session.Frames` — only dictionaries of the session change.
* `Service.Leads.frames` — so it is after any requests.
* `Service.Consistent.of_kept` — a session whose dictionaries are left alone.
-/

namespace ServiceStubs

variable {s t u : Session} {r : DictRef}

namespace Session

/-- The session has a dictionary of the number of the handle. -/
def Owns (s : Session) (r : DictRef) : Prop :=
  ∃ own, s.Has own ∧ own.id = r.id

/-- From one session to the other, the store grows, what the session does not own
stays as it is, and what it newly enters is new to the store. -/
structure Frames (s t : Session) : Prop where
  size_le : s.store.dicts.size ≤ t.store.dicts.size
  kept : ∀ r, s.store.InUse r → ¬ s.Owns r → t.store.get r = s.store.get r
  fresh : ∀ r, t.Has r → s.Has r ∨ ¬ s.store.InUse r

namespace Frames

theorem refl (s : Session) : s.Frames s where
  size_le := Nat.le_refl _
  kept _ _ _ := rfl
  fresh _ h := .inl h

theorem inUse (h : s.Frames t) (hr : s.store.InUse r) : t.store.InUse r :=
  Nat.lt_of_lt_of_le hr h.size_le

/-- Nothing that was there before is taken over. -/
theorem not_owns (h : s.Frames t) (hr : s.store.InUse r) (hno : ¬ s.Owns r) : ¬ t.Owns r := by
  rintro ⟨own, hown, hid⟩
  rcases h.fresh own hown with hown | hnew
  · exact hno ⟨own, hown, hid⟩
  · exact hnew (show own.id < _ from hid ▸ hr)

theorem trans (h : s.Frames t) (h' : t.Frames u) : s.Frames u where
  size_le := Nat.le_trans h.size_le h'.size_le
  kept r hr hno := (h'.kept r (h.inUse hr) (h.not_owns hr hno)).trans (h.kept r hr hno)
  fresh r hr := by
    rcases h'.fresh r hr with hr | hnew
    · exact h.fresh r hr
    · exact .inr fun huse => hnew (h.inUse huse)

/-- A fixed dictionary is made anew, or it is there already. -/
theorem fixedDict (s : Session) (d : FixedDict) : s.Frames ((Session.fixedDict d).state s) := by
  obtain ⟨ref, -, ⟨-, hstate⟩ | ⟨-, -, hstate⟩⟩ := fixedDict_spec d s
  · rw [hstate]
    exact refl s
  · rw [hstate]
    refine ⟨by simp [withFixed], fun r hr _ => Store.get_add_of_inUse hr d.dict, fun r hr => ?_⟩
    rcases hr with hr | hr
    · exact .inl (.inl hr)
    · rw [find?_withFixed] at hr
      split at hr
      · obtain rfl := Option.some.inj hr
        exact .inr (Nat.lt_irrefl _)
      · exact .inl (.inr hr)

/-- Fields are added to a dictionary of the session. -/
theorem withFields {ref : DictRef} (href : s.Has ref) (fs : List Field) :
    s.Frames (s.withFields ref fs) where
  size_le := by simp
  kept r _ hno := Store.get_addFields_of_ne (fun hid => hno ⟨ref, href, hid.symm⟩) fs
  fresh _ hr := .inl hr

end Frames

end Session

namespace Service

open Session (Request)

variable {svc : Service}

/-! ## Requests -/

theorem Extends.frames {position : Position} (h : svc.Extends position s t) : s.Frames t where
  size_le := h.size_le
  kept r hr _ := h.kept r hr
  fresh r hr := by
    rcases hr with hr | hr
    · exact (h.fresh _ r hr).imp .inl And.left
    · exact .inl (.inr (h.fixed ▸ hr))

theorem frames_addMetadata {ref : DictRef} (href : s.Has ref) :
    s.Frames ((addMetadata ref).state s) := by
  cases hfield : (s.store.get ref).hasField metadataField with
  | true =>
      rw [state_addMetadata_of_hasField hfield]
      exact .refl s
  | false =>
      obtain ⟨metadata, -, hstate⟩ := state_addMetadata hfield
      have hgrows := Session.grows_fixedDict .responseMetadata s
      rw [hstate]
      exact (Session.Frames.fixedDict s .responseMetadata).trans (.withFields (hgrows.has href) _)

theorem frames_returnType (svc : Service) (hs : s.Valid) (o : Schema.Operation) :
    s.Frames ((svc.returnType o).state s) := by
  cases houtput : o.output with
  | none =>
      rw [(returnType_of_none svc houtput s).2]
      exact .refl s
  | some output =>
      have h := shapeType_spec svc hs .output output.shape
      obtain ⟨-, ⟨ref, hval, hstate⟩ | ⟨-, hstate⟩⟩ := returnType_of_some svc houtput s
      · have hhas : ((svc.shapeType .output output.shape).state s).Has ref := by
          simpa [hval] using h.known
        rw [hstate]
        exact h.ext.frames.trans (frames_addMetadata hhas)
      · rw [hstate]
        exact h.ext.frames

/-- One request changes only dictionaries of the session. -/
theorem frames_perform (svc : Service) (hs : s.Valid) (q : Request) :
    s.Frames (svc.perform s q) := by
  cases q with
  | shape position name => exact (shapeType_spec svc hs position name).ext.frames
  | fixed d => exact .fixedDict s d
  | returned o => exact frames_returnType svc hs o

/-- **Requests change only dictionaries of the session.** -/
theorem frames_performAll (svc : Service) (hs : s.Valid) (qs : List Request) :
    s.Frames (svc.performAll s qs) := by
  induction qs generalizing s with
  | nil => exact .refl s
  | cons q qs ih => exact (frames_perform svc hs q).trans (ih (perform_spec svc hs q).1)

theorem Leads.frames (h : svc.Leads s t) (hs : s.Valid) : s.Frames t := by
  obtain ⟨qs, rfl⟩ := h
  exact frames_performAll svc hs qs

/-! ## Sessions that are left alone -/

/-- A session whose tables and dictionaries are left as they are stays consistent in
a store that grows. -/
theorem Consistent.of_kept {returned : String → Prop} (h : svc.Consistent returned s)
    (hgrows : s.Grows t) (hshapes : t.shapes = s.shapes) (hfixed : t.fixed = s.fixed)
    (hkept : ∀ r, s.Has r → t.store.get r = s.store.get r) : svc.Consistent returned t where
  valid :=
    { shapes := fun n r hr =>
        (h.valid.shapes n r (hshapes ▸ hr)).imp id fun huse => hgrows.inUse huse
      fixed := fun n r hr =>
        (h.valid.fixed n r (hfixed ▸ hr)).imp id fun huse => hgrows.inUse huse
      injective := by
        intro r r' hr hr'
        simp only [Session.Has, hshapes, hfixed] at hr hr'
        exact h.valid.injective r r' hr hr' }
  shapes n r hr := by
    rw [hshapes] at hr
    rw [hkept r (h.valid.has_shape hr)]
    exact (h.shapes n r hr).mono hgrows .rfl
  returned n hn := by
    rw [hshapes]
    exact h.returned n hn
  fixed n r hr := by
    rw [hfixed] at hr
    rw [hkept r (h.valid.has_fixed hr)]
    exact h.fixed n r hr

end Service

end ServiceStubs
