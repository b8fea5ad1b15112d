import ServiceStubs.Proofs.Session.Blob
import ServiceStubs.Proofs.Session.Request

/-!
# Positions of dictionaries

A shape is translated into a dictionary once, for the position of the request that
asks for it first.  Later requests get that dictionary, whatever position they ask
for, so bytes in it are written for the first one.

## Main definitions

* `Session.Request.position?` — the position that a request asks for.
* `Service.firstPosition` — the position of the request that makes a dictionary.
* `Service.WrittenFor` — bytes in the fields of a dictionary are written for a
  position.
* `Service.writtenFor_performAll` — it is the position of the first request.
* `SessionM.AsksFor` — all requests of a step ask for one position.
-/

namespace ServiceStubs

variable {s t u : Session}

/-- The position that a request asks for, if it asks for a shape at all. -/
def Session.Request.position? : Session.Request → Option Position
  | .shape position _ => some position
  | .fixed _ => none
  | .returned _ => some .output

/-! ## Fields of responses -/

/-- The dictionary `d'` is `d`, and has gained nothing but what responses say about
themselves. -/
def TypedDict.GainsResponse (d d' : TypedDict) : Prop :=
  ∃ extra, d'.fields = d.fields ++ extra ∧ ∀ f ∈ extra, ∃ ref, f = Service.responseField ref

namespace TypedDict.GainsResponse

variable {d d' d'' : TypedDict}

theorem refl (d : TypedDict) : d.GainsResponse d :=
  ⟨[], (List.append_nil _).symm, nofun⟩

theorem trans (h : d.GainsResponse d') (h' : d'.GainsResponse d'') : d.GainsResponse d'' := by
  obtain ⟨extra, hfields, hextra⟩ := h
  obtain ⟨extra', hfields', hextra'⟩ := h'
  refine ⟨extra ++ extra', by rw [hfields', hfields, List.append_assoc], ?_⟩
  intro f hf
  exact (List.mem_append.mp hf).elim (hextra f) (hextra' f)

end TypedDict.GainsResponse

namespace Service

open Session (Request)

variable {svc : Service} {position p : Position} {n : String} {r : DictRef} {d d' : TypedDict}

theorem shapes_fixedDict (d : FixedDict) (s : Session) :
    ((Session.fixedDict d).state s).shapes = s.shapes := by
  obtain ⟨ref, -, ⟨-, hstate⟩ | ⟨-, -, hstate⟩⟩ := Session.fixedDict_spec d s <;> rw [hstate]
  rfl

theorem shapes_addMetadata (ref : DictRef) (s : Session) :
    ((addMetadata ref).state s).shapes = s.shapes := by
  cases h : (s.store.get ref).hasField metadataField with
  | true => rw [state_addMetadata_of_hasField h]
  | false =>
      obtain ⟨metadata, -, hstate⟩ := state_addMetadata h
      rw [hstate, Session.shapes_withFields, shapes_fixedDict]

theorem gainsResponse_fixedDict (d : FixedDict) (hr : s.store.InUse r) :
    (s.store.get r).GainsResponse (((Session.fixedDict d).state s).store.get r) := by
  rw [Session.get_fixedDict d hr]
  exact .refl _

/-- An extension gives the dictionaries that were there nothing. -/
theorem Extends.gainsResponse (h : svc.Extends position s t) (hr : s.store.InUse r) :
    (s.store.get r).GainsResponse (t.store.get r) := by
  rw [h.kept r hr]
  exact .refl _

theorem gainsResponse_addMetadata {ref : DictRef} (href : s.store.InUse ref)
    (hr : s.store.InUse r) :
    (s.store.get r).GainsResponse (((addMetadata ref).state s).store.get r) := by
  cases h : (s.store.get ref).hasField metadataField with
  | true =>
      rw [state_addMetadata_of_hasField h]
      exact .refl _
  | false =>
      obtain ⟨metadata, -, hstate⟩ := state_addMetadata h
      rw [hstate, Session.store_withFields]
      by_cases hid : r.id = ref.id
      · have huse := (Session.grows_fixedDict .responseMetadata s).inUse href
        have hnew := Store.get_addFields huse [responseField metadata]
        rw [← Store.get_congr (by simpa using huse) hid, Session.get_fixedDict _ href,
          ← Store.get_congr href hid] at hnew
        rw [hnew]
        exact ⟨_, rfl, fun f hf => ⟨metadata, List.mem_singleton.mp hf⟩⟩
      · rw [Store.get_addFields_of_ne hid]
        exact gainsResponse_fixedDict .responseMetadata hr

/-! ## Dictionaries and positions -/

variable (svc) in
/-- The fields of the dictionary are the members of a record shape, in order, and
bytes in them are written for the position; what responses say about themselves
may follow. -/
def WrittenFor (position : Position) (n : String) (d : TypedDict) : Prop :=
  ∃ shapeName shape own extra, svc.Describes shapeName shape n ∧ d.fields = own ++ extra ∧
    List.Forall₂ (fun member f => f.name = member.1 ∧
      svc.BlobsFollow position member.2.shape f.type) shape.members.entries own ∧
    ∀ f ∈ extra, ∃ ref, f = responseField ref

theorem Fresh.writtenFor (h : svc.Fresh s position n d) : svc.WrittenFor position n d := by
  obtain ⟨shapeName, shape, hshape, -, -, hfields⟩ := h
  exact ⟨shapeName, shape, d.fields, [], hshape, (List.append_nil _).symm,
    hfields.imp fun _ _ hf => ⟨hf.name, blobsFollow_of_memberForm hf.form⟩, nofun⟩

theorem WrittenFor.gains (h : svc.WrittenFor position n d) (hd : d.GainsResponse d') :
    svc.WrittenFor position n d' := by
  obtain ⟨shapeName, shape, own, extra, hshape, hfields, hown, hextra⟩ := h
  obtain ⟨extra', hfields', hextra'⟩ := hd
  refine ⟨shapeName, shape, own, extra ++ extra', hshape, ?_, hown, ?_⟩
  · rw [hfields', hfields, List.append_assoc]
  · intro f hf
    exact (List.mem_append.mp hf).elim (hextra f) (hextra' f)

/-- What is new in an extension is written for its position. -/
theorem Extends.writtenFor (h : svc.Extends position s t) (hr : t.shapes.find? n = some r) :
    s.shapes.find? n = some r ∨ svc.WrittenFor position n (t.store.get r) :=
  (h.fresh n r hr).imp id fun hnew => hnew.2.writtenFor

/-! ## Requests -/

/-- A request gives the dictionaries that were there nothing but what responses say
about themselves. -/
theorem perform_gains (hs : s.Valid) (q : Request) (hr : s.store.InUse r) :
    (s.store.get r).GainsResponse ((svc.perform s q).store.get r) := by
  cases q with
  | shape position name => exact (shapeType_spec svc hs position name).ext.gainsResponse hr
  | fixed d => exact gainsResponse_fixedDict d hr
  | returned o =>
      cases houtput : o.output with
      | none =>
          rw [perform, (returnType_of_none svc houtput s).2]
          exact .refl _
      | some output =>
          have h := shapeType_spec svc hs .output output.shape
          have hgains := h.ext.gainsResponse hr
          obtain ⟨-, ⟨ref, hval, hstate⟩ | ⟨-, hstate⟩⟩ := returnType_of_some svc houtput s
          · have href : ((svc.shapeType .output output.shape).state s).store.InUse ref :=
              (h.ext.valid hs).inUse (by simpa [hval] using h.known)
            rw [perform, hstate]
            exact hgains.trans (gainsResponse_addMetadata href (h.ext.inUse hr))
          · rwa [perform, hstate]

/-- A request enters dictionaries for its position only. -/
theorem perform_writtenFor (hs : s.Valid) (q : Request)
    (hr : (svc.perform s q).shapes.find? n = some r) :
    s.shapes.find? n = some r ∨
      ∃ p, q.position? = some p ∧ svc.WrittenFor p n ((svc.perform s q).store.get r) := by
  cases q with
  | shape position name =>
      have hext := (shapeType_spec svc hs position name).ext
      exact (hext.writtenFor hr).imp id fun hnew => ⟨position, rfl, hnew⟩
  | fixed d =>
      rw [perform, shapes_fixedDict] at hr
      exact .inl hr
  | returned o =>
      cases houtput : o.output with
      | none =>
          rw [perform, (returnType_of_none svc houtput s).2] at hr
          exact .inl hr
      | some output =>
          have h := shapeType_spec svc hs .output output.shape
          obtain ⟨-, ⟨ref, hval, hstate⟩ | ⟨-, hstate⟩⟩ := returnType_of_some svc houtput s
          · have hvalid := h.ext.valid hs
            have href : ((svc.shapeType .output output.shape).state s).store.InUse ref :=
              hvalid.inUse (by simpa [hval] using h.known)
            rw [perform, hstate] at hr ⊢
            rw [shapes_addMetadata] at hr
            have hgains := gainsResponse_addMetadata href (hvalid.shapes n r hr).2
            exact (h.ext.writtenFor hr).imp id fun hnew => ⟨.output, rfl, hnew.gains hgains⟩
          · rw [perform, hstate] at hr ⊢
            exact (h.ext.writtenFor hr).imp id fun hnew => ⟨.output, rfl, hnew⟩

variable (svc) in
/-- The position of the first request after which the dictionary of the name `n` is
there. -/
def firstPosition (s : Session) : List Request → String → Option Position
  | [], _ => none
  | q :: qs, n =>
    if ((svc.perform s q).shapes.find? n).isSome then q.position?
    else firstPosition (svc.perform s q) qs n

/-- Only requests have positions. -/
theorem exists_request_of_firstPosition {qs : List Request}
    (h : svc.firstPosition s qs n = some p) : ∃ q ∈ qs, q.position? = some p := by
  induction qs generalizing s with
  | nil => nomatch h
  | cons q qs ih =>
      rw [firstPosition] at h
      split at h
      · exact ⟨q, List.mem_cons_self, h⟩
      · obtain ⟨q', hq', hp⟩ := ih h
        exact ⟨q', List.mem_cons_of_mem q hq', hp⟩

/-- A dictionary that has a position is there in the end. -/
theorem exists_find?_of_firstPosition {qs : List Request} (hs : s.Valid)
    (h : svc.firstPosition s qs n = some p) :
    ∃ r, (svc.performAll s qs).shapes.find? n = some r := by
  induction qs generalizing s with
  | nil => nomatch h
  | cons q qs ih =>
      have hvalid := (perform_spec svc hs q).1
      rw [firstPosition] at h
      split at h
      · next hthere =>
          obtain ⟨r, hr⟩ := Option.isSome_iff_exists.mp hthere
          exact ⟨r, (performAll_spec svc hvalid qs).2.shapes n r hr⟩
      · exact ih hvalid h

theorem performAll_gains (hs : s.Valid) (qs : List Request) (hr : s.store.InUse r) :
    (s.store.get r).GainsResponse ((svc.performAll s qs).store.get r) := by
  induction qs generalizing s with
  | nil => exact .refl _
  | cons q qs ih =>
      obtain ⟨hvalid, hgrows⟩ := perform_spec svc hs q
      exact (perform_gains hs q hr).trans (ih hvalid (hgrows.inUse hr))

/-- **A dictionary that requests make is written for the position of the first
one.** -/
theorem writtenFor_performAll (hs : s.Valid) (qs : List Request)
    (hr : (svc.performAll s qs).shapes.find? n = some r) :
    s.shapes.find? n = some r ∨ ∃ p, svc.firstPosition s qs n = some p ∧
      svc.WrittenFor p n ((svc.performAll s qs).store.get r) := by
  induction qs generalizing s with
  | nil => exact .inl hr
  | cons q qs ih =>
      obtain ⟨hvalid, -⟩ := perform_spec svc hs q
      cases hthere : (svc.perform s q).shapes.find? n with
      | none =>
          have hfirst : svc.firstPosition s (q :: qs) n =
              svc.firstPosition (svc.perform s q) qs n := by simp [firstPosition, hthere]
          rw [hfirst]
          refine .inr ((ih hvalid hr).resolve_left ?_)
          simp [hthere]
      | some r' =>
          have hlater := (performAll_spec svc hvalid qs).2.shapes n r' hthere
          obtain rfl : r' = r := Option.some.inj (hlater.symm.trans hr)
          refine (perform_writtenFor hs q hthere).imp id fun ⟨p, hp, hwritten⟩ => ⟨p, ?_, ?_⟩
          · simp [firstPosition, hthere, hp]
          · exact hwritten.gains (performAll_gains hvalid qs (hvalid.shapes n r' hthere).2)

end Service

/-! ## Steps for one position -/

/-- The requests of the step ask for no other position. -/
def SessionM.AsksFor {α : Type} (svc : Service) (position : Position) (m : SessionM α) : Prop :=
  ∀ s, ∃ qs, svc.performAll s qs = m.state s ∧ ∀ q ∈ qs, ∀ p ∈ q.position?, p = position

namespace SessionM.AsksFor

variable {α β : Type} {svc : Service} {position : Position}

theorem pure (a : α) : AsksFor svc position (Pure.pure a) :=
  fun _ => ⟨[], rfl, nofun⟩

/-- A single request for the position. -/
theorem of_perform {m : SessionM α} (q : Session.Request) (hq : ∀ p ∈ q.position?, p = position)
    (h : ∀ s, svc.perform s q = m.state s) : AsksFor svc position m :=
  fun s => ⟨[q], h s, fun _ hmem => List.mem_singleton.mp hmem ▸ hq⟩

theorem bind {m : SessionM α} {f : α → SessionM β} (h : AsksFor svc position m)
    (hf : ∀ a, AsksFor svc position (f a)) : AsksFor svc position (m >>= f) := by
  intro s
  obtain ⟨qs, hqs, hall⟩ := h s
  obtain ⟨qs', hqs', hall'⟩ := hf (m.val s) (m.state s)
  refine ⟨qs ++ qs', ?_, ?_⟩
  · rw [Service.performAll_append, hqs, hqs', SessionM.state_bind]
  · intro q hq
    exact (List.mem_append.mp hq).elim (hall q) (hall' q)

theorem mapM {f : α → SessionM β} {as : List α} (hf : ∀ a, AsksFor svc position (f a)) :
    AsksFor svc position (as.mapM f) := by
  induction as with
  | nil => exact .pure []
  | cons a as ih =>
      rw [List.mapM_cons]
      exact (hf a).bind fun b => ih.bind fun bs => .pure (b :: bs)

/-- **A dictionary is written for the position of the step, unless it was there
before.** -/
theorem writtenFor {m : SessionM α} (h : AsksFor svc position m) {qs : List Session.Request}
    {n : String} {r : DictRef} (hr : (m.state (svc.performAll {} qs)).shapes.find? n = some r) :
    svc.WrittenFor ((svc.firstPosition {} qs n).getD position) n
      ((m.state (svc.performAll {} qs)).store.get r) := by
  have hvalid := (Service.performAll_spec svc .empty qs).1
  obtain ⟨qs', hqs', hall⟩ := h (svc.performAll {} qs)
  rw [← hqs'] at hr ⊢
  cases hthere : (svc.performAll {} qs).shapes.find? n with
  | none =>
      have hnew : svc.firstPosition {} qs n = none := by
        refine Option.eq_none_iff_forall_ne_some.mpr fun p hp => ?_
        obtain ⟨r', hr'⟩ := Service.exists_find?_of_firstPosition .empty hp
        simp [hthere] at hr'
      obtain ⟨p, hp, hwritten⟩ :=
        (Service.writtenFor_performAll hvalid qs' hr).resolve_left (by simp [hthere])
      obtain ⟨q, hq, hqp⟩ := Service.exists_request_of_firstPosition hp
      rwa [hnew, Option.getD_none, ← hall q hq p hqp]
  | some r' =>
      have hlater := (Service.performAll_spec svc hvalid qs').2.shapes n r' hthere
      obtain rfl : r' = r := Option.some.inj (hlater.symm.trans hr)
      obtain ⟨p, hp, hwritten⟩ :=
        (Service.writtenFor_performAll .empty qs hthere).resolve_left nofun
      rw [hp, Option.getD_some]
      exact hwritten.gains (Service.performAll_gains hvalid qs' (hvalid.shapes n r' hthere).2)

end SessionM.AsksFor

namespace Service

variable {svc : Service}

theorem asksFor_shapeType (svc : Service) (position : Position) (name : String) :
    SessionM.AsksFor svc position (svc.shapeType position name) :=
  .of_perform (.shape position name) (by simp [Session.Request.position?]) fun _ => rfl

theorem asksFor_returnType (svc : Service) (o : Schema.Operation) :
    SessionM.AsksFor svc .output (svc.returnType o) :=
  .of_perform (.returned o) (by simp [Session.Request.position?]) fun _ => rfl

theorem asksFor_memberType (svc : Service) (position : Position) (ref : Schema.ShapeRef) :
    SessionM.AsksFor svc position (svc.memberType position ref) := by
  simp only [memberType, refType]
  split
  · exact asksFor_shapeType svc position ref.shape
  · exact .pure _

end Service

end ServiceStubs
