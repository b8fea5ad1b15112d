import ServiceStubs.Proofs.Session.Request

/-!
# Steps that only make requests

Every step that makes a part of a package asks its session for things, and what
it makes refers to what the session then has.  Both are shown for a step by
showing them for its parts: the rules are those of a program logic, where the
precondition is a valid session.

## Main definitions

* `SessionM.Yields`, `Build.Yields` — the step makes requests only, and its value,
  if it has one, satisfies a condition.
* `SessionM.Yields.bind`, `Build.Yields.bind` — one step after the other.
* `Build.Yields.mapM` — a step for each element of a list.
-/

namespace ServiceStubs

variable {svc : Service} {s t : Session} {α β : Type}

/-! ## Steps -/

namespace SessionM

/-- From the session `s` the step makes requests only, and it has a value with
`Q`. -/
structure Yields (svc : Service) (s : Session) (m : SessionM α) (Q : Session → α → Prop) :
    Prop where
  leads : svc.Leads s (m.state s)
  holds : Q (m.state s) (m.val s)

namespace Yields

variable {m : SessionM α} {P Q : Session → α → Prop} {R : Session → β → Prop}

theorem pure {a : α} (h : Q s a) : Yields svc s (Pure.pure a) Q :=
  ⟨.refl s, h⟩

/-- The second step starts in a session that has grown. -/
theorem bind {f : α → SessionM β} (h : Yields svc s m Q) (hs : s.Valid)
    (hf : ∀ t a, t.Valid → s.Grows t → Q t a → Yields svc t (f a) R) :
    Yields svc s (m >>= f) R := by
  have h' := hf (m.state s) (m.val s) (h.leads.valid hs) (h.leads.grows hs) h.holds
  exact ⟨h.leads.trans h'.leads, h'.holds⟩

theorem imp (h : Yields svc s m P) (hPQ : ∀ t a, P t a → Q t a) : Yields svc s m Q :=
  ⟨h.leads, hPQ _ _ h.holds⟩

/-- A step for each element of a list yields a list of values, if the condition
on each value outlasts the growth of the session. -/
theorem mapM {f : α → SessionM β} {R : α → Session → β → Prop} {as : List α} (hs : s.Valid)
    (hstable : ∀ a t u b, t.Grows u → R a t b → R a u b)
    (hf : ∀ a ∈ as, ∀ t, t.Valid → s.Grows t → Yields svc t (f a) (R a)) :
    Yields svc s (as.mapM f) fun t bs => List.Forall₂ (R · t) as bs := by
  induction as generalizing s with
  | nil => exact .pure .nil
  | cons a as ih =>
      rw [List.mapM_cons]
      refine (hf a List.mem_cons_self s hs (.refl s)).bind hs fun t b ht hst hb => ?_
      refine (ih ht fun a' ha' u hu htu => hf a' (List.mem_cons_of_mem a ha') u hu
        (hst.trans htu)).bind ht fun u bs _ htu hbs => ?_
      exact .pure (.cons (hstable a t u b htu hb) hbs)

end Yields

end SessionM

/-! ## Steps that may fail -/

namespace Build

/-- From the session `s` the step makes requests only, and its result, if it has
one, satisfies `Q`. -/
structure Yields (svc : Service) (s : Session) (m : Build α) (Q : Session → α → Prop) :
    Prop where
  leads : svc.Leads s (m.state s)
  holds : ∀ a, m.outcome s = .ok a → Q (m.state s) a

namespace Yields

variable {m : Build α} {P Q : Session → α → Prop} {R : Session → β → Prop}

theorem pure {a : α} (h : Q s a) : Yields svc s (Pure.pure a) Q :=
  ⟨.refl s, by rintro a ⟨⟩; exact h⟩

theorem throw (e : Error) : Yields svc s (throw e : Build α) Q :=
  ⟨.refl s, nofun⟩

theorem lift {m : SessionM α} (h : SessionM.Yields svc s m Q) :
    Yields svc s (liftM m : Build α) Q :=
  ⟨h.leads, by rintro a ⟨⟩; exact h.holds⟩

/-- The second step starts in a session that has grown, if there is a first
result at all. -/
theorem bind {f : α → Build β} (h : Yields svc s m Q) (hs : s.Valid)
    (hf : ∀ t a, t.Valid → s.Grows t → Q t a → Yields svc t (f a) R) :
    Yields svc s (m >>= f) R := by
  cases hm : m.outcome s with
  | error e =>
      refine ⟨?_, ?_⟩
      · rw [state_bind_of_error hm]
        exact h.leads
      · rw [outcome_bind_of_error hm]
        exact nofun
  | ok a =>
      have h' := hf (m.state s) a (h.leads.valid hs) (h.leads.grows hs) (h.holds a hm)
      refine ⟨?_, ?_⟩
      · rw [state_bind_of_ok hm]
        exact h.leads.trans h'.leads
      · rw [outcome_bind_of_ok hm, state_bind_of_ok hm]
        exact h'.holds

/-- What is looked up is there in the same session. -/
theorem ofExcept_bind {r : Except Error α} {f : α → Build β}
    (h : ∀ a, r = .ok a → Yields svc s (f a) R) : Yields svc s (Build.ofExcept r >>= f) R := by
  cases r with
  | error e => exact ⟨.refl s, nofun⟩
  | ok a => exact h a rfl

theorem lift_bind {m : SessionM α} {f : α → Build β} (h : SessionM.Yields svc s m Q)
    (hs : s.Valid) (hf : ∀ t a, t.Valid → s.Grows t → Q t a → Yields svc t (f a) R) :
    Yields svc s (liftM m >>= f) R :=
  (Yields.lift h).bind hs hf

theorem imp (h : Yields svc s m P) (hPQ : ∀ t a, P t a → Q t a) : Yields svc s m Q :=
  ⟨h.leads, fun a ha => hPQ _ a (h.holds a ha)⟩

/-- A step for each element of a list yields a list of results, if the condition
on each result outlasts the growth of the session. -/
theorem mapM {f : α → Build β} {R : α → Session → β → Prop} {as : List α} (hs : s.Valid)
    (hstable : ∀ a t u b, t.Grows u → R a t b → R a u b)
    (hf : ∀ a ∈ as, ∀ t, t.Valid → s.Grows t → Yields svc t (f a) (R a)) :
    Yields svc s (as.mapM f) fun t bs => List.Forall₂ (R · t) as bs := by
  induction as generalizing s with
  | nil => exact .pure .nil
  | cons a as ih =>
      rw [List.mapM_cons]
      refine (hf a List.mem_cons_self s hs (.refl s)).bind hs fun t b ht hst hb => ?_
      refine (ih ht fun a' ha' u hu htu => hf a' (List.mem_cons_of_mem a ha') u hu
        (hst.trans htu)).bind ht fun u bs _ htu hbs => ?_
      exact .pure (.cons (hstable a t u b htu hb) hbs)

end Yields

end Build

namespace Service

/-! ## The requests themselves -/

theorem yields_memberType (hs : s.Valid) (position : Position) (ref : Schema.ShapeRef) :
    SessionM.Yields svc s (svc.memberType position ref) fun t a => svc.Known t a := by
  refine ⟨?_, (memberType_spec svc hs position ref).known⟩
  by_cases hdeclared : svc.model.shapes.contains ref.shape
  · refine ⟨[.shape position ref.shape], ?_⟩
    simp [performAll, perform, memberType, refType, hdeclared]
  · refine ⟨[], ?_⟩
    simp [performAll, memberType, refType, hdeclared]

theorem yields_fixedDict (hs : s.Valid) (d : FixedDict) :
    SessionM.Yields svc s (Session.fixedDict d) fun t a => svc.Known t a := by
  refine ⟨⟨[.fixed d], rfl⟩, ?_⟩
  obtain ⟨ref, hval, hfind⟩ := Session.find?_fixedDict d s
  rw [hval, known_dict]
  exact (hs.fixedDict d).has_fixed hfind

theorem yields_returnType (hs : s.Valid) (o : Schema.Operation) :
    SessionM.Yields svc s (svc.returnType o) fun t a => svc.Known t a := by
  refine ⟨⟨[.returned o], rfl⟩, ?_⟩
  cases houtput : o.output with
  | none =>
      rw [(returnType_of_none svc houtput s).1]
      exact known_looseDict
  | some output =>
      have h := shapeType_spec svc hs .output output.shape
      obtain ⟨hval, ⟨ref, href, hstate⟩ | ⟨-, hstate⟩⟩ := returnType_of_some svc houtput s <;>
        rw [hval, hstate]
      · have hhas : ((svc.shapeType .output output.shape).state s).Has ref := by
          simpa [href] using h.known
        exact h.known.mono fun r hr =>
          (grows_addMetadata ((h.ext.valid hs).inUse hhas)).has hr
      · exact h.known

end Service

end ServiceStubs
