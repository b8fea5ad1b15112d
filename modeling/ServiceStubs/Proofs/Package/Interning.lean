import Mathlib.Logic.Function.Basic
import ServiceStubs.Proofs.Package.HandedOut
import ServiceStubs.Proofs.Session.Frame

/-!
# One dictionary for each name

Several services may keep their dictionaries in one store, each in a session of its
own, and be called in turns.  A name then stands for one dictionary in every session,
by whichever call and at whichever time it is handed out; and no dictionary is ever
in the hands of two sessions, even if their services are the same.

## Main definitions

* `Sessions` — sessions that share a store, with `Sessions.afterAll`, what they are
  after some calls.
* `Sessions.Sound` — each session is consistent, and they own nothing together.
* `Sessions.InHand` — a dictionary that a session has handed out.
* `Sessions.Interned` — dictionaries in hand are told apart by their names.
* `Sessions.interned` — they are, after any calls.
-/

namespace ServiceStubs

/-! ## Sessions that share a store -/

/-- Sessions that keep their dictionaries in one store. -/
structure Sessions (ι : Type) where
  store : Store := ∅
  shapes : ι → DictTable := fun _ => ∅
  fixed : ι → DictTable := fun _ => ∅

namespace Sessions

variable {ι : Type} {i j : ι} {r r' : DictRef}

/-- One of the sessions, in the store that all of them use. -/
def session (w : Sessions ι) (i : ι) : Session where
  store := w.store
  shapes := w.shapes i
  fixed := w.fixed i

/-- Each session is consistent, and no two of them own a dictionary together. -/
structure Sound (svc : ι → Service) (w : Sessions ι) : Prop where
  consistent : ∀ i, ∃ returned, (svc i).Consistent returned (w.session i)
  apart : ∀ i j, i ≠ j → ∀ r, (w.session i).Has r → ¬ (w.session j).Owns r

section Sound

variable {svc : ι → Service} {w : Sessions ι}

/-- New sessions have no dictionaries. -/
theorem Sound.empty : Sound svc {} where
  consistent _ := ⟨_, Service.Consistent.empty⟩
  apart _ _ _ r hr := by rcases hr with hr | hr <;> nomatch hr

theorem Sound.valid (h : Sound svc w) (i : ι) : (w.session i).Valid := by
  obtain ⟨returned, hcons⟩ := h.consistent i
  exact hcons.valid

end Sound

variable [DecidableEq ι]

/-- The sessions when one of them goes on. -/
def put (w : Sessions ι) (i : ι) (s : Session) : Sessions ι where
  store := s.store
  shapes := Function.update w.shapes i s.shapes
  fixed := Function.update w.fixed i s.fixed

variable {w : Sessions ι}

@[simp] theorem session_put_self (w : Sessions ι) (i : ι) (s : Session) :
    (w.put i s).session i = s := by
  simp [put, session]

/-- The others have their tables, and the store as it is then. -/
theorem session_put_of_ne (h : j ≠ i) (s : Session) :
    (w.put i s).session j = { w.session j with store := s.store } := by
  simp [put, session, h]

variable (svc : ι → Service)

/-- The sessions after a call of one of the services. -/
def after (w : Sessions ι) (step : ι × Call) : Sessions ι :=
  w.put step.1 ((svc step.1).after (w.session step.1) step.2)

/-- The sessions after some calls, one after the other, when all of them are new. -/
def afterAll (steps : List (ι × Call)) : Sessions ι :=
  steps.foldl (after svc) {}

theorem afterAll_append (steps more : List (ι × Call)) :
    afterAll svc (steps ++ more) = more.foldl (after svc) (afterAll svc steps) :=
  List.foldl_append

theorem session_after_self (w : Sessions ι) (i : ι) (c : Call) :
    (after svc w (i, c)).session i = (svc i).after (w.session i) c :=
  session_put_self w i _

/-! ## The invariant -/

variable {svc}

/-- Every session grows when one of them is called. -/
theorem Sound.grows (h : Sound svc w) (i : ι) (c : Call) (j : ι) :
    (w.session j).Grows ((after svc w (i, c)).session j) := by
  have hgrows := ((svc i).leads_after (w.session i) c).grows (h.valid i)
  by_cases hji : j = i
  · subst hji
    rw [session_after_self]
    exact hgrows
  · rw [after, session_put_of_ne hji]
    exact ⟨hgrows.size_le, fun _ _ hr => hr, fun _ _ hr => hr, hgrows.name, hgrows.docstring,
      hgrows.fields⟩

/-- A call of one session leaves the others consistent. -/
theorem Sound.consistent_after (h : Sound svc w) (i : ι) (c : Call) (j : ι) :
    ∃ returned, (svc j).Consistent returned ((after svc w (i, c)).session j) := by
  obtain ⟨returned, hcons⟩ := h.consistent j
  by_cases hji : j = i
  · subst hji
    obtain ⟨rs, hrs⟩ := (svc j).leads_after (w.session j) c
    rw [session_after_self, ← hrs]
    exact ⟨_, hcons.performAll rs⟩
  · have hframes := ((svc i).leads_after (w.session i) c).frames (h.valid i)
    refine ⟨returned, hcons.of_kept (h.grows i c j) ?_ ?_ ?_⟩
    · rw [after, session_put_of_ne hji]
    · rw [after, session_put_of_ne hji]
    · intro r hr
      exact hframes.kept r (hcons.valid.inUse hr) (h.apart j i hji r hr)

/-- What one session enters is new to all of them. -/
theorem Sound.apart_after (h : Sound svc w) (i : ι) (c : Call) {a b : ι} (hab : a ≠ b)
    (hr : ((after svc w (i, c)).session a).Has r) : ¬ ((after svc w (i, c)).session b).Owns r := by
  have hframes := ((svc i).leads_after (w.session i) c).frames (h.valid i)
  by_cases hai : a = i
  · -- The session that is called has its old dictionaries, and new ones.
    subst hai
    rw [session_after_self] at hr
    rw [after, session_put_of_ne hab.symm]
    rcases hframes.fresh r hr with hr | hnew
    · exact h.apart a b hab r hr
    · rintro ⟨own, hown, hid⟩
      have huse : w.store.InUse own := (h.valid b).inUse hown
      exact hnew (show r.id < _ from hid ▸ huse)
  · rw [after, session_put_of_ne hai] at hr
    have hr : (w.session a).Has r := hr
    by_cases hbi : b = i
    · -- It takes over nothing that another one has.
      subst hbi
      rw [session_after_self]
      exact hframes.not_owns ((h.valid a).inUse hr) (h.apart a b hab r hr)
    · rw [after, session_put_of_ne hbi]
      exact h.apart a b hab r hr

/-- **A call of one session keeps the invariant of all of them.** -/
theorem Sound.after (h : Sound svc w) (step : ι × Call) : Sound svc (Sessions.after svc w step) where
  consistent := h.consistent_after step.1 step.2
  apart _ _ hab _ hr := h.apart_after step.1 step.2 hab hr

theorem Sound.foldl (h : Sound svc w) (steps : List (ι × Call)) :
    Sound svc (steps.foldl (Sessions.after svc) w) ∧
      ∀ i, (w.session i).Grows ((steps.foldl (Sessions.after svc) w).session i) := by
  induction steps generalizing w with
  | nil => exact ⟨h, fun i => .refl _⟩
  | cons step steps ih =>
      obtain ⟨hsound, hgrows⟩ := ih (h.after step)
      exact ⟨hsound, fun i => (h.grows step.1 step.2 i).trans (hgrows i)⟩

/-- The invariant holds after any calls. -/
theorem sound_afterAll (svc : ι → Service) (steps : List (ι × Call)) :
    Sound svc (afterAll svc steps) :=
  (Sound.empty.foldl steps).1

theorem grows_afterAll (svc : ι → Service) (steps more : List (ι × Call)) (i : ι) :
    ((afterAll svc steps).session i).Grows ((afterAll svc (steps ++ more)).session i) := by
  rw [afterAll_append]
  exact ((sound_afterAll svc steps).foldl more).2 i

/-! ## Dictionaries in hand -/

variable (svc) in
/-- The session has handed out the dictionary: one of its calls made something that
reaches it, at once or when some more calls were made. -/
def InHand (steps : List (ι × Call)) (i : ι) (r : DictRef) : Prop :=
  ∃ before c later more, steps = before ++ (i, c) :: later ++ more ∧
    (afterAll svc (before ++ (i, c) :: later)).store.ReachedFrom
      ((svc i).handed ((afterAll svc before).session i) c) (.dict r)

/-- What is in hand is one of the session's dictionaries. -/
theorem InHand.has {steps : List (ι × Call)} (h : InHand svc steps i r) :
    ((afterAll svc steps).session i).Has r := by
  obtain ⟨before, c, later, more, rfl, hreached⟩ := h
  have hbefore := sound_afterAll svc before
  obtain ⟨hsound, hgrows⟩ := (hbefore.after (i, c)).foldl later
  obtain ⟨returned, hcons⟩ := hsound.consistent i
  have hcovers := (svc i).covers_handed (hbefore.valid i) c
  rw [← session_after_self] at hcovers
  rw [afterAll_append, List.foldl_cons] at hreached
  refine (grows_afterAll svc _ more i).has ?_
  rw [afterAll_append, List.foldl_cons]
  exact hcons.has_of_reachedFrom (hcovers.mono (hgrows i)) hreached

/-- What a call hands out is in hand from then on. -/
theorem inHand_of_mem_handed (before : List (ι × Call)) (c : Call) (later : List (ι × Call))
    (hr : .dict r ∈ (svc i).handed ((afterAll svc before).session i) c) :
    InHand svc (before ++ (i, c) :: later) i r :=
  ⟨before, c, [], later, by simp, .dict r, hr, .dict r, by simp, .refl⟩

/-- A record shape with members is translated to a dictionary of the name that the
shape gives. -/
theorem exists_val_shapeType {sv : Service} {s : Session} (hs : s.Valid) {shapeName n : String}
    {shape : Schema.Shape} (hshape : sv.Describes shapeName shape n) (position : Position) :
    ∃ r, r.name = n ∧ (sv.shapeType position shapeName).val s = .dict r := by
  obtain rfl := hshape.name
  have hform := (Service.shapeType_spec sv hs position shapeName).form
  rw [Service.shapeForm_eq_dict_iff.mpr ⟨rfl, shape, hshape⟩] at hform
  obtain ⟨r, hr⟩ := TypeExpr.exists_of_skeleton_eq_dict hform
  refine ⟨r, ?_, hr⟩
  rw [hr, TypeExpr.skeleton_dict] at hform
  exact congrArg DictRef.name (TypeExpr.dict.inj hform)

/-! ## Names and dictionaries -/

variable (svc) in
/-- After these calls, dictionaries in hand are told apart by their names. -/
structure Interned (steps : List (ι × Call)) : Prop where
  /-- In one session a name stands for one dictionary. -/
  same : ∀ i r r', InHand svc steps i r → InHand svc steps i r' → r.name = r'.name → r = r'
  /-- No dictionary is in the hands of two sessions. -/
  apart : ∀ i j r r', i ≠ j → InHand svc steps i r → InHand svc steps j r' → r.id ≠ r'.id
  /-- A record shape is always translated to the same dictionary. -/
  shapes : ∀ i shapeName shape n, (svc i).Describes shapeName shape n →
    ∀ before position later before' position' later',
      steps = before ++ (i, .shapeType position shapeName) :: later →
      steps = before' ++ (i, .shapeType position' shapeName) :: later' →
        ∃ r, r.name = n ∧
          ((svc i).shapeType position shapeName).val ((afterAll svc before).session i) = .dict r ∧
          ((svc i).shapeType position' shapeName).val ((afterAll svc before').session i) = .dict r
  /-- A dictionary that a package reaches is what the package declares under its name. -/
  packages : ∀ i before later p, steps = before ++ (i, .package) :: later →
    (svc i).package.outcome ((afterAll svc before).session i) = .ok p →
      ∀ r, (afterAll svc steps).store.ReachedFrom (Annotated.annotations p) (.dict r) →
        ∀ d ∈ p.dicts (afterAll svc steps).store, d.name = r.name →
          (afterAll svc steps).store.get r = d

theorem same_of_inHand {steps : List (ι × Call)} (hr : InHand svc steps i r)
    (hr' : InHand svc steps i r') (hname : r.name = r'.name) : r = r' := by
  obtain ⟨returned, hcons⟩ := (sound_afterAll svc steps).consistent i
  exact hcons.eq_of_name hr.has hr'.has hname

/-- A translation of a record shape with members hands out a dictionary of the name
that the shape gives. -/
theorem inHand_of_shapeType {before later : List (ι × Call)} {shapeName n : String}
    {shape : Schema.Shape} (hshape : (svc i).Describes shapeName shape n) (position : Position) :
    ∃ r, r.name = n ∧
      ((svc i).shapeType position shapeName).val ((afterAll svc before).session i) = .dict r ∧
      InHand svc (before ++ (i, .shapeType position shapeName) :: later) i r := by
  obtain ⟨r, hname, hr⟩ :=
    exists_val_shapeType ((sound_afterAll svc before).valid i) hshape position
  refine ⟨r, hname, hr, inHand_of_mem_handed _ _ _ ?_⟩
  simp [Service.handed, SessionM.handed, Annotated.annotations, hr]

/-- What a package reaches is in hand. -/
theorem inHand_of_package {before later : List (ι × Call)} {p : PackageStub}
    (hp : (svc i).package.outcome ((afterAll svc before).session i) = .ok p)
    (hr : (afterAll svc (before ++ (i, .package) :: later)).store.ReachedFrom
      (Annotated.annotations p) (.dict r)) :
    InHand svc (before ++ (i, .package) :: later) i r := by
  refine ⟨before, .package, later, [], by simp, ?_⟩
  have hhanded : (svc i).handed ((afterAll svc before).session i) .package =
      Annotated.annotations p := by
    simp only [Service.handed, Build.handed, hp]
    exact List.append_nil _
  rwa [hhanded]

/-- What a package declares is in hand, and carries its own name. -/
theorem exists_inHand_of_mem_dicts {before later : List (ι × Call)} {p : PackageStub}
    {d : TypedDict} (hp : (svc i).package.outcome ((afterAll svc before).session i) = .ok p)
    (hd : d ∈ p.dicts (afterAll svc (before ++ (i, .package) :: later)).store) :
    ∃ r, InHand svc (before ++ (i, .package) :: later) i r ∧ d.name = r.name ∧
      (afterAll svc (before ++ (i, .package) :: later)).store.get r = d := by
  obtain ⟨r, hr, rfl⟩ := PackageStub.mem_dicts_iff.mp hd
  obtain ⟨b, hb, hreaches⟩ := PackageStub.exists_reaches_of_mem_types hr
  have hhand := inHand_of_package hp ⟨b, List.mem_append.mpr hb, hreaches⟩
  obtain ⟨returned, hcons⟩ :=
    (sound_afterAll svc (before ++ (i, .package) :: later)).consistent i
  exact ⟨r, hhand, hcons.get_name hhand.has, rfl⟩

/-- **After any calls of any sessions, dictionaries in hand are told apart by their
names in each of them, and no two of them hold one together.** -/
theorem interned (svc : ι → Service) (steps : List (ι × Call)) : Interned svc steps where
  same _ _ _ hr hr' hname := same_of_inHand hr hr' hname
  apart i j r r' hij hr hr' hid :=
    (sound_afterAll svc steps).apart i j hij r hr.has ⟨r', hr'.has, hid.symm⟩
  shapes := by
    intro i shapeName shape n hshape before position later before' position' later' hsteps hsteps'
    obtain ⟨r, hname, hr, hhand⟩ := inHand_of_shapeType hshape position
    obtain ⟨r', hname', hr', hhand'⟩ := inHand_of_shapeType hshape position'
    rw [← hsteps] at hhand
    rw [← hsteps'] at hhand'
    obtain rfl := same_of_inHand hhand hhand' (hname.trans hname'.symm)
    exact ⟨r, hname, hr, hr'⟩
  packages := by
    rintro i before later p rfl hp r hr d hd hname
    obtain ⟨r', hr', hname', rfl⟩ := exists_inHand_of_mem_dicts hp hd
    rw [same_of_inHand (inHand_of_package hp hr) hr' (hname.symm.trans hname')]

end Sessions

/-! ## Two services of boxes -/

/-- Two services of the same boxes. -/
def boxes : Bool → Service :=
  fun _ => Service.ofSchema boxSchema

/-- The type of boxes is one dictionary for each of two services of boxes, which are
called in turns, and not the same one for both. -/
theorem boxes_interned :
    ∃ r r' : DictRef, r.name = "BoxTypeDef" ∧ r'.name = "BoxTypeDef" ∧ r.id ≠ r'.id ∧
      (boxes false).handed {} (.shapeType .output "Box") = [.dict r] ∧
      (boxes true).handed ((Sessions.afterAll boxes [(false, .shapeType .output "Box")]).session true)
        (.shapeType .output "Box") = [.dict r'] ∧
      (boxes false).handed ((Sessions.afterAll boxes
        [(false, .shapeType .output "Box"), (true, .shapeType .output "Box")]).session false)
        (.shapeType .input "Box") = [.dict r] := by
  have hbox : ∃ shape, (Service.ofSchema boxSchema).Describes "Box" shape "BoxTypeDef" :=
    ⟨_, by rfl, rfl, rfl, by decide⟩
  obtain ⟨shape, hshape⟩ := hbox
  let first : Bool × Call := (false, .shapeType .output "Box")
  let second : Bool × Call := (true, .shapeType .output "Box")
  let third : Bool × Call := (false, .shapeType .input "Box")
  have h := Sessions.interned boxes [first, second, third]
  obtain ⟨r, hname, hfirst, hthird⟩ := h.shapes false "Box" shape "BoxTypeDef" hshape
    [] .output [second, third] [first, second] .input [] rfl rfl
  obtain ⟨r', hname', hsecond, -⟩ := h.shapes true "Box" shape "BoxTypeDef" hshape
    [first] .output [third] [first] .output [third] rfl rfl
  have hr : Sessions.InHand boxes [first, second, third] false r :=
    Sessions.inHand_of_mem_handed [] (.shapeType .output "Box") [second, third]
      (List.mem_singleton.mpr hfirst.symm)
  have hr' : Sessions.InHand boxes [first, second, third] true r' :=
    Sessions.inHand_of_mem_handed [first] (.shapeType .output "Box") [third]
      (List.mem_singleton.mpr hsecond.symm)
  exact ⟨r, r', hname, hname', h.apart false true r r' (by decide) hr hr',
    congrArg (fun a => [a]) hfirst, congrArg (fun a => [a]) hsecond,
    congrArg (fun a => [a]) hthird⟩

end ServiceStubs
