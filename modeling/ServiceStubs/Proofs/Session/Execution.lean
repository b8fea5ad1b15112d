import Mathlib.Data.List.Forall2
import ServiceStubs.Session.Basic

/-!
# What steps yield and leave

A step in a session has a value and leaves a session.  Both follow the structure
of the step: a sequence of two steps runs the second one in the session that the
first one leaves, and a step that may fail goes on only with a result.

## Main definitions

* `SessionM.val`, `SessionM.state` — the value of a step and the session it
  leaves.
* `Build.outcome`, `Build.state` — the same for a step that may fail.
-/

namespace ServiceStubs

/-! ## Steps -/

namespace SessionM

variable {α β : Type}

/-- The value of a step in a session. -/
def val (m : SessionM α) (s : Session) : α :=
  (m.run s).1

/-- The session that a step leaves. -/
def state (m : SessionM α) (s : Session) : Session :=
  (m.run s).2

@[simp] theorem val_pure (a : α) (s : Session) : val (pure a) s = a := rfl
@[simp] theorem state_pure (a : α) (s : Session) : state (pure a) s = s := rfl

@[simp] theorem val_bind (m : SessionM α) (f : α → SessionM β) (s : Session) :
    val (m >>= f) s = val (f (val m s)) (state m s) := rfl
@[simp] theorem state_bind (m : SessionM α) (f : α → SessionM β) (s : Session) :
    state (m >>= f) s = state (f (val m s)) (state m s) := rfl

@[simp] theorem val_map (f : α → β) (m : SessionM α) (s : Session) :
    val (f <$> m) s = f (val m s) := rfl
@[simp] theorem state_map (f : α → β) (m : SessionM α) (s : Session) :
    state (f <$> m) s = state m s := rfl

@[simp] theorem val_get (s : Session) : val get s = s := rfl
@[simp] theorem state_get (s : Session) : state get s = s := rfl

@[simp] theorem state_modify (f : Session → Session) (s : Session) :
    state (modify f) s = f s := rfl

@[simp] theorem val_modifyGet (f : Session → α × Session) (s : Session) :
    val (modifyGet f) s = (f s).1 := rfl
@[simp] theorem state_modifyGet (f : Session → α × Session) (s : Session) :
    state (modifyGet f) s = (f s).2 := rfl

/-- A loop leaves what its first round and then the others leave. -/
@[simp] theorem state_forM_cons (a : α) (as : List α) (f : α → SessionM Unit) (s : Session) :
    state ((a :: as).forM f) s = state (as.forM f) (state (f a) s) := rfl

@[simp] theorem state_forM_nil (f : α → SessionM Unit) (s : Session) :
    state ([].forM f) s = s := rfl

end SessionM

/-! ## Steps that may fail -/

/-- A sequence has a result exactly when its first step has one, with which the
second one has it. -/
theorem bind_eq_ok_iff {ε α β : Type} {x : Except ε α} {f : α → Except ε β} {b : β} :
    x >>= f = .ok b ↔ ∃ a, x = .ok a ∧ f a = .ok b := by
  cases x with
  | error e => exact ⟨nofun, nofun⟩
  | ok a => exact ⟨fun h => ⟨a, rfl, h⟩, fun ⟨_, h, h'⟩ => Except.ok.inj h ▸ h'⟩

/-- What holds of a result holds of something that there is. -/
theorem exists_of_any {ε α : Type} {x : Except ε α} {p : α → Bool} (h : x.toOption.any p) :
    ∃ a, x = .ok a ∧ p a := by
  cases x with
  | error e => nomatch h
  | ok a => exact ⟨a, rfl, h⟩

/-- A list has results when each of its elements has one. -/
theorem forall₂_of_mapM_eq_ok {ε α β : Type} {f : α → Except ε β} {as : List α} {bs : List β}
    (h : as.mapM f = .ok bs) : List.Forall₂ (fun a b => f a = .ok b) as bs := by
  induction as generalizing bs with
  | nil =>
      obtain rfl := Except.ok.inj h
      exact .nil
  | cons a as ih =>
      rw [List.mapM_cons] at h
      obtain ⟨b, hb, h⟩ := bind_eq_ok_iff.mp h
      obtain ⟨bs, hbs, h⟩ := bind_eq_ok_iff.mp h
      obtain rfl := Except.ok.inj h
      exact .cons hb (ih hbs)

/-- Every result is that of some element. -/
theorem exists_of_mem_forall₂ {α β : Type} {R : α → β → Prop} {as : List α} {bs : List β}
    (h : List.Forall₂ R as bs) {b : β} (hb : b ∈ bs) : ∃ a ∈ as, R a b := by
  induction h with
  | nil => nomatch hb
  | @cons a b' as bs hR _ ih =>
      rcases List.mem_cons.mp hb with rfl | hb
      · exact ⟨a, List.mem_cons_self, hR⟩
      · obtain ⟨a', ha', hR'⟩ := ih hb
        exact ⟨a', List.mem_cons_of_mem a ha', hR'⟩

/-- Results that are named after their elements have those names in order. -/
theorem map_eq_of_forall₂ {α β γ : Type} {f : α → γ} {g : β → γ} {as : List α} {bs : List β}
    (h : List.Forall₂ (fun a b => g b = f a) as bs) : bs.map g = as.map f := by
  induction h with
  | nil => rfl
  | cons hb _ ih => rw [List.map_cons, List.map_cons, hb, ih]

namespace Build

variable {α β : Type}

/-- The result of a step that may fail. -/
def outcome (m : Build α) (s : Session) : Except Error α :=
  SessionM.val m.run s

/-- The session that a step leaves, whether or not it fails. -/
def state (m : Build α) (s : Session) : Session :=
  SessionM.state m.run s

@[simp] theorem outcome_pure (a : α) (s : Session) : outcome (pure a) s = .ok a := rfl
@[simp] theorem state_pure (a : α) (s : Session) : state (pure a) s = s := rfl

@[simp] theorem outcome_throw (e : Error) (s : Session) :
    outcome (throw e : Build α) s = .error e := rfl
@[simp] theorem state_throw (e : Error) (s : Session) :
    state (throw e : Build α) s = s := rfl

@[simp] theorem outcome_ofExcept (r : Except Error α) (s : Session) :
    outcome (ofExcept r) s = r := rfl
@[simp] theorem state_ofExcept (r : Except Error α) (s : Session) :
    state (ofExcept r) s = s := rfl

/-- What is found is passed on. -/
theorem ofExcept_ok_bind (a : α) (f : α → Build β) : ofExcept (.ok a) >>= f = f a := rfl

@[simp] theorem outcome_lift (m : SessionM α) (s : Session) :
    outcome (liftM m) s = .ok (m.val s) := rfl
@[simp] theorem state_lift (m : SessionM α) (s : Session) :
    state (liftM m : Build α) s = m.state s := rfl

/-- A sequence goes on with the result of its first step. -/
theorem outcome_bind_of_ok {m : Build α} {s : Session} {a : α} (h : m.outcome s = .ok a)
    (f : α → Build β) : outcome (m >>= f) s = (f a).outcome (m.state s) := by
  simp only [outcome, ExceptT.run_bind, SessionM.val_bind] at h ⊢
  rw [h]
  rfl

theorem state_bind_of_ok {m : Build α} {s : Session} {a : α} (h : m.outcome s = .ok a)
    (f : α → Build β) : state (m >>= f) s = (f a).state (m.state s) := by
  simp only [outcome, state, ExceptT.run_bind, SessionM.state_bind] at h ⊢
  rw [h]

/-- A sequence ends with the failure of its first step. -/
theorem outcome_bind_of_error {m : Build α} {s : Session} {e : Error}
    (h : m.outcome s = .error e) (f : α → Build β) : outcome (m >>= f) s = .error e := by
  simp only [outcome, ExceptT.run_bind, SessionM.val_bind] at h ⊢
  rw [h]
  rfl

theorem state_bind_of_error {m : Build α} {s : Session} {e : Error}
    (h : m.outcome s = .error e) (f : α → Build β) : state (m >>= f) s = m.state s := by
  simp only [outcome, state, ExceptT.run_bind, SessionM.state_bind] at h ⊢
  rw [h]
  rfl

end Build

end ServiceStubs
