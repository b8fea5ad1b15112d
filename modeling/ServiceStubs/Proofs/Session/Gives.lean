import ServiceStubs.Proofs.Session.Execution

/-!
# What steps can give

Much of what a step makes is the same in every session: a method takes arguments
of the same names whatever was asked before.  Such facts need no account of
sessions.  They are found by taking apart how a value came about: a sequence of
two steps gives what its second step gives for something that the first one
gives.

## Main definitions

* `SessionM.Gives`, `Build.Gives` — in some session the step has a certain value.
* `SessionM.Gives.of_bind`, `Build.Gives.of_bind` and their kin — how the value
  came about.
-/

namespace ServiceStubs

variable {α β : Type}

/-! ## Steps -/

namespace SessionM

/-- In some session the value of the step is `a`. -/
def Gives (m : SessionM α) (a : α) : Prop :=
  ∃ s, m.val s = a

namespace Gives

variable {m : SessionM α} {f : α → SessionM β} {a a' : α} {b : β}

theorem of_pure (h : Gives (pure a) a') : a = a' := by
  obtain ⟨s, h⟩ := h
  exact h

theorem of_bind (h : Gives (m >>= f) b) : ∃ a, m.Gives a ∧ (f a).Gives b := by
  obtain ⟨s, h⟩ := h
  exact ⟨m.val s, ⟨s, rfl⟩, m.state s, h⟩

/-- Each element of a list has given its value. -/
theorem of_mapM {f : α → SessionM β} {as : List α} {bs : List β} (h : Gives (as.mapM f) bs) :
    List.Forall₂ (fun a b => (f a).Gives b) as bs := by
  induction as generalizing bs with
  | nil =>
      obtain rfl := h.of_pure
      exact .nil
  | cons a as ih =>
      rw [List.mapM_cons] at h
      obtain ⟨b, hb, h⟩ := h.of_bind
      obtain ⟨bs, hbs, h⟩ := h.of_bind
      obtain rfl := h.of_pure
      exact .cons hb (ih hbs)

end Gives

end SessionM

/-! ## Steps that may fail -/

namespace Build

/-- In some session the step has the result `a`. -/
def Gives (m : Build α) (a : α) : Prop :=
  ∃ s, m.outcome s = .ok a

namespace Gives

variable {m : Build α} {f : α → Build β} {a a' : α} {b : β}

theorem of_pure (h : Gives (pure a) a') : a = a' := by
  obtain ⟨s, h⟩ := h
  exact Except.ok.inj h

theorem of_throw {e : Error} : ¬ Gives (throw e : Build α) a :=
  nofun

theorem of_lift {m : SessionM α} (h : Gives (liftM m) a) : m.Gives a := by
  obtain ⟨s, h⟩ := h
  exact ⟨s, Except.ok.inj h⟩

theorem of_bind (h : Gives (m >>= f) b) : ∃ a, m.Gives a ∧ (f a).Gives b := by
  obtain ⟨s, h⟩ := h
  cases hm : m.outcome s with
  | error e =>
      rw [outcome_bind_of_error hm] at h
      nomatch h
  | ok a =>
      rw [outcome_bind_of_ok hm] at h
      exact ⟨a, ⟨s, hm⟩, m.state s, h⟩

theorem of_ofExcept_bind {r : Except Error α} (h : Gives (ofExcept r >>= f) b) :
    ∃ a, r = .ok a ∧ (f a).Gives b := by
  obtain ⟨a, ⟨s, ha⟩, hb⟩ := h.of_bind
  exact ⟨a, ha, hb⟩

theorem of_lift_bind {m : SessionM α} (h : Gives (liftM m >>= f) b) :
    ∃ a, m.Gives a ∧ (f a).Gives b := by
  obtain ⟨a, ha, hb⟩ := h.of_bind
  exact ⟨a, ha.of_lift, hb⟩

/-- Each element of a list has given its result. -/
theorem of_mapM {f : α → Build β} {as : List α} {bs : List β} (h : Gives (as.mapM f) bs) :
    List.Forall₂ (fun a b => (f a).Gives b) as bs := by
  induction as generalizing bs with
  | nil =>
      obtain rfl := h.of_pure
      exact .nil
  | cons a as ih =>
      rw [List.mapM_cons] at h
      obtain ⟨b, hb, h⟩ := h.of_bind
      obtain ⟨bs, hbs, h⟩ := h.of_bind
      obtain rfl := h.of_pure
      exact .cons hb (ih hbs)

end Gives

end Build

end ServiceStubs
