import ServiceStubs.Proofs.Session.Agree
import ServiceStubs.Proofs.Session.Distinct
import ServiceStubs.Proofs.Session.Yields

/-!
# What is alike in one session is the same

In one session a name stands for one dictionary.  So types of the session that
differ in the numbers of handles only do not differ at all, and the same goes for
what is declared with such types.  Together with the agreement of steps in all
sessions this tells what a step makes in a session, if it is known what some other
session made in its place.

## Main definitions

* `TypeExpr.eq_of_skeleton_eq` — types whose dictionaries are told apart by their
  names.
* `Service.Consistent.eq_of_alike`, `Service.Consistent.function_eq_of_alike` — types
  and functions of one session.
* `SessionM.Always`, `Build.Always` — a step makes the like of something in every
  session.
* `Service.Runs` — a step is taken on the way to a session.
* `Service.outcome_eq_of_always` — what such a step makes.
-/

namespace ServiceStubs

/-! ## Types -/

namespace TypeExpr

mutual

/-- The skeleton decides an expression whose dictionaries are told apart by their
names. -/
theorem eq_of_skeleton_eq {P : DictRef → Prop}
    (hinj : ∀ r r', P r → P r' → r.name = r'.name → r = r') : (a b : TypeExpr) →
    (∀ r, .dict r ∈ a.nodes → P r) → (∀ r, .dict r ∈ b.nodes → P r) →
    a.skeleton = b.skeleton → a = b
  | .subscript g as, .subscript g' bs, ha, hb, h => by
      simp only [skeleton, TypeExpr.subscript.injEq] at h
      obtain ⟨rfl, h⟩ := h
      rw [eqs_of_skeletons_eq hinj as bs
        (fun r a hmem hr => ha r (mem_nodes_subscript.mpr (.inr ⟨a, hmem, hr⟩)))
        (fun r b hmem hr => hb r (mem_nodes_subscript.mpr (.inr ⟨b, hmem, hr⟩))) h]
  | .dict r, .dict r', ha, hb, h => by
      have hname : r.name = r'.name := by simpa [skeleton] using h
      rw [hinj r r' (ha r (by simp)) (hb r' (by simp)) hname]
  | .scalar _, .scalar _, _, _, h => h
  | .literal _, .literal _, _, _, h => h
  | .external _ _ _, .external _ _ _, _, _, h => h
  | .internal _ _, .internal _ _, _, _, h => h

theorem eqs_of_skeletons_eq {P : DictRef → Prop}
    (hinj : ∀ r r', P r → P r' → r.name = r'.name → r = r') : (as bs : List TypeExpr) →
    (∀ r, ∀ a ∈ as, .dict r ∈ a.nodes → P r) → (∀ r, ∀ b ∈ bs, .dict r ∈ b.nodes → P r) →
    skeletons as = skeletons bs → as = bs
  | [], [], _, _, _ => rfl
  | a :: as, b :: bs, ha, hb, h => by
      obtain ⟨h, h'⟩ := List.cons.inj h
      rw [eq_of_skeleton_eq hinj a b (fun r => ha r a List.mem_cons_self)
          (fun r => hb r b List.mem_cons_self) h,
        eqs_of_skeletons_eq hinj as bs (fun r a ha' => ha r a (List.mem_cons_of_mem _ ha'))
          (fun r b hb' => hb r b (List.mem_cons_of_mem _ hb')) h']

end

end TypeExpr

namespace Service

variable {svc : Service} {s : Session}

theorem typed_typeExpr {own : List TypeExpr} {a : TypeExpr} :
    svc.Typed s own a ↔ a ∈ own ∨ svc.Known s a := by
  simp [Typed, Annotated.annotations]

theorem known_of_typed {a : TypeExpr} (h : svc.Typed s [] a) : svc.Known s a :=
  (typed_typeExpr.mp h).resolve_left List.not_mem_nil

/-- Lists that are alike are the same when their elements are. -/
theorem list_eq_of_alike {α : Type} [Annotated α] [Skeletal α] {xs ys : List α}
    (heq : ∀ x y : α, svc.Typed s [] x → svc.Typed s [] y → Alike x y → x = y)
    (hxs : svc.Typed s [] xs) (hys : svc.Typed s [] ys) (h : Alike xs ys) : xs = ys := by
  rw [alike_list_iff] at h
  induction h with
  | nil => rfl
  | cons hxy _ ih =>
      obtain ⟨hx, hxs⟩ := typed_cons.mp hxs
      obtain ⟨hy, hys⟩ := typed_cons.mp hys
      rw [heq _ _ hx hy hxy, ih hxs hys]

namespace Consistent

variable {returned : String → Prop} {a b : TypeExpr}

/-- **Types of one session that are alike are the same.** -/
theorem eq_of_alike (h : svc.Consistent returned s) (ha : svc.Known s a) (hb : svc.Known s b)
    (hab : Alike a b) : a = b :=
  TypeExpr.eq_of_skeleton_eq (fun _ _ => h.eq_of_name) a b (fun _ hr => ha _ hr)
    (fun _ hr => hb _ hr) hab

theorem argument_eq_of_alike (h : svc.Consistent returned s) {a b : Argument}
    (ha : svc.Typed s [] a) (hb : svc.Typed s [] b) (hab : Alike a b) : a = b := by
  obtain ⟨hname, htype, hdefault, hstars⟩ := alike_argument_iff.mp hab
  have htype : a.type = b.type := by
    rcases htype.cases_option with ⟨hc, hd⟩ | ⟨c, d, hc, hd, hcd⟩
    · rw [hc, hd]
    · have hknown := typed_typeExpr.mpr (typed_argument_iff.mp ha c hc)
      have hknown' := typed_typeExpr.mpr (typed_argument_iff.mp hb d hd)
      rw [hc, hd, h.eq_of_alike (known_of_typed hknown) (known_of_typed hknown') hcd]
  cases a
  cases b
  simp only [Argument.mk.injEq]
  exact ⟨hname, htype, hdefault, hstars⟩

theorem arguments_eq_of_alike (h : svc.Consistent returned s) {as bs : List Argument}
    (has : svc.Typed s [] as) (hbs : svc.Typed s [] bs) (hab : Alike as bs) : as = bs :=
  list_eq_of_alike (fun _ _ => h.argument_eq_of_alike) has hbs hab

/-- **Functions of one session that are alike are the same.** -/
theorem function_eq_of_alike (h : svc.Consistent returned s) {f g : FunctionStub}
    (hf : svc.Typed s [] f) (hg : svc.Typed s [] g) (hfg : Alike f g) : f = g := by
  obtain ⟨hname, has, htype, hdoc, hdecorators, hbody⟩ := alike_function_iff.mp hfg
  obtain ⟨hfas, hftype, hfdecorators⟩ := typed_function_iff.mp hf
  obtain ⟨hgas, hgtype, hgdecorators⟩ := typed_function_iff.mp hg
  simp only [← typed_typeExpr, ← typed_list_iff] at hftype hfdecorators hgtype hgdecorators
  have htypes : ∀ a b : TypeExpr, svc.Typed s [] a → svc.Typed s [] b → Alike a b → a = b :=
    fun _ _ ha hb => h.eq_of_alike (known_of_typed ha) (known_of_typed hb)
  have has : f.arguments = g.arguments := h.arguments_eq_of_alike hfas hgas has
  have hdecorators : f.decorators = g.decorators :=
    list_eq_of_alike htypes hfdecorators hgdecorators hdecorators
  have htype : f.returnType = g.returnType := htypes _ _ hftype hgtype htype
  cases f
  cases g
  simp only [FunctionStub.mk.injEq]
  exact ⟨hname, has, htype, hdoc, hdecorators, hbody⟩

end Consistent

end Service

/-! ## Steps that do the like in every session -/

namespace SessionM

variable {α : Type} [Annotated α] [Skeletal α] {m : SessionM α}

/-- In every valid session the step makes the like of `a`, and leaves a valid
session. -/
def Always (m : SessionM α) (a : α) : Prop :=
  ∀ s : Session, s.Valid → (m.state s).Valid ∧ Alike (m.val s) a

/-- A step that agrees with itself always makes the like of what it makes in some
session. -/
theorem Agree.always {s : Session} (h : Agree m m) (hs : s.Valid) : Always m (m.val s) := by
  intro t ht
  obtain ⟨hvalid, -, halike⟩ := h t s ht hs
  exact ⟨hvalid, halike⟩

namespace Always

variable {β : Type} [Annotated β] [Skeletal β] {a b : α}

theorem pure (h : Alike a b) : Always (Pure.pure a) b :=
  fun _ hs => ⟨hs, h⟩

theorem bind {f : α → SessionM β} {b : β} (h : Always m a)
    (hf : ∀ a', Alike a' a → Always (f a') b) : Always (m >>= f) b := by
  intro s hs
  obtain ⟨hvalid, ha⟩ := h s hs
  exact hf (m.val s) ha (m.state s) hvalid

end Always

end SessionM

namespace Build

variable {α β : Type} [Annotated α] [Skeletal α] [Annotated β] [Skeletal β]

/-- In every valid session the step succeeds with the like of `a`, and leaves a
valid session. -/
def Always (m : Build α) (a : α) : Prop :=
  ∀ s : Session, s.Valid → (m.state s).Valid ∧ ∃ a', m.outcome s = .ok a' ∧ Alike a' a

namespace Always

theorem pure {a b : α} (h : Alike a b) : Always (Pure.pure a) b :=
  fun _ hs => ⟨hs, a, rfl, h⟩

theorem lift {m : SessionM α} {a : α} (h : SessionM.Always m a) : Always (liftM m : Build α) a :=
  fun s hs => ⟨(h s hs).1, m.val s, rfl, (h s hs).2⟩

theorem lift_bind {m : SessionM α} {f : α → Build β} {a : α} {b : β} (h : SessionM.Always m a)
    (hf : ∀ a', Alike a' a → Always (f a') b) : Always (liftM m >>= f) b := by
  intro s hs
  obtain ⟨hvalid, ha⟩ := h s hs
  exact hf (m.val s) ha (m.state s) hvalid

theorem ofExcept_bind {γ : Type} {r : Except Error γ} {f : γ → Build β} {c : γ} {b : β}
    (hr : r = .ok c) (hf : Always (f c) b) : Always (Build.ofExcept r >>= f) b := by
  subst hr
  exact hf

end Always

end Build

/-- A dictionary that every service has is always the like of the ones of its
name. -/
theorem always_fixedDict {d : FixedDict} {ref : DictRef} (h : ref.name = d.name) :
    SessionM.Always (Session.fixedDict d) (.dict ref) := by
  intro s hs
  obtain ⟨ref', hval, hfind⟩ := Session.find?_fixedDict d s
  have hname : ref'.name = d.name := ((hs.fixedDict d).fixed _ ref' hfind).1
  refine ⟨hs.fixedDict d, ?_⟩
  rw [hval]
  exact congrArg (fun n => TypeExpr.dict ⟨0, n⟩) (hname.trans h.symm)

/-! ## Steps on the way to a session -/

namespace Service

variable {svc : Service} {s u : Session} {α : Type}

variable (svc) in
/-- The step is taken in the session `s`, which is new but for requests, and more
requests lead on to `u`. -/
structure Runs (s : Session) (m : Build α) (u : Session) : Prop where
  before : svc.Leads {} s
  after : svc.Leads (m.state s) u

theorem Runs.valid {m : Build α} (h : svc.Runs s m u) : s.Valid :=
  h.before.valid .empty

/-- The session at the end keeps what the step enters, and knows what it makes. -/
theorem Runs.grows {m : Build α} {Q : Session → α → Prop} (h : svc.Runs s m u)
    (hm : Build.Yields svc s m Q) : (m.state s).Grows u :=
  h.after.grows (hm.leads.valid h.valid)

theorem Runs.consistent {m : Build α} {Q : Session → α → Prop} (h : svc.Runs s m u)
    (hm : Build.Yields svc s m Q) : ∃ returned, svc.Consistent returned u := by
  obtain ⟨rs, rfl⟩ := h.before.trans (hm.leads.trans h.after)
  exact ⟨_, consistent_performAll svc rs⟩

theorem Runs.typed [Annotated α] {m : Build α} {own : List TypeExpr} {a : α} (h : svc.Runs s m u)
    (hm : Build.Yields svc s m (svc.Typed · own)) (ha : m.outcome s = .ok a) :
    svc.Typed u own a :=
  (hm.holds a ha).mono (h.grows hm)

/-- **A step that always makes the like of a function makes this function itself, in
a session that knows it.** -/
theorem outcome_eq_of_always {m : Build FunctionStub} {f : FunctionStub} (hm : m.Always f)
    (hyields : Build.Yields svc s m (svc.Typed · [])) (h : svc.Runs s m u)
    (hf : svc.Typed u [] f) : m.outcome s = .ok f := by
  obtain ⟨-, g, hg, halike⟩ := hm s h.valid
  obtain ⟨returned, hcons⟩ := h.consistent hyields
  rw [hg, hcons.function_eq_of_alike (h.typed hyields hg) hf halike]

end Service

end ServiceStubs
