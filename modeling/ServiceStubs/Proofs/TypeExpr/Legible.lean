import Mathlib.Data.String.Basic
import ServiceStubs.Proofs.Collection.KeyedSet
import ServiceStubs.Proofs.Json.Tokens
import ServiceStubs.Proofs.TypeExpr.Nodes
import ServiceStubs.TypeExpr.Closure
import ServiceStubs.TypeExpr.Definition

/-!
# Texts tell types apart

Types are compared, ordered, collected and removed by their texts.  A text can be read in
one way only: it starts with a word, and a bracket behind the word says that a list follows,
whose items are told apart by their commas.  The strings of a literal may contain brackets
and commas too, but they stand between quotes, and a quote inside is escaped.  So two types
have one text only if they are built alike from leaves with the same texts.

The idea of the induction is the usual one for codes without prefixes: of two texts with
anything behind them that is equal, the texts are equal and what is behind them is too.

## Main definitions

* `TypeExpr.sameTree` — types that are built alike.
* `TypeExpr.Legible` — types whose leaves are words, and told apart by them.
* `TypeExpr.TellsApart` — a text that can be read in one way, whatever is behind it.
* `TypeExpr.same_eq_sameTree` — comparing texts is comparing types.
-/

namespace ServiceStubs

open Json (NotFirst takeWhile_append_notFirst)

namespace TypeExpr

/-! ## Types that are built alike -/

mutual

/-- The types are built alike: by the same constructors from the same generics, values and
leaves, in the same order.  Types of other modules are the same when they are called the
same. -/
def sameTree : TypeExpr → TypeExpr → Bool
  | .scalar s, .scalar s' => s = s'
  | .literal values, .literal values' => values = values'
  | .subscript g args, .subscript g' args' => g = g' && sameTrees args args'
  | .dict r, .dict r' => r = r'
  | .external _ name asName, .external _ name' asName' => asName.getD name = asName'.getD name'
  | .internal name _, .internal name' _ => name = name'
  | _, _ => false

/-- The types of two lists are built alike, one by one. -/
def sameTrees : List TypeExpr → List TypeExpr → Bool
  | [], [] => true
  | a :: as, b :: bs => sameTree a b && sameTrees as bs
  | _, _ => false

end

/-- A type without parts. -/
def isLeaf : TypeExpr → Bool
  | .literal _ => false
  | .subscript _ _ => false
  | _ => true

theorem sameTrees_of_forall₂ {as bs : List TypeExpr}
    (h : List.Forall₂ (fun a b => a.sameTree b) as bs) : sameTrees as bs := by
  induction h with
  | nil => rfl
  | cons hab _ ih => simp [sameTrees, hab, ih]

mutual

/-- Types that are built alike are written alike. -/
theorem text_eq_of_sameTree : (a b : TypeExpr) → a.sameTree b → a.text = b.text
  | .scalar s, b, h => by
      cases b <;> simp_all [sameTree, text]
  | .literal values, b, h => by
      cases b <;> simp_all [sameTree, text]
  | .subscript g args, b, h => by
      cases b with
      | subscript g' args' =>
          simp only [sameTree, Bool.and_eq_true, decide_eq_true_eq] at h
          obtain ⟨rfl, hargs⟩ := h
          have htexts := texts_eq_of_sameTrees args args' hargs
          have hempty : args.isEmpty = args'.isEmpty := by
            cases args <;> cases args' <;> first | rfl | nomatch hargs
          rw [text, text, htexts, hempty]
      | _ => nomatch h
  | .dict r, b, h => by
      cases b <;> simp_all [sameTree, text]
  | .external _ _ _, b, h => by
      cases b <;> simp_all [sameTree, text]
  | .internal _ _, b, h => by
      cases b <;> simp_all [sameTree, text]

theorem texts_eq_of_sameTrees : (as bs : List TypeExpr) → sameTrees as bs → texts as = texts bs
  | [], bs, h => by
      cases bs with
      | nil => rfl
      | cons b bs => nomatch h
  | a :: as, bs, h => by
      cases bs with
      | nil => nomatch h
      | cons b bs =>
          simp only [sameTrees, Bool.and_eq_true] at h
          rw [texts, texts, text_eq_of_sameTree a b h.1, texts_eq_of_sameTrees as bs h.2]

end

mutual

/-- Types that are built alike are equal where their leaves are. -/
theorem eq_of_sameTree : (a b : TypeExpr) → a.sameTree b →
    (∀ x ∈ a.nodes, ∀ y ∈ b.nodes, x.isLeaf → y.isLeaf → x.text = y.text → x = y) → a = b
  | .scalar _, b, h, _ => by
      cases b <;> simp_all [sameTree]
  | .literal _, b, h, _ => by
      cases b <;> simp_all [sameTree]
  | .subscript g args, b, h, hleaves => by
      cases b with
      | subscript g' args' =>
          simp only [sameTree, Bool.and_eq_true, decide_eq_true_eq] at h
          obtain ⟨rfl, hargs⟩ := h
          refine congrArg _ (eqs_of_sameTrees args args' hargs fun x hx y hy => ?_)
          exact hleaves x (List.mem_cons_of_mem _ hx) y (List.mem_cons_of_mem _ hy)
      | _ => nomatch h
  | .dict r, b, h, _ => by
      cases b <;> simp_all [sameTree]
  | .external source name asName, b, h, hleaves => by
      have htext := text_eq_of_sameTree _ b h
      cases b with
      | external source' name' asName' =>
          exact hleaves _ (self_mem_nodes _) _ (self_mem_nodes _) rfl rfl htext
      | _ => nomatch h
  | .internal name module, b, h, hleaves => by
      have htext := text_eq_of_sameTree _ b h
      cases b with
      | internal name' module' =>
          exact hleaves _ (self_mem_nodes _) _ (self_mem_nodes _) rfl rfl htext
      | _ => nomatch h

theorem eqs_of_sameTrees : (as bs : List TypeExpr) → sameTrees as bs →
    (∀ x ∈ nodesOf as, ∀ y ∈ nodesOf bs, x.isLeaf → y.isLeaf → x.text = y.text → x = y) →
      as = bs
  | [], bs, h, _ => by
      cases bs with
      | nil => rfl
      | cons b bs => nomatch h
  | a :: as, bs, h, hleaves => by
      cases bs with
      | nil => nomatch h
      | cons b bs =>
          simp only [sameTrees, Bool.and_eq_true] at h
          have hhead := eq_of_sameTree a b h.1 fun x hx y hy =>
            hleaves x (List.mem_append_left _ hx) y (List.mem_append_left _ hy)
          have htail := eqs_of_sameTrees as bs h.2 fun x hx y hy =>
            hleaves x (List.mem_append_right _ hx) y (List.mem_append_right _ hy)
          rw [hhead, htail]

end

/-! ## Words -/

/-- A character that is no bracket and no comma. -/
def isWordChar (c : Char) : Bool :=
  !(['[', ']', ','].contains c)

/-- A text without brackets and commas, as every identifier is. -/
def IsWord (s : String) : Prop :=
  ∀ c ∈ s.toList, isWordChar c

theorem isWordChar_of_continuesIdentifier {c : Char} (h : continuesIdentifier c) :
    isWordChar c := by
  have hnot : ['[', ']', ','].all (fun d => !continuesIdentifier d) := by decide
  simp only [isWordChar, Bool.not_eq_true', ← Bool.not_eq_true, List.contains_iff_mem]
  intro hmem
  simpa [h] using List.all_eq_true.mp hnot c hmem

theorem continuesIdentifier_of_isIdentifier {cs : List Char} (h : isIdentifier cs) :
    ∀ c ∈ cs, continuesIdentifier c := by
  cases cs with
  | nil => simp
  | cons first rest =>
      rw [isIdentifier, Bool.and_eq_true] at h
      intro c hc
      rcases List.mem_cons.mp hc with rfl | hc
      · have hstart := h.1
        simp only [startsIdentifier, continuesIdentifier, Char.isAlphanum, Bool.or_eq_true] at hstart ⊢
        exact hstart.imp_left .inl
      · exact List.all_eq_true.mp h.2 c hc

theorem continuesIdentifier_of_isFieldIdentifier {s : String} (h : isFieldIdentifier s) :
    ∀ c ∈ s.toList, continuesIdentifier c := by
  rw [isFieldIdentifier, Bool.and_eq_true] at h
  exact continuesIdentifier_of_isIdentifier h.1

theorem isWord_of_isIdentifier {s : String} (h : isIdentifier s.toList) : IsWord s :=
  fun c hc => isWordChar_of_continuesIdentifier (continuesIdentifier_of_isIdentifier h c hc)

/-- What stands behind a type or a value inside a list, or nothing. -/
def Ends (cs : List Char) : Prop :=
  ∀ c ∈ cs.head?, c = ',' ∨ c = ']'

theorem Ends.notFirst {cs : List Char} (h : Ends cs) : NotFirst isWordChar cs := by
  intro c hc
  rcases h c hc with rfl | rfl <;> rfl

/-- A word ends where its characters do. -/
theorem word_append_inj {p : Char → Bool} {w w' r r' : List Char} (hw : ∀ c ∈ w, p c)
    (hw' : ∀ c ∈ w', p c) (hr : NotFirst p r) (hr' : NotFirst p r')
    (h : w ++ r = w' ++ r') : w = w' ∧ r = r' := by
  obtain ⟨htake, hdrop⟩ := takeWhile_append_notFirst hw hr
  obtain ⟨htake', hdrop'⟩ := takeWhile_append_notFirst hw' hr'
  rw [h] at htake hdrop
  exact ⟨htake.symm.trans htake', hdrop.symm.trans hdrop'⟩

/-! ## Lists -/

section Lists

variable {α : Type} {f : α → List Char} {R : α → α → Prop} {x y : α} {xs ys : List α}
  {r r' : List Char}

/-- If the texts of `x` and `y` are equal with something behind them, then `x` and `y` are
related, and what is behind them is the same. -/
def TellsApart (f : α → List Char) (R : α → α → Prop) (x y : α) : Prop :=
  ∀ r r', Ends r → Ends r' → f x ++ r = f y ++ r' → R x y ∧ r = r'

/-- The items of a list behind the first one, and the end of the list. -/
def following (f : α → List Char) : List α → List Char
  | [] => [']']
  | x :: xs => ',' :: ' ' :: (f x ++ following f xs)

theorem ends_following (f : α → List Char) (xs : List α) (r : List Char) :
    Ends (following f xs ++ r) := by
  cases xs <;> simp [following, Ends]

theorem toList_intercalate_following (g : α → String) (x : α) (xs : List α) :
    (", ".intercalate (g x :: xs.map g)).toList ++ [']'] =
      (g x).toList ++ following (fun x => (g x).toList) xs := by
  rw [String.toList_intercalate]
  induction xs generalizing x with
  | nil => simp [following, List.intercalate]
  | cons y xs ih =>
      rw [List.map_cons, List.map_cons, List.map_cons, List.intercalate_cons_cons,
        List.append_assoc, ← List.map_cons, ih, following]
      simp

/-- **Items are told apart by the commas before them**, and the last one by the bracket
behind it. -/
theorem following_append_inj (hitem : ∀ x ∈ xs, ∀ y ∈ ys, TellsApart f R x y)
    (h : following f xs ++ r = following f ys ++ r') : List.Forall₂ R xs ys ∧ r = r' := by
  induction xs generalizing ys with
  | nil =>
      cases ys with
      | nil => simpa [following] using h
      | cons y ys => simp [following] at h
  | cons x xs ih =>
      cases ys with
      | nil => simp [following] at h
      | cons y ys =>
          simp only [following, List.cons_append, List.append_assoc, List.cons.injEq,
            true_and] at h
          obtain ⟨hxy, hrest⟩ := hitem x List.mem_cons_self y List.mem_cons_self _ _
            (ends_following f xs r) (ends_following f ys r') h
          obtain ⟨hall, hr⟩ := ih (fun x hx y hy => hitem x (List.mem_cons_of_mem _ hx) y
            (List.mem_cons_of_mem _ hy)) hrest
          exact ⟨.cons hxy hall, hr⟩

end Lists

/-! ## Values of literals -/

/-- A character of a value, escaped where needed. -/
def escapeChar (c : Char) : List Char :=
  if c = '\\' then ['\\', '\\'] else if c = '"' then ['\\', '"'] else [c]

theorem toList_quoteValue (s : String) :
    (quoteValue s).toList = '"' :: (s.toList.flatMap escapeChar ++ ['"']) := by
  rw [quoteValue, String.toList_ofList, List.cons_append]
  rfl

/-- An escaped character is no quote, and can be told from other ones. -/
theorem escapeChar_append_inj {c d : Char} {cs ds : List Char}
    (h : escapeChar c ++ cs = escapeChar d ++ ds) : c = d ∧ cs = ds := by
  unfold escapeChar at h
  grind

theorem escapeChar_append_ne (c : Char) (cs ds : List Char) : escapeChar c ++ cs ≠ '"' :: ds := by
  unfold escapeChar
  grind

/-- **A value ends at the first quote that is not escaped.** -/
theorem flatMap_escapeChar_inj {cs ds r r' : List Char}
    (h : cs.flatMap escapeChar ++ '"' :: r = ds.flatMap escapeChar ++ '"' :: r') :
    cs = ds ∧ r = r' := by
  induction cs generalizing ds with
  | nil =>
      cases ds with
      | nil => simpa using h
      | cons d ds =>
          rw [List.flatMap_cons, List.append_assoc] at h
          exact absurd h.symm (escapeChar_append_ne _ _ _)
  | cons c cs ih =>
      cases ds with
      | nil =>
          rw [List.flatMap_cons, List.append_assoc] at h
          exact absurd h (escapeChar_append_ne _ _ _)
      | cons d ds =>
          rw [List.flatMap_cons, List.flatMap_cons, List.append_assoc, List.append_assoc] at h
          obtain ⟨rfl, hrest⟩ := escapeChar_append_inj h
          obtain ⟨rfl, hr⟩ := ih hrest
          exact ⟨rfl, hr⟩

theorem tellsApart_quoteValue (s s' : String) :
    TellsApart (fun s => (quoteValue s).toList) (· = ·) s s' := by
  intro r r' _ _ h
  simp only [toList_quoteValue, List.cons_append, List.append_assoc, List.nil_append,
    List.cons.injEq, true_and] at h
  obtain ⟨hs, hr⟩ := flatMap_escapeChar_inj h
  exact ⟨String.toList_inj.mp hs, hr⟩

/-! ## Types -/

/-- The word that the text of a type starts with. -/
def opening : TypeExpr → List Char
  | .literal _ => "Literal".toList
  | .subscript g _ => g.text.toList
  | a => a.text.toList

/-- What stands in the text of a type behind its first word. -/
def bracket : TypeExpr → List Char
  | .literal [] => ['[', ']']
  | .literal (v :: vs) =>
    '[' :: ((quoteValue v).toList ++ following (fun v => (quoteValue v).toList) vs)
  | .subscript _ (a :: as) => '[' :: (a.text.toList ++ following (fun a => a.text.toList) as)
  | _ => []

theorem texts_eq_map (as : List TypeExpr) : texts as = as.map text := by
  induction as with
  | nil => rfl
  | cons a as ih => rw [texts, ih, List.map_cons]

/-- A text is a word and what stands behind it. -/
theorem toList_text {a : TypeExpr} (ha : a.args? ≠ some []) :
    a.text.toList = a.opening ++ a.bracket := by
  cases a with
  | literal values =>
      cases values with
      | nil => rfl
      | cons v vs =>
          have htext : (literal (v :: vs)).text =
              "Literal[" ++ ", ".intercalate (quoteValue v :: vs.map quoteValue) ++ "]" := rfl
          have hword : "Literal[".toList = "Literal".toList ++ ['['] := by decide
          rw [htext, String.toList_append, String.toList_append, List.append_assoc, hword,
            List.append_assoc]
          exact congrArg ("Literal".toList ++ '[' :: ·) (toList_intercalate_following quoteValue v vs)
  | subscript g args =>
      cases args with
      | nil => exact absurd rfl ha
      | cons a as =>
          have htext : (subscript g (a :: as)).text =
              g.text ++ "[" ++ ", ".intercalate (a.text :: as.map text) ++ "]" := by
            rw [text, texts, texts_eq_map]
            rfl
          rw [htext, String.toList_append, String.toList_append, String.toList_append,
            List.append_assoc, List.append_assoc]
          exact congrArg (g.text.toList ++ '[' :: ·) (toList_intercalate_following text a as)
  | _ => exact (List.append_nil _).symm

theorem isWordChar_opening {a : TypeExpr} (ha : a.isLeaf → IsWord a.text) :
    ∀ c ∈ a.opening, isWordChar c := by
  cases a with
  | literal values =>
      have hword : "Literal".toList.all isWordChar := by decide
      exact List.all_eq_true.mp hword
  | subscript g args =>
      have hword : g.text.toList.all isWordChar := by cases g <;> decide
      exact List.all_eq_true.mp hword
  | _ => exact ha rfl

/-- Behind the first word stands a bracket, or what stands behind the type. -/
theorem notFirst_bracket (a : TypeExpr) {r : List Char} (hr : Ends r) :
    NotFirst isWordChar (a.bracket ++ r) := by
  have hopen : ∀ cs, NotFirst isWordChar ('[' :: cs) := by
    rintro cs c ⟨⟩
    rfl
  cases a with
  | literal values => cases values <;> exact hopen _
  | subscript g args =>
      cases args with
      | nil => exact hr.notFirst
      | cons a as => exact hopen _
  | _ => exact hr.notFirst

theorem bracket_of_isLeaf {a : TypeExpr} (ha : a.isLeaf) : a.bracket = [] := by
  cases a with
  | literal values => nomatch ha
  | subscript g args => nomatch ha
  | _ => rfl

theorem opening_of_isLeaf {a : TypeExpr} (ha : a.isLeaf) : a.opening = a.text.toList := by
  cases a with
  | literal values => nomatch ha
  | subscript g args => nomatch ha
  | _ => rfl

/-- A type with parts has a bracket. -/
theorem exists_bracket {a : TypeExpr} (ha : a.isLeaf = false) (hargs : a.args? ≠ some []) :
    ∃ cs, a.bracket = '[' :: cs := by
  cases a with
  | literal values => cases values <;> exact ⟨_, rfl⟩
  | subscript g args =>
      cases args with
      | nil => exact absurd rfl hargs
      | cons a as => exact ⟨_, rfl⟩
  | _ => nomatch ha

theorem generic_text_injective {g g' : Generic} (h : g.text.toList = g'.text.toList) : g = g' := by
  revert h
  cases g <;> cases g' <;> decide

/-- Among the given types, leaves are words and told apart by them, and types that take
parameters have some. -/
structure Legible (ns : List TypeExpr) : Prop where
  word : ∀ x ∈ ns, x.isLeaf → IsWord x.text
  args : ∀ x ∈ ns, x.args? ≠ some []
  leaves : ∀ x ∈ ns, ∀ y ∈ ns, x.isLeaf → y.isLeaf → x.text = y.text → x.sameTree y

variable {ns : List TypeExpr}

/-- The values of two literals are told apart. -/
theorem eq_of_bracket_literal {values values' : List String} {r r' : List Char}
    (h : (literal values).bracket ++ r = (literal values').bracket ++ r') :
    values = values' ∧ r = r' := by
  cases values with
  | nil =>
      cases values' with
      | nil => simpa [bracket] using h
      | cons v' vs' => simp [bracket, toList_quoteValue] at h
  | cons v vs =>
      cases values' with
      | nil => simp [bracket, toList_quoteValue] at h
      | cons v' vs' =>
          simp only [bracket, List.cons_append, List.append_assoc, List.cons.injEq, true_and] at h
          obtain ⟨hv, hrest⟩ := tellsApart_quoteValue v v' _ _ (ends_following _ vs r)
            (ends_following _ vs' r') h
          obtain ⟨hvs, hr⟩ :=
            following_append_inj (fun s _ s' _ => tellsApart_quoteValue s s') hrest
          rw [List.forall₂_eq_eq_eq] at hvs
          exact ⟨by rw [hv, hvs], hr⟩

/-- The parameters of a type; other types have none. -/
def args (a : TypeExpr) : List TypeExpr :=
  a.args?.getD []

theorem nodes_subset_of_arg {a x : TypeExpr} (hx : x ∈ a.args) : x.nodes ⊆ a.nodes := by
  cases a with
  | subscript g args =>
      intro t ht
      exact mem_nodes_subscript.mpr (.inr ⟨x, hx, ht⟩)
  | _ => nomatch hx

/-- Types are told apart if their parameters are. -/
theorem Legible.tellsApart_of_args (h : Legible ns) {a b : TypeExpr} (ha : a ∈ ns) (hb : b ∈ ns)
    (hargs : ∀ x ∈ a.args, ∀ y ∈ b.args,
      TellsApart (fun a => a.text.toList) (fun a b => a.sameTree b) x y) :
    TellsApart (fun a => a.text.toList) (fun a b => a.sameTree b) a b := by
  intro r r' hr hr' heq
  simp only [toList_text (h.args a ha), toList_text (h.args b hb), List.append_assoc] at heq
  obtain ⟨hopening, hrest⟩ := word_append_inj (isWordChar_opening (h.word a ha))
    (isWordChar_opening (h.word b hb)) (notFirst_bracket a hr) (notFirst_bracket b hr') heq
  have hends : ∀ {cs ds : List Char}, Ends cs → cs ≠ '[' :: ds := by
    rintro cs ds hcs rfl
    simp [Ends] at hcs
  cases hleaf : a.isLeaf <;> cases hleaf' : b.isLeaf
  · cases a with
    | literal values =>
        cases b with
        | literal values' =>
            obtain ⟨rfl, hr⟩ := eq_of_bracket_literal hrest
            exact ⟨by simp [sameTree], hr⟩
        | subscript g args =>
            have hne : "Literal".toList ≠ g.text.toList := by cases g <;> decide
            exact absurd hopening hne
        | _ => nomatch hleaf'
    | subscript g args =>
        cases b with
        | literal values =>
            have hne : g.text.toList ≠ "Literal".toList := by cases g <;> decide
            exact absurd hopening hne
        | subscript g' args' =>
            obtain rfl := generic_text_injective hopening
            cases args with
            | nil => exact absurd rfl (h.args _ ha)
            | cons x xs =>
                cases args' with
                | nil => exact absurd rfl (h.args _ hb)
                | cons y ys =>
                    simp only [bracket, List.cons_append, List.append_assoc, List.cons.injEq,
                      true_and] at hrest
                    obtain ⟨hxy, hrest⟩ := hargs x List.mem_cons_self y List.mem_cons_self _ _
                      (ends_following _ xs r) (ends_following _ ys r') hrest
                    obtain ⟨hall, hr⟩ := following_append_inj (fun x hx y hy =>
                      hargs x (List.mem_cons_of_mem _ hx) y (List.mem_cons_of_mem _ hy)) hrest
                    refine ⟨?_, hr⟩
                    simp [sameTree, sameTrees_of_forall₂ (.cons hxy hall)]
        | _ => nomatch hleaf'
    | _ => nomatch hleaf
  · obtain ⟨cs, hcs⟩ := exists_bracket hleaf (h.args a ha)
    rw [hcs, bracket_of_isLeaf hleaf'] at hrest
    exact absurd hrest.symm (hends hr')
  · obtain ⟨cs, hcs⟩ := exists_bracket hleaf' (h.args b hb)
    rw [hcs, bracket_of_isLeaf hleaf] at hrest
    exact absurd hrest (hends hr)
  · rw [opening_of_isLeaf hleaf, opening_of_isLeaf hleaf'] at hopening
    rw [bracket_of_isLeaf hleaf, bracket_of_isLeaf hleaf'] at hrest
    exact ⟨h.leaves a ha b hb hleaf hleaf' (String.toList_inj.mp hopening), hrest⟩

/-- **The text of a type can be read in one way**, whatever is behind it. -/
theorem Legible.tellsApart (h : Legible ns) : (a b : TypeExpr) → a.nodes ⊆ ns → b.nodes ⊆ ns →
    TellsApart (fun a => a.text.toList) (fun a b => a.sameTree b) a b
  | a, b, ha, hb => h.tellsApart_of_args (ha (self_mem_nodes a)) (hb (self_mem_nodes b))
      fun x hx y hy => by
        have hsize : sizeOf x < sizeOf a := by
          cases a with
          | subscript g args =>
              have hlt : sizeOf x < sizeOf args := List.sizeOf_lt_of_mem hx
              simp only [subscript.sizeOf_spec]
              omega
          | _ => nomatch hx
        exact h.tellsApart x y (fun t ht => ha (nodes_subset_of_arg hx ht))
          (fun t ht => hb (nodes_subset_of_arg hy ht))
termination_by a => sizeOf a

/-! ## Comparison, order, sets and removal -/

/-- The set of some types, each entered unless its text is there. -/
def setOf (ts : List TypeExpr) : TypeSet :=
  ts.foldl (fun types t => types.insert t.text t) ∅

variable {ts : List TypeExpr}

theorem setOf_induction {P : TypeSet → Prop} (h : P ∅)
    (hstep : ∀ types, P types → ∀ t ∈ ts, P (types.insert t.text t)) : P (setOf ts) :=
  List.foldlRecOn ts _ h hstep

theorem mem_of_mem_setOf {c : TypeExpr} (h : c ∈ (setOf ts).toList) : c ∈ ts := by
  revert c
  refine setOf_induction (P := fun types => ∀ {c}, c ∈ types.toList → c ∈ ts) nofun ?_
  intro types htypes t ht c hc
  rcases KeyedSet.mem_toList_insert hc with rfl | hc
  · exact ht
  · exact htypes hc

theorem text_mem_keys_setOf {a : TypeExpr} (ha : a ∈ ts) : a.text ∈ (setOf ts).keys := by
  suffices h : ∀ (ts : List TypeExpr) (types : TypeSet), a ∈ ts ∨ a.text ∈ types.keys →
      a.text ∈ (ts.foldl (fun types t => types.insert t.text t) types).keys from
    h ts ∅ (.inl ha)
  intro ts
  induction ts with
  | nil => exact fun types h => h.resolve_left List.not_mem_nil
  | cons t ts ih =>
      intro types h
      refine ih _ ?_
      rw [List.mem_cons, KeyedSet.mem_keys_insert] at *
      rcases h with (rfl | h) | h
      · exact .inr (.inl rfl)
      · exact .inl h
      · exact .inr (.inr h)

theorem keyedBy_setOf (ts : List TypeExpr) : (setOf ts).KeyedBy text :=
  setOf_induction .empty fun _ h t _ => h.insert t

theorem sorted_setOf (ts : List TypeExpr) : (setOf ts).Sorted :=
  setOf_induction KeyedSet.sorted_empty fun _ h _ _ => KeyedSet.sorted_insert h

theorem nodes_subset_nodesOf {a : TypeExpr} (ha : a ∈ ts) : a.nodes ⊆ nodesOf ts := by
  intro x hx
  rw [nodesOf_eq_flatMap]
  exact List.mem_flatMap.mpr ⟨a, ha, hx⟩

/-- Types have one text exactly if they are built alike. -/
theorem Legible.text_eq_iff (h : Legible (nodesOf ts)) {a b : TypeExpr} (ha : a ∈ ts)
    (hb : b ∈ ts) : a.text = b.text ↔ a.sameTree b := by
  constructor
  · intro heq
    exact (h.tellsApart a b (nodes_subset_nodesOf ha) (nodes_subset_nodesOf hb) [] [] nofun nofun
      (by simp [heq])).1
  · exact text_eq_of_sameTree a b

/-- **Comparing texts is comparing types.**  Let there be some types whose leaves are words
and told apart by them, and let those that take parameters have some.  Then any two of them
are the same exactly if they are built alike; neither comes before the other exactly then; a
set of all of them holds just one of those that are built alike; and removing parameters
removes those that are built like one of the others.  If leaves with one text are equal,
also those of other modules, then types that are built alike are equal. -/
theorem same_eq_sameTree (ts : List TypeExpr) (h : Legible (nodesOf ts)) :
    (∀ a ∈ ts, ∀ b ∈ ts, (a.text = b.text ↔ a.sameTree b) ∧ a.same b = a.sameTree b ∧
      (¬ a.text < b.text ∧ ¬ b.text < a.text ↔ a.sameTree b)) ∧
    (∀ a ∈ ts, ∃! c, c ∈ (setOf ts).toList ∧ c.sameTree a) ∧
    (∀ c ∈ (setOf ts).toList, c ∈ ts) ∧
    (∀ g args others, args ⊆ ts → others ⊆ ts → (subscript g args).removeArgs? others =
      some (.subscript g (args.filter fun a => !others.any a.sameTree))) ∧
    ((∀ x ∈ nodesOf ts, ∀ y ∈ nodesOf ts, x.isLeaf → y.isLeaf → x.text = y.text → x = y) →
      ∀ a ∈ ts, ∀ b ∈ ts, a.text = b.text ↔ a = b) := by
  have hsame : ∀ a ∈ ts, ∀ b ∈ ts, a.same b = a.sameTree b := by
    intro a ha b hb
    rw [Bool.eq_iff_iff, ← h.text_eq_iff ha hb, same, decide_eq_true_eq]
  refine ⟨?_, ?_, fun c hc => mem_of_mem_setOf hc, ?_, ?_⟩
  · intro a ha b hb
    refine ⟨h.text_eq_iff ha hb, hsame a ha b hb, ?_⟩
    rw [← h.text_eq_iff ha hb, not_lt, not_lt, and_comm]
    exact le_antisymm_iff.symm
  · intro a ha
    obtain ⟨c, hc, htext⟩ := (keyedBy_setOf ts).mem_keys.mp (text_mem_keys_setOf ha)
    refine ⟨c, ⟨hc, (h.text_eq_iff (mem_of_mem_setOf hc) ha).mp htext⟩, ?_⟩
    rintro c' ⟨hc', hsame'⟩
    have htext' := (h.text_eq_iff (mem_of_mem_setOf hc') ha).mpr hsame'
    exact (keyedBy_setOf ts).eq_of_key (sorted_setOf ts) hc' hc (htext'.trans htext.symm)
  · intro g args others hargs hothers
    have hfilter : (args.filter fun a => !others.any a.same) =
        args.filter fun a => !others.any a.sameTree := by
      refine List.filter_congr fun a ha => ?_
      rw [Bool.not_inj_iff, Bool.eq_iff_iff, List.any_eq_true, List.any_eq_true]
      refine exists_congr fun b => and_congr_right fun hb => ?_
      rw [hsame a (hargs ha) b (hothers hb)]
    rw [removeArgs?, hfilter]
  · intro hleaves a ha b hb
    refine ⟨fun heq => ?_, fun heq => by rw [heq]⟩
    refine eq_of_sameTree a b ((h.text_eq_iff ha hb).mp heq) fun x hx y hy => ?_
    exact hleaves x (nodes_subset_nodesOf ha hx) y (nodes_subset_nodesOf hb hy)

/-! ## Types with brackets and commas in their values -/

/-- Two strings that look like three, and a string that looks like the end of a type. -/
def quotedTypes : List TypeExpr :=
  [.unionOf [.literal ["a\", \"b"], .listOf (.dict ⟨0, "BoxTypeDef"⟩)],
    .unionOf [.literal ["a", "b"], .listOf (.dict ⟨0, "BoxTypeDef"⟩)],
    .unionOf [.literal ["a", "b"], .listOf (.dict ⟨0, "BoxTypeDef"⟩)],
    .literal ["]", "\\", ""], .optionalOf .datetime]

theorem leaves_quotedTypes {x : TypeExpr} (hx : x ∈ nodesOf quotedTypes) (hleaf : x.isLeaf) :
    x = .dict ⟨0, "BoxTypeDef"⟩ ∨ x = .datetime := by
  have hleaves : (nodesOf quotedTypes).filter isLeaf =
      [.dict ⟨0, "BoxTypeDef"⟩, .dict ⟨0, "BoxTypeDef"⟩, .dict ⟨0, "BoxTypeDef"⟩, .datetime] := rfl
  have hmem := List.mem_filter.mpr ⟨hx, hleaf⟩
  rw [hleaves] at hmem
  simpa using hmem

theorem legible_quotedTypes : Legible (nodesOf quotedTypes) where
  word x hx hleaf := by
    rcases leaves_quotedTypes hx hleaf with rfl | rfl <;> exact isWord_of_isIdentifier (by decide)
  args x hx hnone := by
    have hsome : ∀ x ∈ nodesOf quotedTypes, x.args?.map List.isEmpty ≠ some true := by decide
    exact hsome x hx (by rw [hnone]; rfl)
  leaves x hx y hy hleaf hleaf' htext := by
    rcases leaves_quotedTypes hx hleaf with rfl | rfl <;>
      rcases leaves_quotedTypes hy hleaf' with rfl | rfl <;> revert htext <;> decide

/-- Of the five types two are equal, and their set holds one of these; the commas and quotes
of the values are not taken for those between them. -/
theorem quotedTypes_same :
    Legible (nodesOf quotedTypes) ∧
    (∀ a ∈ quotedTypes, ∀ b ∈ quotedTypes, a.text = b.text ↔ a = b) ∧
    ∃! c, c ∈ (setOf quotedTypes).toList ∧
      c.sameTree (.unionOf [.literal ["a", "b"], .listOf (.dict ⟨0, "BoxTypeDef"⟩)]) := by
  obtain ⟨-, hset, -, -, heq⟩ := same_eq_sameTree quotedTypes legible_quotedTypes
  refine ⟨legible_quotedTypes, heq ?_, hset _ (by simp [quotedTypes])⟩
  intro x hx y hy hleaf hleaf' htext
  rcases leaves_quotedTypes hx hleaf with rfl | rfl <;>
    rcases leaves_quotedTypes hy hleaf' with rfl | rfl
  · rfl
  · exact absurd htext (by decide)
  · exact absurd htext (by decide)
  · rfl

end TypeExpr

end ServiceStubs
