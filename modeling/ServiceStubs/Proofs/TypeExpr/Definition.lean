import ServiceStubs.Proofs.Text.StringLiteral
import ServiceStubs.Proofs.TypeExpr.Legible

/-!
# Definitions are read back

The definition of a typed dictionary says what its fields are called, of which types they
are, and which of them may be left out.  A class says so line by line, and a call item by
item; either way a name is followed by a type, which ends at the first comma or line end
outside of brackets and strings.

A class has names that are identifiers, and these are read as they are.  A call puts the
names between double quotes as they are, so they are read back if they are spelled as they
are, and only then.

## Main definitions

* `Place`, `readType` — how the end of a type is found.
* `Declared`, `readDefinition?` — what a definition says, and how it is read.
* `TypedDict.Plain` — dictionaries that are called by a name, as are the leaves of their types.
* `TypedDict.definition_read` — the definitions that are read back.
* `forgedDict_definition` — two dictionaries with one definition.
-/

namespace ServiceStubs

open Json (NotFirst notFirst_cons takeWhile_append_notFirst)
open Text (readString? isSelfSpelled isSelfSpelled_of_readString? readString?_selfSpelled
  isSelfSpelled_of_forall barred)
open TypeExpr (quoteValue escapeChar continuesIdentifier_of_isFieldIdentifier word_append_inj)

variable {c : Char} {cs rest w : List Char} {d : Nat}

/-! ## Where a type ends -/

/-- Where one is in the text of a type: outside of its strings, in one, or behind a backslash
in one; and in how many brackets. -/
inductive Place
  | code (depth : Nat)
  | string (depth : Nat)
  | escape (depth : Nat)

namespace Place

/-- The place behind a character. -/
def next : Place → Char → Place
  | code d, c =>
    if c = '[' then code (d + 1)
    else if c = ']' then code (d - 1)
    else if c = '"' then string d
    else code d
  | string d, c => if c = '\\' then escape d else if c = '"' then code d else string d
  | escape d, _ => string d

/-- Whether a type ends before the character. -/
def ends : Place → Char → Bool
  | code 0, c => c = ',' || c = '\n'
  | _, _ => false

/-- The place behind some characters, if no type ends before one of them. -/
def walk? : Place → List Char → Option Place
  | p, [] => some p
  | p, c :: cs => if p.ends c then none else (p.next c).walk? cs

theorem walk?_append (p : Place) (u v : List Char) :
    p.walk? (u ++ v) = (p.walk? u).bind (·.walk? v) := by
  induction u generalizing p with
  | nil => rfl
  | cons c u ih =>
      rw [List.cons_append, walk?, walk?, ih]
      split <;> rfl

theorem walk?_trans {p q r : Place} {u v : List Char} (hu : p.walk? u = some q)
    (hv : q.walk? v = some r) : p.walk? (u ++ v) = some r := by
  rw [walk?_append, hu]
  exact hv

/-- A character that is no bracket and no quote, and ends no type. -/
def isPlain (c : Char) : Bool :=
  !(['[', ']', '"', ',', '\n'].contains c)

theorem walk?_word (h : w.all isPlain) (d : Nat) : (code d).walk? w = some (code d) := by
  induction w with
  | nil => rfl
  | cons c w ih =>
      rw [List.all_cons, Bool.and_eq_true] at h
      obtain ⟨hc, hw⟩ := h
      simp only [isPlain, Bool.not_eq_true', List.contains_eq_mem, List.mem_cons,
        List.not_mem_nil, or_false, decide_eq_false_iff_not, not_or] at hc
      obtain ⟨hopen, hclose, hquote, hcomma, hend⟩ := hc
      have hends : (code d).ends c = false := by cases d <;> simp [ends, hcomma, hend]
      simp only [walk?, hends, next, if_neg hopen, if_neg hclose, if_neg hquote]
      exact ih hw

/-- An escaped character leaves no string. -/
theorem walk?_escapeChar (c : Char) (d : Nat) :
    (string d).walk? (escapeChar c) = some (string d) := by
  unfold escapeChar
  split_ifs with hslash hquote
  · rfl
  · rfl
  · simp [walk?, ends, next, hslash, hquote]

theorem walk?_quoteValue (v : String) (d : Nat) :
    (code d).walk? (quoteValue v).toList = some (code d) := by
  have hbody : (string d).walk? (v.toList.flatMap escapeChar) = some (string d) := by
    induction v.toList with
    | nil => rfl
    | cons c cs ih => exact walk?_trans (walk?_escapeChar c d) ih
  have hopen : (code d).walk? ['"'] = some (string d) := by cases d <;> rfl
  rw [TypeExpr.toList_quoteValue]
  exact walk?_trans hopen (walk?_trans hbody rfl)

/-- In brackets a comma ends no type. -/
theorem walk?_listed {ws : List String}
    (h : ∀ w ∈ ws, (code (d + 1)).walk? w.toList = some (code (d + 1))) :
    (code (d + 1)).walk? (", ".intercalate ws).toList = some (code (d + 1)) := by
  rw [String.toList_intercalate]
  induction ws with
  | nil => rfl
  | cons w ws ih =>
      have hw := h w List.mem_cons_self
      have hws := ih fun w hw => h w (List.mem_cons_of_mem _ hw)
      cases ws with
      | nil => simpa using hw
      | cons w' ws =>
          rw [List.map_cons, List.map_cons, List.intercalate_cons_cons]
          exact walk?_trans (walk?_trans hw rfl) hws

theorem walk?_bracketed (h : (code (d + 1)).walk? cs = some (code (d + 1))) :
    (code d).walk? ('[' :: (cs ++ [']'])) = some (code d) := by
  have hopen : (code d).walk? ['['] = some (code (d + 1)) := by cases d <;> rfl
  exact walk?_trans hopen (walk?_trans h rfl)

end Place

/-! ## Names -/

/-- A character that identifiers may have: those of ASCII that go on with one, and any others
that are not of ASCII. -/
def isNameChar (c : Char) : Bool :=
  continuesIdentifier c || 128 ≤ c.toNat

/-- A text of such characters, as every identifier is. -/
def isName (s : String) : Bool :=
  s.toList.all isNameChar

/-- Characters that names do not have. -/
theorem notMem_of_isNameChar {l : List Char} (hc : isNameChar c)
    (hl : l.all (!isNameChar ·)) : c ∉ l := by
  intro hmem
  simpa [hc] using List.all_eq_true.mp hl c hmem

theorem isNameChar_of_continuesIdentifier (h : continuesIdentifier c) : isNameChar c := by
  simp [isNameChar, h]

/-! ## The text of a type -/

namespace TypeExpr

/-- The leaves of the type are called by names. -/
def Named (a : TypeExpr) : Prop :=
  ∀ x ∈ a.nodes, x.isLeaf → isName x.text

instance (a : TypeExpr) : Decidable a.Named :=
  inferInstanceAs (Decidable (∀ x ∈ a.nodes, x.isLeaf → isName x.text))

theorem Named.arg {g : Generic} {args : List TypeExpr} {a : TypeExpr}
    (h : (subscript g args).Named) (ha : a ∈ args) : a.Named :=
  fun x hx => h x (mem_nodes_subscript.mpr (.inr ⟨a, ha, hx⟩))

theorem walk?_name {s : String} (h : isName s) (d : Nat) :
    (Place.code d).walk? s.toList = some (.code d) := by
  refine Place.walk?_word (List.all_eq_true.mpr fun c hc => ?_) d
  have hmarks : c ∉ ['[', ']', '"', ',', '\n'] :=
    notMem_of_isNameChar (List.all_eq_true.mp h c hc) (by decide)
  simpa [Place.isPlain] using hmarks

theorem walk?_generic (g : Generic) (d : Nat) :
    (Place.code d).walk? g.text.toList = some (.code d) :=
  Place.walk?_word (by cases g <;> decide) d

/-- **The text of a type has no end in it**, wherever it stands. -/
theorem walk?_text : (a : TypeExpr) → a.Named → ∀ d, (Place.code d).walk? a.text.toList =
    some (.code d)
  | .literal values, _, d => by
      have hvalues : (Place.code (d + 1)).walk? (", ".intercalate (values.map quoteValue)).toList =
          some (.code (d + 1)) := by
        refine Place.walk?_listed fun w hw => ?_
        obtain ⟨v, -, rfl⟩ := List.mem_map.mp hw
        exact Place.walk?_quoteValue v (d + 1)
      have hword : (Place.code d).walk? "Literal".toList = some (.code d) :=
        Place.walk?_word (by decide) d
      have htext : (literal values).text.toList = "Literal".toList ++
          '[' :: ((", ".intercalate (values.map quoteValue)).toList ++ [']']) := by
        simp [text]
      rw [htext]
      exact Place.walk?_trans hword (Place.walk?_bracketed hvalues)
  | .subscript g args, h, d => by
      have hargs : (Place.code (d + 1)).walk? (", ".intercalate (args.map text)).toList =
          some (.code (d + 1)) := by
        refine Place.walk?_listed fun w hw => ?_
        obtain ⟨a, ha, rfl⟩ := List.mem_map.mp hw
        have := List.sizeOf_lt_of_mem ha
        exact walk?_text a (h.arg ha) (d + 1)
      rw [text]
      split
      · exact walk?_generic g d
      · have htext : (g.text ++ "[" ++ ", ".intercalate (texts args) ++ "]").toList =
            g.text.toList ++ '[' :: ((", ".intercalate (args.map text)).toList ++ [']']) := by
          simp [texts_eq_map]
        rw [htext]
        exact Place.walk?_trans (walk?_generic g d) (Place.walk?_bracketed hargs)
  | .scalar s, h, d => walk?_name (h _ (self_mem_nodes _) rfl) d
  | .dict r, h, d => walk?_name (h _ (self_mem_nodes _) rfl) d
  | .external _ _ _, h, d => walk?_name (h _ (self_mem_nodes _) rfl) d
  | .internal _ _, h, d => walk?_name (h _ (self_mem_nodes _) rfl) d

end TypeExpr

/-! ## Reading a definition -/

/-- What stands behind a word. -/
def after? (word : String) (cs : List Char) : Option (List Char) :=
  cs.dropPrefix? word.toList

/-- The text of a type, up to its end, and what is behind it. -/
def readType : Place → List Char → List Char × List Char
  | _, [] => ([], [])
  | p, c :: cs =>
    if p.ends c then ([], c :: cs)
    else (c :: (readType (p.next c) cs).1, (readType (p.next c) cs).2)

/-- What a definition says of a field. -/
structure Declared where
  name : String
  type : String
  required : Bool
  deriving DecidableEq

/-- What the definition has to say of a field. -/
def Field.declared (f : Field) : Declared :=
  ⟨f.name, f.type.text, f.required⟩

/-- The type without the mark of fields that may be left out, and whether there is none. -/
def unmarked (type : List Char) : List Char × Bool :=
  match after? "NotRequired[" type with
  | some inner => (inner.dropLast, false)
  | none => (type, true)

/-- What is said of the field of a name, by the type behind it. -/
def readTyped? (name : List Char) (cs : List Char) : Option (Declared × List Char) := do
  let cs ← after? ": " cs
  let (type, rest) := readType (.code 0) cs
  let (type, required) := unmarked type
  some (⟨String.ofList name, String.ofList type, required⟩, rest)

/-- A line of a class. -/
def readLine? (cs : List Char) : Option (Declared × List Char) := do
  let cs ← after? "\n    " cs
  readTyped? (cs.takeWhile continuesIdentifier) (cs.dropWhile continuesIdentifier)

/-- An item of a call. -/
def readItem? (cs : List Char) : Option (Declared × List Char) := do
  let cs ← after? "\n        \"" cs
  let (key, cs) ← readString? 0 cs
  let (field, cs) ← readTyped? key cs
  let cs ← after? "," cs
  some (field, cs)

/-- What is said of some fields, at most so many, up to the end of the text. -/
def readAll? (read : List Char → Option (Declared × List Char)) (close : String) :
    (bound : Nat) → List Char → Option (List Declared)
  | 0, _ => none
  | bound + 1, cs =>
    if cs = close.toList then some []
    else do
      let (field, cs) ← read cs
      let fields ← readAll? read close bound cs
      some (field :: fields)

/-- The end of a call. -/
def callEnd : String :=
  "\n    \x7d,\n)"

/-- The body of a class: what it says of the fields, or that there are none. -/
def readBody? (cs : List Char) : Option (List Declared) :=
  if cs = "\n    pass".toList then some [] else readAll? readLine? "" (cs.length + 1) cs

/-- A class: its name, and what it says of the fields. -/
def readClass? (cs : List Char) : Option (String × List Declared) := do
  let cs ← after? "class " cs
  let name := String.ofList (cs.takeWhile isNameChar)
  let cs ← after? "(TypedDict):" (cs.dropWhile isNameChar)
  let fields ← readBody? cs
  some (name, fields)

/-- A call: the name that it has, which it is given too, and what it says of the fields. -/
def readCall? (cs : List Char) : Option (String × List Declared) := do
  let name := String.ofList (cs.takeWhile isNameChar)
  let cs ← after? " = TypedDict(\n    \"" (cs.dropWhile isNameChar)
  let cs ← after? name cs
  let cs ← after? "\",\n    \x7b" cs
  let fields ← readAll? readItem? callEnd (cs.length + 1) cs
  some (name, fields)

/-- A definition: the name of the dictionary, and what is said of its fields. -/
def readDefinition? (definition : String) : Option (String × List Declared) :=
  readClass? definition.toList <|> readCall? definition.toList

theorem after?_append (word : String) (cs : List Char) :
    after? word (word.toList ++ cs) = some cs :=
  List.dropPrefix?_append_of_beq cs BEq.rfl

theorem after?_eq_some_iff {word : String} : after? word cs = some rest ↔
    cs = word.toList ++ rest := by
  rw [after?, List.dropPrefix?_eq_some_iff]
  constructor
  · rintro ⟨p, rfl, hp⟩
    rw [LawfulBEq.eq_of_beq hp]
  · rintro rfl
    exact ⟨_, rfl, BEq.rfl⟩

/-! ## Fields are read back -/

theorem readType_append {p q : Place} (hw : p.walk? w = some q)
    (hrest : ∀ c ∈ rest.head?, q.ends c) : readType p (w ++ rest) = (w, rest) := by
  induction w generalizing p with
  | nil =>
      obtain rfl := Option.some.inj hw
      cases rest with
      | nil => rfl
      | cons c rest => rw [List.nil_append, readType, if_pos (hrest c rfl)]
  | cons c w ih =>
      rw [Place.walk?] at hw
      split at hw
      · nomatch hw
      · next hends => rw [List.cons_append, readType, if_neg hends, ih hw]

namespace TypeExpr

/-- No type starts with the mark. -/
theorem after?_text {a : TypeExpr} (h : a.Named) :
    after? "NotRequired[" a.text.toList = Option.none := by
  rw [Option.eq_none_iff_forall_ne_some]
  intro rest hrest
  rw [after?_eq_some_iff] at hrest
  have hname : ∀ {s : String}, isName s → s.toList ≠ "NotRequired[".toList ++ rest := by
    intro s hs heq
    have hopen : '[' ∈ s.toList := by simp [heq]
    exact absurd (List.all_eq_true.mp hs '[' hopen) (by decide)
  cases a with
  | literal values => simp [text] at hrest
  | subscript g args =>
      rw [text] at hrest
      split at hrest
      · cases g <;> simp [Generic.text] at hrest
      · cases g <;> simp [Generic.text] at hrest
  | _ => exact hname (h _ (self_mem_nodes _) rfl) hrest

end TypeExpr

namespace Field

variable {f : Field}

/-- The type with the mark is read as the type and the mark. -/
theorem unmarked_typeText (h : f.type.Named) :
    unmarked f.typeText.toList = (f.type.text.toList, f.required) := by
  rw [typeText]
  cases hrequired : f.required with
  | true => simp [unmarked, TypeExpr.after?_text h]
  | false =>
      have htext : ("NotRequired[" ++ f.type.text ++ "]").toList =
          "NotRequired[".toList ++ (f.type.text.toList ++ [']']) := by
        simp
      rw [if_neg (by decide), htext, unmarked, after?_append]
      simp

theorem walk?_typeText (h : f.type.Named) :
    (Place.code 0).walk? f.typeText.toList = some (.code 0) := by
  rw [typeText]
  split
  · exact TypeExpr.walk?_text f.type h 0
  · have htext : ("NotRequired[" ++ f.type.text ++ "]").toList =
        "NotRequired".toList ++ '[' :: (f.type.text.toList ++ [']']) := by
      simp
    rw [htext]
    exact Place.walk?_trans (Place.walk?_word (by decide) 0)
      (Place.walk?_bracketed (TypeExpr.walk?_text f.type h 1))

/-- A type is read up to its end. -/
theorem readTyped?_append (h : f.type.Named) (name : List Char)
    (hrest : ∀ c ∈ rest.head?, (Place.code 0).ends c) :
    readTyped? name (": ".toList ++ (f.typeText.toList ++ rest)) =
      some (⟨String.ofList name, f.type.text, f.required⟩, rest) := by
  rw [readTyped?, after?_append]
  simp [readType_append (walk?_typeText h) hrest, unmarked_typeText h]

/-- The line of the field in a class. -/
def line (f : Field) : String :=
  "    " ++ f.name ++ ": " ++ f.typeText

/-- The item of the field in a call. -/
def item (f : Field) : String :=
  "        \"" ++ f.name ++ "\": " ++ f.typeText ++ ","

theorem line_append (f : Field) (rest : List Char) : '\n' :: (f.line.toList ++ rest) =
    "\n    ".toList ++ (f.name.toList ++ (": ".toList ++ (f.typeText.toList ++ rest))) := by
  simp [line]

theorem item_append (f : Field) (rest : List Char) : '\n' :: (f.item.toList ++ rest) =
    "\n        \"".toList ++ (f.name.toList ++
      '"' :: (": ".toList ++ (f.typeText.toList ++ (",".toList ++ rest)))) := by
  simp [item]

/-- **A line of a class is read as its field.** -/
theorem readLine?_line (h : f.type.Named) (hname : isFieldIdentifier f.name)
    (hrest : ∀ c ∈ rest.head?, c = '\n') :
    readLine? ('\n' :: (f.line.toList ++ rest)) = some (f.declared, rest) := by
  have hbehind : NotFirst continuesIdentifier (": ".toList ++ (f.typeText.toList ++ rest)) :=
    notFirst_cons (by decide) _
  obtain ⟨htake, hdrop⟩ := takeWhile_append_notFirst
    (continuesIdentifier_of_isFieldIdentifier hname) hbehind
  have hends : ∀ c ∈ rest.head?, (Place.code 0).ends c := by
    intro c hc
    rw [hrest c hc]
    rfl
  simp only [line_append, readLine?, after?_append, Option.bind_eq_bind, Option.bind_some, htake,
    hdrop, readTyped?_append h _ hends, String.ofList_toList]
  rfl

/-- **An item of a call is read as its field**, if the name is spelled as it is. -/
theorem readItem?_item (h : f.type.Named) (hname : isSelfSpelled f.name.toList)
    (rest : List Char) :
    readItem? ('\n' :: (f.item.toList ++ rest)) = some (f.declared, rest) := by
  have hends : ∀ c ∈ (",".toList ++ rest).head?, (Place.code 0).ends c := by
    simp [Place.ends]
  simp only [item_append, readItem?, after?_append, Option.bind_eq_bind, Option.bind_some,
    readString?_selfSpelled hname, readTyped?_append h _ hends, String.ofList_toList]
  rfl

/-- An item of a call is read as its field only if the name is spelled as it is, wherever the
item may end. -/
theorem isSelfSpelled_of_readItem? {field : Declared} {rest' : List Char}
    (h : readItem? ('\n' :: (f.item.toList ++ rest)) = some (field, rest'))
    (hname : field.name = f.name) : isSelfSpelled f.name.toList := by
  simp only [item_append, readItem?, after?_append, Option.bind_eq_bind, Option.bind_some] at h
  obtain ⟨⟨key, cs⟩, hkey, h⟩ := Option.bind_eq_some_iff.mp h
  obtain ⟨⟨field', cs'⟩, htyped, h⟩ := Option.bind_eq_some_iff.mp h
  obtain ⟨cs'', -, h⟩ := Option.bind_eq_some_iff.mp h
  obtain ⟨rfl, -⟩ := Prod.mk.inj (Option.some.inj h)
  obtain ⟨_, -, htyped⟩ := Option.bind_eq_some_iff.mp htyped
  obtain ⟨rfl, -⟩ := Prod.mk.inj (Option.some.inj htyped)
  obtain rfl : key = f.name.toList := by rw [← hname, String.toList_ofList]
  exact isSelfSpelled_of_readString? hkey

end Field

section Fields

variable {fields : List Field} {read : List Char → Option (Declared × List Char)}
  {text : Field → String} {close : String} {bound : Nat}

/-- The texts of some fields, each on lines of its own. -/
def onLines (text : Field → String) (fields : List Field) : List Char :=
  fields.flatMap fun f => '\n' :: (text f).toList

theorem onLines_cons (text : Field → String) (f : Field) (fields : List Field)
    (rest : List Char) : onLines text (f :: fields) ++ rest =
      '\n' :: ((text f).toList ++ (onLines text fields ++ rest)) := by
  simp [onLines]

/-- A field more is another text. -/
theorem onLines_cons_ne (text : Field → String) (f : Field) (fields : List Field)
    (rest : List Char) : onLines text (f :: fields) ++ rest ≠ rest := by
  intro h
  have hlength := congrArg List.length h
  rw [onLines_cons] at hlength
  simp at hlength
  omega

/-- **Fields are read one after the other**, if each is. -/
theorem readAll?_onLines
    (hread : ∀ f ∈ fields, ∀ rest, (∀ c ∈ rest.head?, c = '\n') →
      read ('\n' :: ((text f).toList ++ rest)) = some (f.declared, rest))
    (hclose : ∀ c ∈ close.toList.head?, c = '\n') (hbound : fields.length < bound) :
    readAll? read close bound (onLines text fields ++ close.toList) =
      some (fields.map Field.declared) := by
  induction fields generalizing bound with
  | nil =>
      obtain ⟨bound, rfl⟩ := Nat.exists_eq_succ_of_ne_zero (Nat.ne_of_gt hbound)
      rw [onLines, List.flatMap_nil, List.nil_append, readAll?, if_pos rfl, List.map_nil]
  | cons f fields ih =>
      obtain ⟨bound, rfl⟩ := Nat.exists_eq_succ_of_ne_zero (Nat.ne_of_gt (Nat.zero_lt_of_lt hbound))
      have hrest : ∀ c ∈ (onLines text fields ++ close.toList).head?, c = '\n' := by
        cases fields with
        | nil => exact hclose
        | cons f' fields =>
            rw [onLines_cons]
            exact fun c hc => (Option.some.inj hc).symm
      rw [readAll?, if_neg (onLines_cons_ne text f fields _), onLines_cons,
        hread f List.mem_cons_self _ hrest]
      simp [ih (fun f hf => hread f (List.mem_cons_of_mem _ hf)) (Nat.lt_of_succ_lt_succ hbound)]

/-- **Items are read back only if all names are spelled as they are.** -/
theorem isSelfSpelled_of_readAll? (hnamed : ∀ f ∈ fields, f.type.Named)
    (h : readAll? readItem? close bound (onLines Field.item fields ++ close.toList) =
      some (fields.map Field.declared)) : ∀ f ∈ fields, isSelfSpelled f.name.toList := by
  induction fields generalizing bound with
  | nil => nofun
  | cons f fields ih =>
      cases bound with
      | zero => nomatch h
      | succ bound =>
          rw [readAll?, if_neg (onLines_cons_ne _ f fields _), onLines_cons] at h
          obtain ⟨⟨field, cs⟩, hfield, h⟩ := Option.bind_eq_some_iff.mp h
          obtain ⟨fields', hfields, h⟩ := Option.bind_eq_some_iff.mp h
          obtain ⟨rfl, rfl⟩ := List.cons.inj (Option.some.inj h)
          -- the key is read as the name, so the item ends where it should, and the next one begins
          have hf := Field.isSelfSpelled_of_readItem? hfield rfl
          rw [Field.readItem?_item (hnamed f List.mem_cons_self) hf] at hfield
          obtain ⟨-, rfl⟩ := Prod.mk.inj (Option.some.inj hfield)
          intro g hg
          rcases List.mem_cons.mp hg with rfl | hg
          · exact hf
          · exact ih (fun f hf => hnamed f (List.mem_cons_of_mem _ hf)) hfields g hg

theorem length_le_length_onLines (text : Field → String) (fields : List Field) :
    fields.length ≤ (onLines text fields).length := by
  induction fields with
  | nil => exact Nat.le_refl 0
  | cons f fields ih =>
      have hcons := congrArg List.length (onLines_cons text f fields [])
      simp only [List.append_nil, List.length_cons, List.length_append] at hcons ⊢
      omega

end Fields

/-! ## Definitions are read back -/

theorem toList_lines (l : String) (ls : List String) :
    ("\n".intercalate (l :: ls)).toList = l.toList ++ ls.flatMap fun l => '\n' :: l.toList := by
  rw [String.toList_intercalate]
  induction ls generalizing l with
  | nil => simp
  | cons l' ls ih =>
      rw [List.map_cons, List.map_cons, List.intercalate_cons_cons, ← List.map_cons, ih]
      simp

namespace TypedDict

variable {d : TypedDict}

/-- The dictionary and the leaves of the types of its fields are called by names. -/
structure Plain (d : TypedDict) : Prop where
  name : isName d.name
  types : ∀ f ∈ d.fields, f.type.Named

/-- What stands in a class behind its name. -/
def classBody (d : TypedDict) : List Char :=
  if d.fields.isEmpty then "\n    pass".toList else onLines Field.line d.fields

theorem toList_class (d : TypedDict) : ("\n".intercalate d.classDefinition).toList =
    "class ".toList ++ (d.name.toList ++ ("(TypedDict):".toList ++ d.classBody)) := by
  rw [classDefinition, List.cons_append, toList_lines, classBody]
  cases hfields : d.fields <;> simp [onLines, Field.line, List.flatMap_map]

theorem toList_call : ("\n".intercalate d.callDefinition).toList =
    d.name.toList ++ (" = TypedDict(\n    \"".toList ++ (d.name.toList ++
      ("\",\n    \x7b".toList ++ (onLines Field.item d.fields ++ callEnd.toList)))) := by
  rw [callDefinition, List.cons_append, List.cons_append, toList_lines]
  simp [onLines, Field.item, List.flatMap_map, callEnd]

theorem onLines_line_ne_pass (f : Field) (fields : List Field) :
    onLines Field.line (f :: fields) ≠ "\n    pass".toList := by
  intro h
  have hcolon : ':' ∈ onLines Field.line (f :: fields) := by simp [onLines, Field.line]
  rw [h] at hcolon
  exact absurd hcolon (by decide)

theorem readBody?_classBody (h : d.Plain) (hfields : ∀ f ∈ d.fields, isFieldIdentifier f.name) :
    readBody? d.classBody = some (d.fields.map Field.declared) := by
  rw [readBody?, classBody]
  cases hall : d.fields with
  | nil => rfl
  | cons f fields =>
      have hbound := length_le_length_onLines Field.line (f :: fields)
      have hread : readAll? readLine? "" _ (onLines Field.line (f :: fields) ++ "".toList) = _ :=
        readAll?_onLines (fun g hg rest hrest => Field.readLine?_line (h.types g (hall ▸ hg))
          (hfields g (hall ▸ hg)) hrest) nofun (Nat.lt_succ_of_le hbound)
      rw [List.isEmpty_cons, if_neg Bool.false_ne_true, if_neg (onLines_line_ne_pass f fields)]
      rwa [String.toList_empty, List.append_nil] at hread

/-- **A class is read back.** -/
theorem readClass?_class (h : d.Plain) (hfields : ∀ f ∈ d.fields, isFieldIdentifier f.name) :
    readClass? ("\n".intercalate d.classDefinition).toList =
      some (d.name, d.fields.map Field.declared) := by
  have hbehind : NotFirst isNameChar ("(TypedDict):".toList ++ d.classBody) :=
    notFirst_cons (by decide) _
  obtain ⟨htake, hdrop⟩ := takeWhile_append_notFirst (List.all_eq_true.mp h.name) hbehind
  simp only [toList_class, readClass?, after?_append, Option.bind_eq_bind, Option.bind_some, htake,
    hdrop, readBody?_classBody h hfields, String.ofList_toList]

/-- A call that starts like a class goes on otherwise. -/
theorem eq_of_toList_call (h : d.Plain)
    (hstart : ("\n".intercalate d.callDefinition).toList = "class ".toList ++ rest) :
    ∃ more, rest = '=' :: more := by
  rw [toList_call] at hstart
  have hword : "class ".toList ++ rest = "class".toList ++ (' ' :: rest) := by simp
  have hspace : ∀ cs, " = TypedDict(\n    \"".toList ++ cs =
      ' ' :: '=' :: (" TypedDict(\n    \"".toList ++ cs) := by simp
  rw [hword, hspace] at hstart
  -- the name has no blank, so it is the word `class`, and behind it stands the sign of a call
  obtain ⟨-, hrest⟩ := word_append_inj (List.all_eq_true.mp h.name)
    (List.all_eq_true.mp (by decide)) (notFirst_cons (by decide) _) (notFirst_cons (by decide) _)
    hstart
  exact ⟨_, (List.cons.inj hrest).2.symm⟩

theorem readClass?_call (h : d.Plain) :
    readClass? ("\n".intercalate d.callDefinition).toList = none := by
  rw [readClass?]
  cases hclass : after? "class " ("\n".intercalate d.callDefinition).toList with
  | none => rfl
  | some rest =>
      obtain ⟨more, rfl⟩ := eq_of_toList_call h (after?_eq_some_iff.mp hclass)
      rfl

/-- **A call is read back if its keys are spelled as they are, and only then.** -/
theorem readCall?_call_iff (h : d.Plain) : readCall? ("\n".intercalate d.callDefinition).toList =
    some (d.name, d.fields.map Field.declared) ↔ ∀ f ∈ d.fields, isSelfSpelled f.name.toList := by
  have hbehind : ∀ cs, NotFirst isNameChar (" = TypedDict(\n    \"".toList ++ cs) :=
    fun cs => notFirst_cons (by decide) _
  have hname := fun cs => takeWhile_append_notFirst (List.all_eq_true.mp h.name) (hbehind cs)
  simp only [toList_call, readCall?, (hname _).1, (hname _).2, after?_append, Option.bind_eq_bind,
    Option.bind_some, String.ofList_toList]
  constructor
  · intro hread
    obtain ⟨fields, hfields, heq⟩ := Option.bind_eq_some_iff.mp hread
    obtain ⟨-, rfl⟩ := Prod.mk.inj (Option.some.inj heq)
    exact isSelfSpelled_of_readAll? h.types hfields
  · intro hself
    have hbound := length_le_length_onLines Field.item d.fields
    rw [readAll?_onLines (fun f hf rest _ => Field.readItem?_item (h.types f hf) (hself f hf) rest)
      (by simp [callEnd]) (by rw [List.length_append]; omega)]
    rfl

/-- Names that a class admits are spelled as they are. -/
theorem isSelfSpelled_of_isFieldIdentifier {name : String} (h : isFieldIdentifier name) :
    isSelfSpelled name.toList := by
  refine isSelfSpelled_of_forall fun c hc => ?_
  have hchar := isNameChar_of_continuesIdentifier (continuesIdentifier_of_isFieldIdentifier h c hc)
  have hnot : c ∉ '"' :: '\\' :: barred := notMem_of_isNameChar hchar (by decide)
  simp only [List.mem_cons, not_or] at hnot
  exact ⟨hnot.1, hnot.2.2, hnot.2.1⟩

/-- **Definitions are read back if the names of the fields are spelled as they are, and only
then.** -/
theorem readDefinition?_eq_iff (h : d.Plain) :
    readDefinition? d.definition = some (d.name, d.fields.map Field.declared) ↔
      ∀ f ∈ d.fields, isSelfSpelled f.name.toList := by
  rw [readDefinition?, definition]
  by_cases hall : ∀ f ∈ d.fields, isFieldIdentifier f.name
  · rw [if_pos (by simpa using hall), readClass?_class h hall, Option.orElse_eq_orElse,
      Option.orElse_some]
    exact iff_of_true rfl fun f hf => isSelfSpelled_of_isFieldIdentifier (hall f hf)
  · rw [if_neg (by simpa using hall), readClass?_call h]
    exact readCall?_call_iff h

/-- A definition starts like a class exactly if it is one. -/
theorem class_prefix_definition_iff (h : d.Plain) :
    ("class " ++ d.name ++ "(TypedDict):").toList <+: d.definition.toList ↔
      ∀ f ∈ d.fields, isFieldIdentifier f.name := by
  have hhead : ("class " ++ d.name ++ "(TypedDict):").toList =
      "class ".toList ++ (d.name.toList ++ "(TypedDict):".toList) := by
    rw [String.toList_append, String.toList_append, List.append_assoc]
  rw [hhead, definition]
  constructor
  · rintro ⟨rest, hrest⟩
    by_contra hnot
    rw [if_neg (by simpa using hnot), List.append_assoc] at hrest
    obtain ⟨more, hmore⟩ := eq_of_toList_call h hrest.symm
    cases hname : d.name.toList with
    | nil => simp [hname] at hmore
    | cons c cs =>
        rw [hname, List.cons_append] at hmore
        obtain ⟨rfl, -⟩ := List.cons.inj hmore
        exact absurd (List.all_eq_true.mp h.name '=' (by simp [hname])) (by decide)
  · intro hall
    rw [if_pos (by simpa using hall), toList_class]
    exact ⟨d.classBody, by simp only [List.append_assoc]⟩

/-- **A definition says what the fields are, if their names are spelled as they are.**  It is a
class exactly if the names are identifiers that a class admits.  Reading it gives the name of
the dictionary and of each field the name, the type and the mark, in order, exactly if the
names of the fields can stand between double quotes as they are; so of two dictionaries
whose names are of that kind, the definitions are the same only if the fields are. -/
theorem definition_read (d : TypedDict) (h : d.Plain) :
    (("class " ++ d.name ++ "(TypedDict):").toList <+: d.definition.toList ↔
      ∀ f ∈ d.fields, isFieldIdentifier f.name) ∧
    (readDefinition? d.definition = some (d.name, d.fields.map Field.declared) ↔
      ∀ f ∈ d.fields, isSelfSpelled f.name.toList) ∧
    (∀ d' : TypedDict, d'.Plain → (∀ f ∈ d.fields ++ d'.fields, isSelfSpelled f.name.toList) →
      d.definition = d'.definition →
        d.name = d'.name ∧ d.fields.map Field.declared = d'.fields.map Field.declared) := by
  refine ⟨class_prefix_definition_iff h, readDefinition?_eq_iff h, fun d' h' hself heq => ?_⟩
  rw [List.forall_mem_append] at hself
  have hread := (readDefinition?_eq_iff h).mpr hself.1
  rw [heq, (readDefinition?_eq_iff h').mpr hself.2] at hread
  obtain ⟨hname, hfields⟩ := Prod.mk.inj (Option.some.inj hread)
  exact ⟨hname.symm, hfields.symm⟩

end TypedDict

/-- A dictionary with fields whose names are no identifiers, and a type with quotes, commas and
brackets in its values. -/
def searchDict : TypedDict where
  name := "SearchTypeDef"
  fields := [⟨"query", .listOf (.dict ⟨0, "TermTypeDef"⟩), true⟩,
    ⟨"return", .literal ["a, \"b\"]", "\\"], false⟩, ⟨"x-\\d", .looseDict, true⟩]

/-- The dictionary is defined by a call, and read back; and if the second field had to be
there, then the definition would be another one. -/
theorem searchDict_read :
    searchDict.Plain ∧
      ¬ ("class " ++ searchDict.name ++ "(TypedDict):").toList <+: searchDict.definition.toList ∧
      readDefinition? searchDict.definition = some ("SearchTypeDef",
        [⟨"query", "List[TermTypeDef]", true⟩,
          ⟨"return", "Literal[\"a, \\\"b\\\"]\", \"\\\\\"]", false⟩,
          ⟨"x-\\d", "Dict[str, Any]", true⟩]) ∧
      searchDict.definition ≠ TypedDict.definition { searchDict with
        fields := searchDict.fields.map fun f => { f with required := true } } := by
  have hplain : searchDict.Plain := ⟨by decide, by decide⟩
  obtain ⟨hclass, hread, hdistinct⟩ := searchDict.definition_read hplain
  refine ⟨hplain, ?_, ?_, ?_⟩
  · rw [hclass]
    decide
  · exact hread.mpr (by decide)
  · intro heq
    obtain ⟨-, hfields⟩ := hdistinct _ ⟨by decide, by decide⟩ (by decide) heq
    revert hfields
    decide

/-- A dictionary with one field, whose name goes on behind a quote like a second field. -/
def forgedDict : TypedDict where
  name := "BoxTypeDef"
  fields := [⟨"a\": int,\n        \"b-", .int, true⟩]

/-- A dictionary with two fields. -/
def twoFieldDict : TypedDict where
  name := "BoxTypeDef"
  fields := [⟨"a", .int, true⟩, ⟨"b-", .int, true⟩]

/-- **Two dictionaries with different fields have one definition**, as the quotes in the name of
a field are not escaped.  It is read as the one with two fields. -/
theorem forgedDict_definition :
    (forgedDict.Plain ∧ (forgedDict.fields.map (·.name)).Nodup) ∧
      (twoFieldDict.Plain ∧ (twoFieldDict.fields.map (·.name)).Nodup) ∧
      forgedDict.fields.map Field.declared ≠ twoFieldDict.fields.map Field.declared ∧
      forgedDict.definition = twoFieldDict.definition ∧
      readDefinition? forgedDict.definition =
        some (twoFieldDict.name, twoFieldDict.fields.map Field.declared) := by
  have hforged : forgedDict.Plain := ⟨by decide, by decide⟩
  have hplain : twoFieldDict.Plain := ⟨by decide, by decide⟩
  have hsame : forgedDict.definition = twoFieldDict.definition := by decide
  refine ⟨⟨hforged, by decide⟩, ⟨hplain, by decide⟩, by decide, hsame, ?_⟩
  rw [hsame, TypedDict.readDefinition?_eq_iff hplain]
  decide

end ServiceStubs
