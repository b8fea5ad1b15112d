/-!
# Sets ordered by a key

Imports and types are collected in sets whose elements are told apart, and
ordered, by a key: an import by what it imports, a type by its text.  Of two
elements with one key the set keeps the one that came first.

## Main definitions

* `KeyedSet` — the set, as its elements with their keys, in increasing order.
* `insert`, `contains`, `union`, `toList`.
-/

namespace ServiceStubs

/-- A set of elements with keys, in increasing order of the keys. -/
structure KeyedSet (κ α : Type) where
  entries : List (κ × α) := []

namespace KeyedSet

variable {κ α : Type} [LT κ] [DecidableLT κ] [DecidableEq κ]

instance : EmptyCollection (KeyedSet κ α) := ⟨{}⟩

/-- The elements in increasing order of their keys. -/
def toList (s : KeyedSet κ α) : List α :=
  s.entries.map Prod.snd

/-- Whether some element has the key. -/
def contains (s : KeyedSet κ α) (k : κ) : Bool :=
  s.entries.any (·.1 = k)

/-- Puts an element before the first one with a larger key, unless its key is
there already. -/
def insertEntry (k : κ) (a : α) : List (κ × α) → List (κ × α)
  | [] => [(k, a)]
  | (k', a') :: es =>
    if k < k' then (k, a) :: (k', a') :: es
    else if k = k' then (k', a') :: es
    else (k', a') :: insertEntry k a es

/-- Adds an element; one that has its key already stays instead. -/
def insert (s : KeyedSet κ α) (k : κ) (a : α) : KeyedSet κ α :=
  ⟨insertEntry k a s.entries⟩

/-- The elements of both sets, those of the first where keys agree. -/
def union (s t : KeyedSet κ α) : KeyedSet κ α :=
  t.entries.foldl (fun s (k, a) => s.insert k a) s

/-- The elements that satisfy a condition. -/
def filter (p : α → Bool) (s : KeyedSet κ α) : KeyedSet κ α :=
  ⟨s.entries.filter (p ·.2)⟩

end KeyedSet

end ServiceStubs
