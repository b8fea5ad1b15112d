import ServiceStubs.Collection.OrderedMap
import ServiceStubs.Json.Basic

/-!
# Records in JSON

A record is written as an object that gives its fields by name, or as a list
that gives them by place.  An object may have other members, which are ignored,
but must not give a field twice; a list may leave fields out at its end.

A reader of a type takes a JSON text to a value of the type, or refuses it.

## Main definitions

* `Json.Reader` — what reads a type.
* `Reader.text`, `Reader.flag`, `Reader.word32`, `Reader.list`, `Reader.map`,
  `Reader.nullable` — readers of the basic types.
* `Json.fields?` — the fields of a record.
* `Reader.given`, `Reader.defaulted` — a field that must be there, and one
  that has a default.
-/

namespace ServiceStubs.Json

/-- What takes a JSON text to a value of a type, or refuses it. -/
abbrev Reader (α : Type) := Json → Option α

namespace Reader

variable {α : Type}

/-- A string that has a text. -/
def text : Reader String
  | .string s => s
  | _ => none

/-- True or false. -/
def flag : Reader Bool
  | .bool b => some b
  | _ => none

/-- The number of some digits, if it is below a limit. -/
def boundedNat? (limit : Nat) (digits : List Char) : Option Nat :=
  let n := digits.foldl (fun n c => n * 10 + (c.toNat - '0'.toNat)) 0
  if n < limit then some n else none

/-- A natural number below `2 ^ 32`, written without sign, point and
exponent. -/
def word32 : Reader Nat
  | .number ⟨false, whole, [], none⟩ => boundedNat? (Nat.pow 2 32) whole
  | _ => none

/-- A list of what `r` reads. -/
def list (r : Reader α) : Reader (List α)
  | .list items => items.mapM r
  | _ => none

/-- A map to what `r` reads. -/
def map (r : Reader α) : Reader (OrderedMap α)
  | .object members => do
    let entries ← members.mapM fun (k, j) => do return (← k, ← r j)
    return .ofList entries
  | _ => none

/-- What `r` reads, or null. -/
def nullable (r : Reader α) : Reader (Option α)
  | .null => some none
  | j => (r j).map some

/-- A field that must be there. -/
def given (r : Reader α) : Option Json → Option α
  | some j => r j
  | none => none

/-- A field that has a value even when it is not there. -/
def defaulted (r : Reader α) (a : α) : Option Json → Option α
  | some j => r j
  | none => some a

/-- A field that is optional and may be null. -/
def optional (r : Reader α) : Option Json → Option (Option α) :=
  defaulted (nullable r) none

end Reader

/-- The member of a name, if the name has at most one. -/
def member? (members : List (String × Json)) (name : String) : Option (Option Json) :=
  match members.filter (·.1 = name) with
  | [] => some none
  | [(_, j)] => some (some j)
  | _ => none

/-- The fields of a record with the given field names: for each name what the
record gives for it, if anything. -/
def fields? (names : List String) : Json → Option (List (Option Json))
  | .object members => do
    let members ← members.mapM fun (k, j) => k.map (·, j)
    names.mapM (member? members)
  | .list items =>
    if items.length ≤ names.length then
      some (items.map some ++ List.replicate (names.length - items.length) none)
    else none
  | _ => none

end ServiceStubs.Json
