import ServiceStubs.Error
import ServiceStubs.Text.Split

/-!
# Failures of a run

A failure is told from the outside in: what could not be done, and why, down to
the cause.

## Main definitions

* `Failure` — the messages, the outermost first.
* `Failure.line` — a failure on one line.
* `Failure.report` — the lines with which a failed run ends.
-/

namespace ServiceStubs.Command

/-- What went wrong, from the outside in. -/
structure Failure where
  message : String
  causes : List String := []
  deriving DecidableEq

namespace Failure

/-- What went wrong in a step that had a cause of failure. -/
def ofError (context : String) (e : Error) : Failure where
  message := context
  causes := e.message :: match e with
    | .malformedConfig => ["the text is no mapping of settings"]
    | _ => []

/-- A failure on one line. -/
def line (f : Failure) : String :=
  ": ".intercalate (f.message :: f.causes)

/-- A cause between the lead of its first line and that of the others. -/
def causeLines (first other cause : String) : List String :=
  match Text.splitOn '\n' cause with
  | [] => []
  | l :: ls => (first ++ l) :: ls.map (other ++ ·)

/-- The lines of some causes, which are numbered. -/
def numberedLines : (number : Nat) → List String → List String
  | _, [] => []
  | n, cause :: causes =>
    let number := toString n
    let lead := String.ofList (List.replicate (5 - number.length) ' ') ++ number ++ ": "
    causeLines lead "       " cause ++ numberedLines (n + 1) causes

/-- The lines with which a failed run ends.  A single cause is not numbered. -/
def report (f : Failure) : List String :=
  Text.splitOn '\n' ("Error: " ++ f.message) ++
    match f.causes with
    | [] => []
    | [cause] => ["", "Caused by:"] ++ causeLines "    " "    " cause
    | causes => ["", "Caused by:"] ++ numberedLines 0 causes

end Failure

end ServiceStubs.Command
