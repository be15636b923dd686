/-
What programs tell their user at the end.

* `Report`, `Report.text`: an error with its causes, as it is written out.
* `Exit`: how a program ends.
-/
namespace FileBroker.CommandLine

/-- An error, and what caused it, the nearest cause first. -/
structure Report where
  message : String
  causes : List String := []
  deriving DecidableEq, Repr

namespace Report

/-- A text whose further lines are moved to the right. -/
def indented (margin text : String) : String :=
  String.intercalate ("\n" ++ margin) (text.splitOn "\n")

/-- The line of the cause at a position. -/
def numbered (position : Nat) (cause : String) : String :=
  let number := toString position
  "\n" ++ String.ofList (List.replicate (5 - number.length) ' ') ++ number ++ ": " ++
    indented "       " cause

/-- The lines of the causes: a single one has no number. -/
def causeLines : List String → String
  | [] => ""
  | [cause] => "\n\nCaused by:\n    " ++ indented "    " cause
  | causes =>
    "\n\nCaused by:" ++ String.join (causes.zipIdx.map fun (cause, i) => numbered i cause)

/-- The report as it is written out. -/
def text (r : Report) : String := "Error: " ++ r.message ++ causeLines r.causes ++ "\n"

end Report

/-- How a program ends: with its output, with a report, with a complaint about its arguments, or
with an explanation of them. -/
inductive Exit where
  | printed (text : String)
  | failed (report : Report)
  | misused
  | explained
  deriving DecidableEq, Repr

/-- The status that a program leaves. -/
def Exit.status : Exit → Nat
  | printed _ => 0
  | failed _ => 1
  | misused => 2
  | explained => 0

end FileBroker.CommandLine
