/-
Open files as a process holds them.

A process may mark a file that it holds to be closed when it runs another program. The mark belongs
to the process and not to the file, so it is not sent with a descriptor.

* `Handle`: an open file with its mark.
* `Handle.installed`: a file that was received.
* `Handle.unmarked`: a file whose mark was taken away.
-/
namespace FileBroker

variable {ε : Type}

/-- An open file as a process holds it: with a mark, or without it, that closes it when the process
runs another program. -/
structure Handle (ε : Type) where
  file : ε
  closeOnExec : Bool
  deriving DecidableEq, Repr

namespace Handle

/-- A file that was received: the receiver asks for the mark, whatever the sender's file had. -/
def installed (h : Handle ε) : Handle ε := { h with closeOnExec := true }

/-- The file after its mark was taken away. -/
def unmarked (h : Handle ε) : Handle ε := { h with closeOnExec := false }

end Handle

end FileBroker
