/-
The audit log: one line of JSON for each request.

The log keeps the reason of a refusal, which the client never learns.

* `Audit.Entry`, `Audit.Record`: what is recorded of a request, and a record with its time and
  peer.
* `Audit.Record.line`, `Audit.log`: the line of a record, and the log of some records.
* `Audit.append`: one more record in a log file.
-/
import FileBroker.FileTree.Calls
import FileBroker.Peer

namespace FileBroker.Audit

/-- What was decided. -/
inductive Decision where
  | allowed
  | denied
  deriving DecidableEq, Repr

/-- The name of a decision in a record. -/
def Decision.name : Decision → String
  | allowed => "allowed"
  | denied => "denied"

/-- What is recorded of a request. Without a command, it could not be understood. -/
structure Entry where
  command : Option Command
  paths : List String
  decision : Decision
  reason : Option Refusal
  returnCode : Word
  deriving DecidableEq, Repr

/-- The name of the command in a record. -/
def Entry.commandName (e : Entry) : String :=
  match e.command with
  | some c => c.name
  | none => "unknown"

/-- An entry with the time in milliseconds and the peer that made the request. -/
structure Record where
  time : UInt64
  peer : Option Peer
  entry : Entry
  deriving DecidableEq, Repr

namespace Record

/-- The record as a JSON value. -/
def toValue (r : Record) : Json.Value :=
  .object [
    ("ts_unix_ms", .integer r.time.toNat),
    ("peer", .ofOption Peer.toValue r.peer),
    ("command", .string r.entry.commandName),
    ("paths", .array (r.entry.paths.map .string)),
    ("decision", .string r.entry.decision.name),
    ("reason", .ofOption (fun reason => .string reason.name) r.entry.reason),
    ("return_code", .integer r.entry.returnCode.toInt)]

/-- The line of a record. -/
def line (r : Record) : List Char := r.toValue.compact ++ ['\n']

end Record

/-- The log of some records. -/
def log (rs : List Record) : List Char := rs.flatMap Record.line

/-- Why a record could not be written. -/
structure Fault where
  path : String
  errno : Errno
  deriving DecidableEq, Repr

/-- What a user is told about the fault. -/
def Fault.message (f : Fault) : String :=
  "open audit log at " ++ f.path ++ ": " ++ f.errno.reason

/-- One more record in a log file, which is made where nothing is. -/
def append (t : FileTree) (path : Path) (r : Record) : Except Fault Unit × FileTree :=
  match t.appendAt path (Utf8.encode (String.ofList r.line)) with
  | (.ok (), t') => (.ok (), t')
  | (.error errno, t') => (.error ⟨Utf8.toStringLossy path.bytes, errno⟩, t')

end FileBroker.Audit
