/-
The gate: the commands that are served and the policy they are served under.

* `Gate.permitsAccess` … `Gate.permitsStat`: what the gate lets pass, for each kind of request.
* `Gate.approval?`, `Gate.evaluate`: the decision on a request, an `Approval` or a `Refusal`.
* `Gate.check`: the same question asked without a broker, answered by a `Verdict`.
-/
import FileBroker.Policy
import FileBroker.Request
import FileBroker.Text.Utf8

namespace FileBroker

/-- The served commands and the policy. -/
structure Gate where
  commands : CommandSet
  policy : Policy
  deriving DecidableEq, Repr

/-- A request that passed the gate, as it is handed to the kernel. -/
inductive Approval where
  | access (path : Path) (mode : Word)
  | openFile (path : Path) (flags : Word) (unlink : Bool)
  | readlink (path : Path)
  | rename (old new : Path)
  | stat (path : Path) (follow large : Bool)
  deriving DecidableEq, Repr

/-- The paths that an approval names, in order. -/
def Approval.paths : Approval → List Path
  | access path _ => [path]
  | openFile path _ _ => [path]
  | readlink path => [path]
  | rename old new => [old, new]
  | stat path _ _ => [path]

/-- Why a request is refused. The client never learns which it was. -/
inductive Refusal where
  | malformed
  | commandDisabled
  | policyDenied
  deriving DecidableEq, Repr

/-- The name of a reason in answers and audit records. -/
def Refusal.name : Refusal → String
  | malformed => "malformed"
  | commandDisabled => "command_disabled"
  | policyDenied => "policy_denied"

/-- What is granted with an open request: the name of the file, the flags that may be used, and
whether the file loses its name once it is open. -/
structure OpenGrant where
  name : Path
  flags : Word
  unlink : Bool
  deriving DecidableEq, Repr

/-- What is granted with a renaming: both names of the file. -/
structure RenameGrant where
  old : Path
  new : Path
  deriving DecidableEq, Repr

/-- What a dry run of a request tells. -/
structure Verdict where
  allowed : Bool
  command : Command
  fileNames : List String
  unlinkAfterOpen : Option Bool
  flags : Option Word
  deriving DecidableEq, Repr

namespace Verdict

/-- The verdict on a request that is refused. -/
def denied (command : Command) : Verdict := ⟨false, command, [], none, none⟩

/-- The verdict on a request that is granted for the given paths. -/
def granted (command : Command) (paths : List Path) : Verdict :=
  ⟨true, command, paths.map fun p => Utf8.toStringLossy p.bytes, none, none⟩

end Verdict

namespace Gate

/-- The name that an access request may be carried out on. -/
def permitsAccess (g : Gate) (path : Path) (mode : Word) : Option Path :=
  if g.commands.contains .access then g.policy.accessName? path mode else none

/-- What the gate grants with an open request. The flag that concerns the calling process alone
is ignored. -/
def permitsOpen (g : Gate) (path : Path) (flags : Word) : Option OpenGrant :=
  if g.commands.contains .openFile then
    (g.policy.opening? path (OpenFlags.onWire flags)).map fun o =>
      ⟨o.name, OpenFlags.onWire flags, o.unlink⟩
  else none

/-- The name under which a link may be read: where a file might be opened for reading. -/
def permitsReadlink (g : Gate) (path : Path) : Option Path :=
  if g.commands.contains .readlink then
    (g.policy.opening? path OpenFlags.readOnly).map (·.name)
  else none

/-- What the gate grants with a renaming: both ends must be where a file might be opened for
reading and writing, and would keep its name. -/
def permitsRename (g : Gate) (old new : Path) : Option RenameGrant :=
  if g.commands.contains .rename then
    match g.policy.opening? old OpenFlags.readWrite, g.policy.opening? new OpenFlags.readWrite with
    | some o, some n => if o.unlink || n.unlink then none else some ⟨o.name, n.name⟩
    | _, _ => none
  else none

/-- The name under which a file may be inspected with one of the two inspection commands. -/
def permitsStat (g : Gate) (command : Command) (path : Path) : Option Path :=
  if command = .stat || command = .stat64 then
    if g.commands.contains command then g.policy.statName? path else none
  else none

/-- The approval of a request, if the gate lets it pass. -/
def approval? (g : Gate) (request : Request) : Option Approval :=
  match request with
  | .access path mode => (g.permitsAccess path mode).map fun name => .access name mode
  | .openFile path flags =>
    (g.permitsOpen path flags).map fun grant => .openFile grant.name grant.flags grant.unlink
  | .readlink path => (g.permitsReadlink path).map .readlink
  | .rename old new => (g.permitsRename old new).map fun grant => .rename grant.old grant.new
  | .stat path follow large =>
    (g.permitsStat request.command path).map fun name => .stat name follow large

/-- The decision on a request: its command must be served, and the policy must grant it. -/
def evaluate (g : Gate) (request : Request) : Except Refusal Approval :=
  if g.commands.contains request.command then
    match g.approval? request with
    | some approval => .ok approval
    | none => .error .policyDenied
  else .error .commandDisabled

/-- The verdict on a request that is granted for one name, if it is. -/
def judge (command : Command) (name : Option Path) : Verdict :=
  match name with
  | some name => .granted command [name]
  | none => .denied command

/-- The dry run of a request. -/
def check (g : Gate) (request : Request) : Verdict :=
  match request with
  | .access path mode => judge request.command (g.permitsAccess path mode)
  | .openFile path flags =>
    match g.permitsOpen path flags with
    | some grant =>
      { Verdict.granted request.command [grant.name] with
        unlinkAfterOpen := some grant.unlink, flags := some grant.flags }
    | none => .denied request.command
  | .readlink path => judge request.command (g.permitsReadlink path)
  | .rename old new =>
    match g.permitsRename old new with
    | some grant => .granted request.command [grant.old, grant.new]
    | none => .denied request.command
  | .stat path _ _ => judge request.command (g.permitsStat request.command path)

end Gate

end FileBroker
