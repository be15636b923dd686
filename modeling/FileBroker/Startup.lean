/-
Starting a broker: its arguments, its policy and its socket.

* `Startup`, `Startup.parse`: the arguments of the program.
* `Startup.begin`: the host on which the broker listens, or the report that it ends with.
* `Startup.run`: the same from the arguments.
-/
import FileBroker.Control

namespace FileBroker

open CommandLine (Exit Level Report Stop)

/-- The arguments of a broker. -/
structure Startup where
  socketPath : String
  policyPath : String
  auditPath : String
  deriving DecidableEq, Repr

namespace Startup

/-- Where the audit log is written unless told otherwise. -/
def defaultAuditPath : String := "./brokerd-audit.jsonl"

/-- The arguments of the program. -/
def level : Level where
  settings := ["socket-path", "policy", "audit-path"]
  filled := ["policy"]
  ending := .plain 0

/-- What some arguments say. -/
def parse (arguments : List String) : Except Stop Startup :=
  match level.scanAll arguments with
  | .error stop => .error stop
  | .ok m =>
    match m.value? "policy" with
    | none => .error .misused
    | some policyPath =>
      .ok ⟨m.value "socket-path" Control.defaultSocketPath, policyPath,
        m.value "audit-path" defaultAuditPath⟩

/-- The report on a broker that cannot listen at a path. -/
def listenReport (socketPath : String) : FileTree.ListenFault → Report
  | .remove errno => ⟨"remove existing socket at " ++ socketPath, [errno.reason]⟩
  | .bind cause => ⟨"bind " ++ socketPath, [cause.message]⟩

/-- The host after the broker has begun to listen, given the content of its policy file. -/
def begin (s : Startup) (content : Except Errno Bytes) (h : Host) : Except Report Host :=
  match Control.loadGate s.policyPath content with
  | .error report => .error report
  | .ok g =>
    match Path.ofBytes? (Utf8.encode s.socketPath) with
    | none => .error ⟨"bind " ++ s.socketPath, ["paths must not contain interior null bytes"]⟩
    | some path => (h.listen path g).mapError (listenReport s.socketPath)

/-- Starting the broker on a host, or how the program ends. -/
def run (arguments : List String) (h : Host) : Except Exit Host :=
  match parse arguments with
  | .error stop => .error (Control.exitOfStop stop)
  | .ok s => (s.begin (Control.fileOf h s.policyPath) h).mapError .failed

end Startup

end FileBroker
