/-
The control program: requests made by hand.

A request is either sent to a broker or, after `check`, only asked of the policy. The answer is
written as JSON.

* `Control.Ask`, `Control.Ask.request`: what a user asks for, and the request that it makes.
* `Control.Invocation`, `Control.Invocation.parse`: the arguments of the program.
* `Control.Summary`: what is written about a call.
* `Control.check`, `Control.send`: the answer without a broker, and from one.
* `Control.run`: the whole program, given the content of its policy file.
-/
import FileBroker.CommandLine.Options
import FileBroker.CommandLine.Report
import FileBroker.Document
import FileBroker.Host

namespace FileBroker.Control

open CommandLine (Ending Exit Level Matched Report Stop)

/-! ### Arguments -/

/-- What a user asks for. -/
inductive Ask where
  | access (path mode : String)
  | openFile (path : String) (options : OpenOptions)
  | readlink (path : String)
  | rename (old new : String)
  | stat (path : String) (follow large : Bool)
  deriving DecidableEq, Repr

/-- The arguments of the program: where the broker and the policy are, whether requests are checked
before they are sent, whether they are sent at all, and what is asked for. -/
structure Invocation where
  socketPath : String
  policyPath : String
  fastCheck : Bool
  dryRun : Bool
  ask : Ask
  deriving DecidableEq, Repr

/-- Where a broker listens unless told otherwise. -/
def defaultSocketPath : String := "/tmp/brokerd.sock"

namespace Ask

/-- The subcommands that make a request. -/
def names : List String := ["access", "open", "readlink", "rename", "stat"]

/-- The arguments of a subcommand that makes a request. -/
def level : String → Level
  | "access" => { settings := ["mode"], ending := .plain 1 }
  | "open" =>
    { flags := ["write", "read-write", "create", "exclusive", "truncate"], ending := .plain 1 }
  | "rename" => { ending := .plain 2 }
  | "stat" => { flags := ["no-follow", "large"], ending := .plain 1 }
  | _ => { ending := .plain 1 }

/-- The choices for an open file. A file that is not opened for writing alone is read, and the
program never leaves its descriptor to another one. -/
def options (m : Matched) : OpenOptions where
  read := !m.has "write" || m.has "read-write"
  write := m.has "write" || m.has "read-write"
  create := m.has "create"
  exclusive := m.has "exclusive"
  truncate := m.has "truncate"
  closeOnExec := true

/-- What the arguments of a subcommand ask for. -/
def ofMatched? (name : String) (m : Matched) : Option Ask :=
  match name, m.plain with
  | "access", [path] => some (.access path (m.value "mode" "f"))
  | "open", [path] => some (.openFile path (options m))
  | "readlink", [path] => some (.readlink path)
  | "rename", [old, new] => some (.rename old new)
  | "stat", [path] => some (.stat path (!m.has "no-follow") (m.has "large"))
  | _, _ => none

/-- What a subcommand with its arguments asks for. -/
def parse (name : String) (arguments : List String) : Except Stop Ask :=
  match (level name).scanAll arguments with
  | .error stop => .error stop
  | .ok m =>
    match ofMatched? name m with
    | some ask => .ok ask
    | none => .error .misused

end Ask

namespace Invocation

/-- The subcommand that asks the policy alone. -/
def checkName : String := "check"

/-- The arguments of the program. -/
def level : Level where
  flags := ["fast-check"]
  settings := ["socket-path", "policy"]
  filled := ["socket-path", "policy"]
  ending := .subcommand (checkName :: Ask.names)

/-- The arguments of the subcommand that asks the policy alone. -/
def checkLevel : Level := { ending := .subcommand Ask.names }

/-- What the subcommand asks for, and whether only the policy is asked. -/
def parseAsk (name : String) (arguments : List String) : Except Stop (Bool × Ask) :=
  if name = checkName then
    match checkLevel.scanTo arguments with
    | .error stop => .error stop
    | .ok (_, name, rest) => (Ask.parse name rest).map fun ask => (true, ask)
  else (Ask.parse name arguments).map fun ask => (false, ask)

/-- The invocation that some arguments make. -/
def parse (arguments : List String) : Except Stop Invocation :=
  match level.scanTo arguments with
  | .error stop => .error stop
  | .ok (m, name, rest) =>
    match parseAsk name rest, m.value? "policy" with
    | .error stop, _ => .error stop
    | .ok _, none => .error .misused
    | .ok (dryRun, ask), some policyPath =>
      .ok ⟨m.value "socket-path" defaultSocketPath, policyPath, m.has "fast-check", dryRun, ask⟩

end Invocation

/-! ### Requests -/

/-- The path that a text spells. -/
def pathOf (text : String) : Except Report Path :=
  let bytes := Utf8.encode text
  match Path.ofBytes? bytes with
  | some path => .ok path
  | none =>
    .error ⟨"path contains an interior nul byte",
      ["nul byte found in provided data at position: " ++ toString (bytes.idxOf 0)]⟩

/-- The request that is asked for. Its paths are looked at before its other arguments. -/
def Ask.request (a : Ask) : Except Report Request := do
  match a with
  | .access path mode =>
    let path ← pathOf path
    match AccessMode.parse mode with
    | .ok mode => return .access path mode
    | .error fault => throw ⟨fault.message, []⟩
  | .openFile path options => return .openFile (← pathOf path) options.flags
  | .readlink path => return .readlink (← pathOf path)
  | .rename old new => return .rename (← pathOf old) (← pathOf new)
  | .stat path follow large => return .stat (← pathOf path) follow large

/-! ### Answers -/

/-- A verdict as a JSON value. -/
def verdictValue (v : Verdict) : Json.Value :=
  .object [
    ("allowed", .boolean v.allowed),
    ("command", .string v.command.name),
    ("file_names", .array (v.fileNames.map .string)),
    ("unlink_after_open", .ofOption .boolean v.unlinkAfterOpen),
    ("flags", .ofOption (fun flags => .integer flags.toInt) v.flags)]

/-- What is written about a call: its error number, or else what it gave. -/
structure Summary where
  errno : Option Errno := none
  bytesRead : Option Nat := none
  target : Option String := none
  status : Option Status := none
  deriving DecidableEq, Repr

namespace Summary

/-- A member that is left out where there is nothing to write. -/
def member (key : String) (value : Option Json.Value) : List (String × Json.Value) :=
  (value.map fun v => (key, v)).toList

/-- The summary as a JSON value. -/
def toValue (s : Summary) : Json.Value :=
  .object (
    [("ok", .boolean s.errno.isNone),
      ("errno", .ofOption (fun e => .integer e.code.toInt) s.errno)] ++
    member "bytes_read" (s.bytesRead.map fun n => .integer n) ++
    member "target" (s.target.map .string) ++
    member "size" (s.status.map fun st => .integer st.size.toInt) ++
    member "mode" (s.status.map fun st => .integer st.mode.toNat))

end Summary

/-- The room for the target of a link. -/
def targetRoom : Nat := 4096

/-- What is written about an open file: how much can be read from it, if it was opened for that. -/
def summarizeOpen (t : FileTree) (fd : FileTree.Descriptor) : Except Report Summary :=
  if fd.direction = OpenFlags.writeOnly then .ok { bytesRead := some 0 }
  else
    match t.content fd with
    | .ok content => .ok { bytesRead := some content.length }
    | .error errno => .error ⟨"read opened file", [errno.reason]⟩

/-- What is written about a call. -/
def summarize (t : FileTree) :
    Except Errno (Client.Answer FileTree.Descriptor) → Except Report Summary
  | .error errno => .ok { errno := some errno }
  | .ok .done => .ok {}
  | .ok (.opened fd _) => summarizeOpen t fd
  | .ok (.link length buffer) => .ok { target := some (Utf8.toStringLossy (buffer.take length)) }
  | .ok (.status bytes) => .ok { status := some (.ofBytes bytes) }

/-! ### The program -/

/-- The gate of the policy file with a given content. -/
def loadGate (path : String) (content : Except Errno Bytes) : Except Report Gate :=
  (Gate.ofContent path content).mapError fun fault => ⟨"load policy from " ++ path, fault.causes⟩

/-- Asking the policy alone. -/
def check (g : Gate) (a : Ask) : Except Report String :=
  a.request.map fun request => (verdictValue (g.check request)).pretty

/-- The gate of the broker at a path. -/
def connect (h : Host) (socketPath : String) : Except Report Gate :=
  let failed (cause : String) : Report := ⟨"connect to broker at " ++ socketPath, [cause]⟩
  match Path.ofBytes? (Utf8.encode socketPath) with
  | none => .error (failed "paths must not contain interior null bytes")
  | some path => (h.connect path).mapError fun fault => failed fault.message

/-- Sending a request to the broker. The connection is made before the request is looked at. -/
def send (h : Host) (g : Gate) (i : Invocation) : Except Report String × Host :=
  match connect h i.socketPath with
  | .error report => (.error report, h)
  | .ok brokerGate =>
    match i.ask.request with
    | .error report => (.error report, h)
    | .ok request =>
      let (result, h') :=
        h.call brokerGate ⟨g, i.fastCheck⟩ request (List.replicate targetRoom 0)
      ((summarize h'.tree result).map fun s => s.toValue.pretty, h')

/-- How the program ends. -/
def exitOf : Except Report String → Exit
  | .ok text => .printed text
  | .error report => .failed report

/-- What an invocation does, given the content of its policy file. -/
def respond (i : Invocation) (content : Except Errno Bytes) (h : Host) : Exit × Host :=
  match loadGate i.policyPath content with
  | .error report => (.failed report, h)
  | .ok g =>
    if i.dryRun then (exitOf (check g i.ask), h)
    else
      let (result, h') := send h g i
      (exitOf result, h')

/-- How a program that stops at its arguments ends. -/
def exitOfStop : Stop → Exit
  | .misused => .misused
  | .explain => .explained

/-- The content of a file of a host. -/
def fileOf (h : Host) (path : String) : Except Errno Bytes :=
  match Path.ofBytes? (Utf8.encode path) with
  | some path => h.tree.contentAt path
  | none => .error .invalidArgument

/-- The whole program on a host. -/
def run (arguments : List String) (h : Host) : Exit × Host :=
  match Invocation.parse arguments with
  | .error stop => (exitOfStop stop, h)
  | .ok i => respond i (fileOf h i.policyPath) h

end FileBroker.Control
