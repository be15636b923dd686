/-
The program on the command line: it reads files and writes answers, and decides nothing itself.

Nobody listens on the host that it works on, so it answers `check` and `schema` in full, and every
other request with the report that no broker can be reached.

* `Terminal.errnoOf`, `Terminal.contentOf`: files of the system.
* `Terminal.finish`: the end of the program.
* `main`: the schema of policy documents after `schema`, the start of a broker after `serve`, and
  a request in all other cases.
-/
import FileBroker.Document.Schema
import FileBroker.Startup

namespace FileBroker.Terminal

open CommandLine (Exit)

/-- The error number behind a failure of the system. -/
def errnoOf : IO.Error → Errno
  | .alreadyExists _ code _ | .invalidArgument _ code _ | .permissionDenied _ code _
  | .resourceExhausted _ code _ | .inappropriateType _ code _ | .noSuchThing _ code _
  | .interrupted _ code _ | .noFileOrDirectory _ code _ | .otherError code _
  | .resourceBusy code _ | .resourceVanished code _ | .unsupportedOperation code _
  | .hardwareFault code _ | .unsatisfiedConstraints code _ | .illegalOperation code _
  | .protocolError code _ | .timeExpired code _ => ⟨code.toInt32⟩
  | .unexpectedEof | .userError _ => .inputOutput

/-- The content of a file. -/
def contentOf (path : String) : IO (Except Errno Bytes) := do
  try
    return .ok (← IO.FS.readBinFile path).toList
  catch e =>
    return .error (errnoOf e)

/-- Writing what the program ends with, and its status. -/
def finish (e : Exit) : IO UInt32 := do
  match e with
  | .printed text => IO.print text
  | .failed report => IO.eprint report.text
  | .misused => IO.eprintln "error: the arguments are not understood"
  | .explained =>
    IO.println ("arguments: --policy FILE [--socket-path PATH] [--fast-check] [check] " ++
      String.intercalate "|" Control.Ask.names ++ " …")
  return e.status.toUInt32

/-- The host that the program works on. -/
def host : Host := .quiet .bare

/-- A request made by hand. -/
def ask (arguments : List String) : IO UInt32 := do
  match Control.Invocation.parse arguments with
  | .error stop => finish (Control.exitOfStop stop)
  | .ok i => finish (Control.respond i (← contentOf i.policyPath) host).1

/-- The start of a broker, which ends at once when it has nobody to serve. -/
def serve (arguments : List String) : IO UInt32 := do
  match Startup.parse arguments with
  | .error stop => finish (Control.exitOfStop stop)
  | .ok s =>
    match s.begin (← contentOf s.policyPath) host with
    | .error report => finish (.failed report)
    | .ok _ => return 0

end FileBroker.Terminal

open FileBroker in
/-- The program. -/
def main (arguments : List String) : IO UInt32 :=
  match arguments with
  | ["schema"] => Terminal.finish (.printed (Document.schema.pretty ++ "\n"))
  | "serve" :: rest => Terminal.serve rest
  | _ => Terminal.ask arguments
