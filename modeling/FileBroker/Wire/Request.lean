/-
Requests and replies as message bodies.

A request is the number of its command and its arguments; a reply is a return code and, with
some commands, a payload. A body holds nothing else.

* `Request.entries`, `Request.encode`, `Request.decode`: requests as bodies and back.
* `Reply`, `Reply.entries`, `Reply.encode`, `Reply.decode`: replies as bodies and back.
-/
import FileBroker.Request
import FileBroker.Wire.Message
import FileBroker.Wire.Reader

namespace FileBroker

open Wire (Entry Message Reader Reading)

/-- A truth value as an integer. -/
def wordOfBool (b : Bool) : Word := if b then 1 else 0

namespace Request

/-- The arguments of a request as entries. -/
def arguments : Request → List Entry
  | access path mode => [.text path, .int mode]
  | openFile path flags => [.text path, .int flags]
  | readlink path => [.text path]
  | rename old new => [.text old, .text new]
  | stat path follow _ => [.text path, .int (wordOfBool follow)]

/-- The entries of a request: its command's number, then its arguments. -/
def entries (r : Request) : List Entry := .int r.command.code :: r.arguments

/-- The request in place of whatever the message held. -/
def encode (r : Request) (m : Message) : Except Wire.Fault Unit × Message :=
  m.clear.extend r.entries

/-- Reading the arguments of a command. -/
def readArguments : Command → Reading Request
  | .access => do return .access (← Wire.text) (← Wire.int)
  | .openFile => do return .openFile (← Wire.text) (← Wire.int)
  | .readlink => do return .readlink (← Wire.text)
  | .rename => do return .rename (← Wire.text) (← Wire.text)
  | .stat => do return .stat (← Wire.text) ((← Wire.int) != 0) false
  | .stat64 => do return .stat (← Wire.text) ((← Wire.int) != 0) true
  | .invalid => .fail (.unknownCommand Command.invalid.code)

/-- Reading a request. -/
def read : Reading Request := do
  let code ← Wire.int
  match Command.ofCode? code with
  | some command => readArguments command
  | none => .fail (.unknownCommand code)

/-- The request that a body holds, if it holds nothing else. -/
def decode (body : Bytes) : Except Wire.Fault Request :=
  if Wire.capacity < body.length then .error (.frameTooLarge body.length)
  else match read (Reader.ofBytes body) with
    | (.ok request, rest) => if rest.exhausted then .ok request else .error .trailingData
    | (.error fault, _) => .error fault

end Request

/-- An answer of the broker. -/
structure Reply where
  returnCode : Word
  payload : Option Bytes
  deriving DecidableEq, Repr

namespace Reply

/-- The entries of a reply. -/
def entries (r : Reply) : List Entry := .int r.returnCode :: (r.payload.map Entry.data).toList

/-- The reply in place of whatever the message held. -/
def encode (r : Reply) (m : Message) : Except Wire.Fault Unit × Message := m.clear.extend r.entries

/-- The reply that a body holds, if it holds nothing else. -/
def decode (body : Bytes) : Except Wire.Fault Reply :=
  match Wire.int (Reader.ofBytes body) with
  | (.error fault, _) => .error fault
  | (.ok code, rest) =>
    if rest.exhausted then .ok ⟨code, none⟩
    else match Wire.data rest with
      | (.error fault, _) => .error fault
      | (.ok payload, rest') =>
        if rest'.exhausted then .ok ⟨code, some payload⟩ else .error .trailingData

end Reply

end FileBroker
