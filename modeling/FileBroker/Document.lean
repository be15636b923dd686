/-
Policy documents: the JSON text that a broker is started with.

A document lists the served commands and the permissions. It is compiled as a whole or not at
all: a gate comes only from a document whose every command can be served and whose every
permission makes a rule.

* `DeniedErrno`, `Permission`, `Document`: what a document says.
* `Document.read`, `Document.parse`: documents from JSON text.
* `Document.toValue`: the JSON value that says the same, with every field written.
* `Document.compile`: the gate of a document.
* `Document.Fault`: why a document gives no gate, `Document.Fault.message` and
  `Document.Fault.causes` its wording.
* `Document.ofContent`, `Gate.ofContent`: documents and gates from the content of a file.
-/
import FileBroker.Gate
import FileBroker.Json.Shape
import FileBroker.Json.Value

namespace FileBroker

/-- The error numbers that a refused client can be told. -/
inductive DeniedErrno where
  | eperm
  | eacces
  deriving DecidableEq, Repr, Inhabited

namespace DeniedErrno

/-- The name of the error number in a document. -/
def name : DeniedErrno → String
  | eperm => "eperm"
  | eacces => "eacces"

/-- Both error numbers with their names. -/
def names : List (String × DeniedErrno) := [eperm, eacces].map fun e => (e.name, e)

/-- The error number itself. -/
def errno : DeniedErrno → Errno
  | eperm => .notPermitted
  | eacces => .accessDenied

end DeniedErrno

/-- A permission of a document: a path, what is granted there, and whether the directories on the
way may be inspected. -/
structure Permission where
  path : String
  access : AccessClass
  intermediates : Bool
  deriving DecidableEq, Repr

/-- A policy document. -/
structure Document where
  denied : DeniedErrno
  commands : List Command
  permissions : List Permission
  deriving DecidableEq, Repr

/-! ### Reading and writing -/

namespace Permission

/-- The fields of a permission. -/
def layout : Json.Layout String AccessClass Bool where
  title := "PermissionEntry"
  first := { key := "path", read := Json.text }
  second := { key := "access", read := Json.variant AccessClass.names }
  third := { key := "allow_stat_with_intermediates", read := Json.boolean, standard := some false }

/-- Reading a permission. -/
def read : Json.Scan Permission := fun s =>
  (Json.record layout s).map fun ((path, access, intermediates), rest) =>
    (⟨path, access, intermediates⟩, rest)

/-- The permission with every field written. -/
def toValue (p : Permission) : Json.Value :=
  .object [("path", .string p.path), ("access", .string p.access.name),
    ("allow_stat_with_intermediates", .boolean p.intermediates)]

end Permission

namespace Document

/-- The fields of a document. -/
def layout : Json.Layout DeniedErrno (List Command) (List Permission) where
  title := "PolicyFile"
  first :=
    { key := "denied_errno", read := Json.variant DeniedErrno.names, standard := some .eperm }
  second := { key := "commands", read := Json.sequence (Json.variant Command.names) }
  third := { key := "permissions", read := Json.sequence Permission.read }

/-- Reading a document. -/
def read : Json.Scan Document := fun s =>
  (Json.record layout s).map fun ((denied, commands, permissions), rest) =>
    (⟨denied, commands, permissions⟩, rest)

/-- The document that a text holds. -/
def parse (text : String) : Except Json.Fault Document := Json.document read text.toList

/-- The document with every field written. -/
def toValue (d : Document) : Json.Value :=
  .object [("denied_errno", .string d.denied.name),
    ("commands", .array (d.commands.map fun c => .string c.name)),
    ("permissions", .array (d.permissions.map Permission.toValue))]

/-! ### Faults -/

/-- Why the content of a file is no text. -/
inductive ReadFault where
  | system (errno : Errno)
  | notUtf8
  deriving DecidableEq, Repr

/-- What a user is told about the fault. -/
def ReadFault.message : ReadFault → String
  | system errno => errno.reason
  | notUtf8 => "stream did not contain valid UTF-8"

/-- Why a document gives no gate. -/
inductive Fault where
  | unreadable (path : String) (cause : ReadFault)
  | unparsable (cause : Json.Fault)
  | badRule (path : String) (cause : RuleFault)
  | invalidCommand
  deriving DecidableEq, Repr

namespace Fault

/-- The fault behind the fault, if there is one. -/
def cause? : Fault → Option String
  | unreadable _ cause => some cause.message
  | unparsable cause => some cause.message
  | badRule _ cause => some cause.message
  | invalidCommand => none

/-- What a user is told about the fault. -/
def message : Fault → String
  | unreadable path cause => "read policy file " ++ path ++ ": " ++ cause.message
  | unparsable cause => "parse policy file: " ++ cause.message
  | badRule path cause => "invalid rule for " ++ Text.quoted path ++ ": " ++ cause.message
  | invalidCommand => Json.ticked Command.invalid.name ++ " is not a servable command"

/-- The messages of the fault and of the one behind it. -/
def causes (f : Fault) : List String := f.message :: f.cause?.toList

end Fault

/-! ### Gates -/

/-- The rule that a permission makes. -/
def rule (p : Permission) : Except Fault Rule :=
  match Rule.make? (Utf8.encode p.path) p.access p.intermediates with
  | .ok r => .ok r
  | .error fault => .error (.badRule p.path fault)

/-- The rules that permissions make, in order; the first permission that makes none is the
fault. -/
def rules : List Permission → Except Fault (List Rule)
  | [] => .ok []
  | p :: ps =>
    match rule p with
    | .error fault => .error fault
    | .ok r => (rules ps).map (r :: ·)

/-- The gate of a document. A command that cannot be served is a fault before any permission is
looked at. -/
def compile (d : Document) : Except Fault Gate :=
  if .invalid ∈ d.commands then .error .invalidCommand
  else (rules d.permissions).map fun rs => ⟨.ofList d.commands, ⟨d.denied.errno, rs⟩⟩

/-- The document in a file of the given name and content. -/
def ofContent (path : String) : Except Errno Bytes → Except Fault Document
  | .error errno => .error (.unreadable path (.system errno))
  | .ok content =>
    match Utf8.toString? content with
    | none => .error (.unreadable path .notUtf8)
    | some text =>
      match parse text with
      | .ok d => .ok d
      | .error fault => .error (.unparsable fault)

end Document

/-- The gate of the document in a file of the given name and content. -/
def Gate.ofContent (path : String) (content : Except Errno Bytes) : Except Document.Fault Gate :=
  match Document.ofContent path content with
  | .ok d => d.compile
  | .error fault => .error fault

end FileBroker
