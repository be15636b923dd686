/-
Requests: what a client asks of the broker.

* `Request`: the five kinds of request; an inspection is for the ordinary or the large structure.
* `Request.command`, `Request.paths`: the command that a request needs, and the paths it names.
-/
import FileBroker.Command
import FileBroker.Path

namespace FileBroker

/-- A request of a client. -/
inductive Request where
  | access (path : Path) (mode : Word)
  | openFile (path : Path) (flags : Word)
  | readlink (path : Path)
  | rename (old new : Path)
  | stat (path : Path) (follow large : Bool)
  deriving DecidableEq, Repr

namespace Request

/-- The command that the request needs. -/
def command : Request → Command
  | access .. => .access
  | openFile .. => .openFile
  | readlink .. => .readlink
  | rename .. => .rename
  | stat _ _ large => if large then .stat64 else .stat

/-- The paths that the request names, in order. -/
def paths : Request → List Path
  | access path _ => [path]
  | openFile path _ => [path]
  | readlink path => [path]
  | rename old new => [old, new]
  | stat path _ _ => [path]

end Request

end FileBroker
