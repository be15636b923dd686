/-
Socket addresses in a file tree.

A broker listens at a path, and clients connect to that path.

* `FileTree.AddressFault`: why a path is no address to connect to or to listen at.
* `FileTree.connect`: the socket at a path.
* `FileTree.bind`: a new socket at a path.
* `FileTree.listen`: the same, after what stood there was removed.
-/
import FileBroker.FileTree.Calls

namespace FileBroker.FileTree

/-- The number of bytes that an address with its final NUL holds at most. -/
def addressLimit : Nat := 108

/-- Why a path is no address. -/
inductive AddressFault where
  | tooLong
  | failed (errno : Errno)
  deriving DecidableEq, Repr

/-- What a user is told about the fault. -/
def AddressFault.message : AddressFault → String
  | tooLong => "path must be shorter than SUN_LEN"
  | failed errno => errno.reason

/-- The socket at a path, for whoever wants to connect to it. -/
def connect (t : FileTree) (path : Path) : Except AddressFault Nat :=
  if addressLimit ≤ path.bytes.length then .error .tooLong
  else if path.bytes = [] then .error (.failed .invalidArgument)
  else
    match t.resolve true path with
    | .error errno => .error (.failed errno)
    | .ok (id, .socket) => .ok id
    | .ok _ => .error (.failed .connectionRefused)

/-- Making a socket at a path where nothing is. -/
def bind (t : FileTree) (path : Path) : Except AddressFault (Nat × FileTree) :=
  if addressLimit ≤ path.bytes.length then .error .tooLong
  else
    match t.spot .keep path with
    | .error errno => .error (.failed errno)
    | .ok s =>
      match s.name with
      | none => .error (.failed .addressInUse)
      | some name =>
        match t.find? s.place.directory name with
        | .error errno => .error (.failed errno)
        | .ok (some _) => .error (.failed .addressInUse)
        | .ok none =>
          if s.slash then .error (.failed .notFound)
          else .ok (t.nextId, t.add s.place.directory name .socket)

/-- Why a broker cannot listen at a path. -/
inductive ListenFault where
  | remove (errno : Errno)
  | bind (cause : AddressFault)
  deriving DecidableEq, Repr

/-- Listening at a path. What a path leads to already is taken away before. -/
def listen (t : FileTree) (path : Path) : Except ListenFault (Nat × FileTree) :=
  match t.resolve true path with
  | .error _ => (t.bind path).mapError .bind
  | .ok _ =>
    match t.unlink path with
    | (.error errno, _) => .error (.remove errno)
    | (.ok (), t') => (t'.bind path).mapError .bind

end FileBroker.FileTree
