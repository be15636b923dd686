/-
Hosts: a file tree, and the brokers that listen in it.

* `Host`: the file tree and the gates of the brokers, each at its socket.
* `Host.connect`, `Host.listen`: who listens at a path, and a new broker that does.
* `Host.call`: one call to a broker, on a connection of its own.
-/
import FileBroker.FileTree.Address
import FileBroker.Session

namespace FileBroker

/-- A file tree and the brokers that listen in it, each known by the node of its socket. -/
structure Host where
  tree : FileTree
  brokers : List (Nat × Gate)
  deriving DecidableEq, Repr

namespace Host

/-- The host of a file tree where nobody listens. -/
def quiet (tree : FileTree) : Host := ⟨tree, []⟩

/-- The gate of the broker that listens at a path. -/
def connect (h : Host) (path : Path) : Except FileTree.AddressFault Gate :=
  match h.tree.connect path with
  | .error fault => .error fault
  | .ok id =>
    match h.brokers.lookup id with
    | some g => .ok g
    | none => .error (.failed .connectionRefused)

/-- The host after a broker has begun to listen at a path. -/
def listen (h : Host) (path : Path) (g : Gate) : Except FileTree.ListenFault Host :=
  (h.tree.listen path).map fun (id, tree) => ⟨tree, (id, g) :: h.brokers⟩

/-- One call of a client to the broker with the gate `g`, on a connection of its own. -/
def call (h : Host) (g : Gate) (client : Client) (request : Request) (buffer : Bytes) :
    Except Errno (Client.Answer FileTree.Descriptor) × Host :=
  let called := (Session.opened client).call g FileTree.kernel true request buffer h.tree
  (called.result, { h with tree := called.system })

end Host

end FileBroker
