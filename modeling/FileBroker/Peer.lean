/-
Peers: who stands at the other end of a connection.

* `Peer`: the process, user and group at the other end.
* `Peer.parse`, `Peer.toValue`: peers from JSON text, and the JSON value of a peer.
-/
import FileBroker.Bytes
import FileBroker.Json.Shape
import FileBroker.Json.Value

namespace FileBroker

/-- The process, the user and the group at the other end of a connection. -/
structure Peer where
  pid : Word
  uid : UInt32
  gid : UInt32
  deriving DecidableEq, Repr

namespace Peer

/-- Reading a signed 32-bit word. -/
def signedWord : Json.Scan Int := Json.wholeNumber (-0x80000000) 0x7FFFFFFF "i32"

/-- Reading an unsigned 32-bit word. -/
def unsignedWord : Json.Scan Int := Json.wholeNumber 0 0xFFFFFFFF "u32"

/-- The fields of a peer. -/
def layout : Json.Layout Int Int Int where
  title := "PeerCredentials"
  first := { key := "pid", read := signedWord }
  second := { key := "uid", read := unsignedWord }
  third := { key := "gid", read := unsignedWord }

/-- Reading a peer. -/
def read : Json.Scan Peer := fun s =>
  (Json.record layout s).map fun ((pid, uid, gid), rest) =>
    (⟨.ofInt pid, .ofNat uid.toNat, .ofNat gid.toNat⟩, rest)

/-- The peer that a text describes. -/
def parse (text : String) : Except Json.Fault Peer := Json.document read text.toList

/-- The peer as a JSON value. -/
def toValue (p : Peer) : Json.Value :=
  .object [("pid", .integer p.pid.toInt), ("uid", .integer p.uid.toNat),
    ("gid", .integer p.gid.toNat)]

end Peer

end FileBroker
