/-
Sessions: a client and the connection that a broker keeps for it.

* `Session`: both ends of one connection.
* `Session.replies`: the chunks among the effects of a connection.
* `Session.call`: a call, together with all that the broker does about it.
-/
import FileBroker.Broker.Connection
import FileBroker.Client

namespace FileBroker

variable {σ δ : Type}

/-- A client, its side of the connection, and the broker's. -/
structure Session (δ : Type) where
  client : Client
  line : Client.Line δ
  connection : Connection δ
  deriving DecidableEq, Repr

namespace Session

/-- A session that has just begun. -/
def opened (client : Client) : Session δ := ⟨client, ⟨.empty, {}⟩, .opened⟩

/-- The chunks among the effects of a connection. -/
def replies (effects : List (Connection.Effect δ)) : List (Stream.Chunk δ) :=
  effects.flatMap fun
    | .sent chunks => chunks
    | .recorded _ => []

/-- The connection has ended. -/
def hasEnded (c : Connection δ) : Bool :=
  match c.phase with
  | .ended => true
  | _ => false

/-- What a call in a session gives, and what it leaves behind. -/
structure Called (σ δ : Type) where
  result : Except Errno (Client.Answer δ)
  session : Session δ
  system : σ
  effects : List (Connection.Effect δ)

/-- A call. What the client sends does not depend on what is on its way to the client, so the
broker can answer before the client waits for the reply. -/
def call (s : Session δ) (g : Gate) (k : Kernel σ δ) (logs : Bool) (request : Request)
    (buffer : Bytes) (system : σ) : Called σ δ :=
  let sent := (s.client.call request buffer s.line).sent
  let served := (sent.foldl (fun c chunk => c.arrive chunk.bytes) s.connection).run g k logs system
  let inlet := s.line.inlet.push (replies served.effects)
  let inlet := { inlet with ended := inlet.ended || hasEnded served.connection }
  let called := s.client.call request buffer { s.line with inlet }
  ⟨called.result, { s with line := called.line, connection := served.connection }, served.system,
    served.effects⟩

end Session

end FileBroker
