/-
Clients: requests sent over a stream, and what their replies mean.

A call sends one request and waits for one reply. With the fast check it first asks its own gate,
and a request that the gate refuses is never sent.

* `Client`, `Client.Line`: a client, and its connection to a broker.
* `Client.Answer`: what a successful call gives.
* `Client.prepare`: the message of a call, or the error it ends with at once.
* `Client.interpret`: what a received frame means for the call that waits for it.
* `Client.call`: a whole call.
-/
import FileBroker.Gate
import FileBroker.Status
import FileBroker.Stream.Frame
import FileBroker.Stream.Outlet
import FileBroker.Wire.Request

namespace FileBroker

open FileBroker.Stream (Chunk Frame Inlet Outlet)

/-- The request as it is sent: without the flag that each process decides for itself. -/
def Request.onWire : Request → Request
  | openFile path flags => openFile path (OpenFlags.onWire flags)
  | r => r

/-- A client: the gate that it expects the broker to have, and whether it asks it first. -/
structure Client where
  gate : Gate
  fastCheck : Bool
  deriving DecidableEq, Repr

namespace Client

variable {δ : Type}

/-- The two sides of a client's connection. -/
structure Line (δ : Type) where
  inlet : Inlet δ
  outlet : Outlet
  deriving DecidableEq, Repr

/-- What a successful call gives: nothing, an open file, the number of bytes written to the
caller's buffer and that buffer, or a status structure. -/
inductive Answer (δ : Type) where
  | done
  | opened (fd : δ) (closeOnExec : Bool)
  | link (length : Nat) (buffer : Bytes)
  | status (bytes : Bytes)
  deriving DecidableEq, Repr

/-- The message of a call, or the error that the call ends with before anything is sent. -/
def prepare (c : Client) (request : Request) : Except Errno Wire.Message :=
  if c.fastCheck && !(c.gate.check request).allowed then .error c.gate.policy.deniedErrno
  else
    match request.onWire.encode .empty with
    | (.ok (), message) => .ok message
    | (.error _, _) => .error .nameTooLong

/-- The buffer after as much of `data` as it has room for was written to its front. -/
def overwrite (buffer data : Bytes) : Bytes :=
  data.take buffer.length ++ buffer.drop data.length

/-- What a reply that reports success gives to a call. -/
def accept (request : Request) (buffer : Bytes) (payload : Bytes) (fd : Option δ) :
    Except Errno (Answer δ) :=
  match request with
  | .access .. => .ok .done
  | .openFile _ flags =>
    match fd with
    | some fd => .ok (.opened fd (flags.overlaps OpenFlags.closeOnExec))
    | none => .error .inputOutput
  | .readlink _ => .ok (.link (min payload.length buffer.length) (overwrite buffer payload))
  | .rename .. => .ok .done
  | .stat .. =>
    if payload.length = Status.length then .ok (.status payload) else .error .inputOutput

/-- What a received frame means for a call. -/
def interpret (request : Request) (buffer : Bytes) (frame : Frame δ) : Except Errno (Answer δ) :=
  match Reply.decode frame.body with
  | .error _ => .error .inputOutput
  | .ok reply =>
    if reply.returnCode < 0 then .error ⟨-reply.returnCode⟩
    else accept request buffer (reply.payload.getD []) frame.descriptor

/-- Waiting for the reply to a call. -/
def conclude (request : Request) (buffer : Bytes) (inlet : Inlet δ) :
    Except Errno (Answer δ) × Inlet δ :=
  match Stream.receiveFrame inlet with
  | (.ok frame, inlet') => (interpret request buffer frame, inlet')
  | (.error .endOfStream, inlet') => (.error .inputOutput, inlet')
  | (.error (.failed errno), inlet') => (.error errno, inlet')

/-- What became of a call: its result, what it sent, and the connection after it. -/
structure Called (δ : Type) where
  result : Except Errno (Answer δ)
  sent : List (Chunk δ)
  line : Line δ

/-- A call. The buffer is the caller's; only the target of a link is written to it. -/
def call (c : Client) (request : Request) (buffer : Bytes) (line : Line δ) : Called δ :=
  match c.prepare request with
  | .error errno => ⟨.error errno, [], line⟩
  | .ok message =>
    match line.outlet.send .interrupted message.frame none with
    | (.error errno, sent, outlet) => ⟨.error errno, sent, { line with outlet }⟩
    | (.ok (), sent, outlet) =>
      let (result, inlet) := conclude request buffer line.inlet
      ⟨result, sent, { inlet, outlet }⟩

end Client

end FileBroker
