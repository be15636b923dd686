/-
The sending side of a stream connection.

A write may take only a part of what is offered, or fail; a sender goes on after a short write
and tries again after the one failure that it expects.

* `Stream.Attempt`: how a single write ends.
* `Stream.transmit`: the chunks that a sender's writes produce. A descriptor is attached to the
  first of them.
* `Stream.Outlet`, `Stream.Outlet.send`: the sending side with the writes that lie ahead.
-/
import FileBroker.Stream.Inlet

namespace FileBroker.Stream

variable {δ : Type}

/-- How a write ends: it takes one byte and up to `more` further ones, or it fails. -/
inductive Attempt where
  | takes (more : Nat)
  | fails (errno : Errno)
  deriving DecidableEq, Repr

/-- What became of bytes that were to be sent: how sending ended, the chunks that went out, and
the writes that still lie ahead. -/
structure Sent (δ : Type) where
  result : Except Errno Unit
  chunks : List (Chunk δ)
  attempts : List Attempt

/-- Sending bytes with a descriptor. A write that fails with `again` is repeated. Once no attempt
is given, a write takes everything. -/
def transmit (again : Errno) : List Attempt → Bytes → Option δ → Sent δ
  | [], bytes, fd => ⟨.ok (), if bytes = [] then [] else [⟨bytes, fd.toList⟩], []⟩
  | .takes more :: rest, bytes, fd =>
    if bytes = [] then ⟨.ok (), [], .takes more :: rest⟩
    else
      let sent := transmit again rest (bytes.drop (more + 1)) none
      { sent with chunks := ⟨bytes.take (more + 1), fd.toList⟩ :: sent.chunks }
  | .fails errno :: rest, bytes, fd =>
    if bytes = [] then ⟨.ok (), [], .fails errno :: rest⟩
    else if errno = again then transmit again rest bytes fd
    else ⟨.error errno, [], rest⟩

/-- The sending side: the writes that lie ahead, and whether the other end is gone. -/
structure Outlet where
  attempts : List Attempt := []
  gone : Bool := false
  deriving DecidableEq, Repr, Inhabited

/-- Sending bytes with a descriptor. Where the other end is gone, nothing goes out. -/
def Outlet.send (o : Outlet) (again : Errno) (bytes : Bytes) (fd : Option δ) :
    Except Errno Unit × List (Chunk δ) × Outlet :=
  if o.gone then (.error .brokenPipe, [], o)
  else
    let sent := transmit again o.attempts bytes fd
    (sent.result, sent.chunks, { o with attempts := sent.attempts })

end FileBroker.Stream
