/-
Frames on a stream: a body of known length, with at most one descriptor.

A frame is a header of four bytes and the body whose length the header tells. Of the descriptors
that come with header and body the first one is kept.

* `Stream.Frame`, `Stream.FrameFault`: frames, and why none could be received.
* `Stream.fill`: exactly so many bytes, however they arrive.
* `Stream.receiveFrame`: the next frame.
-/
import FileBroker.Stream.Inlet
import FileBroker.Wire.Message

namespace FileBroker.Stream

variable {δ : Type}

/-- A received frame: its body and the first descriptor that came with it. -/
structure Frame (δ : Type) where
  body : Bytes
  descriptor : Option δ
  deriving DecidableEq, Repr

/-- Why no frame could be received. -/
inductive FrameFault where
  | endOfStream
  | failed (errno : Errno)
  deriving DecidableEq, Repr

/-- Exactly `want` bytes, and the first descriptor that has come up to now: `fd`, or else the
first that comes with these bytes. An interrupted receive is repeated. -/
def fill (want : Nat) (fd : Option δ) (s : Inlet δ) :
    Except FrameFault (Bytes × Option δ) × Inlet δ :=
  if hw : want = 0 then (.ok ([], fd), s)
  else
    match h : receiveFrom s.ended want s.arrivals with
    | (.interrupted, rest) =>
      have := receiveFrom_length_lt h
      fill want fd { s with arrivals := rest }
    | (.endOfStream, rest) => (.error .endOfStream, { s with arrivals := rest })
    | (.failed errno, rest) => (.error (.failed errno), { s with arrivals := rest })
    | (.delivered bytes descriptors, rest) =>
      have : rest.length ≤ s.arrivals.length := by
        simpa [h] using receiveFrom_length_le s.ended want s.arrivals
      have := receiveFrom_bytes_length_pos (Nat.pos_of_ne_zero hw) h
      match fill (want - bytes.length) (fd <|> descriptors.head?) { s with arrivals := rest } with
      | (.ok (more, fd'), s') => (.ok (bytes ++ more, fd'), s')
      | (.error fault, s') => (.error fault, s')
termination_by (s.arrivals.length, want)
decreasing_by
  all_goals simp only [Prod.lex_def]; omega

/-- The next frame. A header that announces too long a body is taken alone. -/
def receiveFrame (s : Inlet δ) : Except FrameFault (Frame δ) × Inlet δ :=
  match fill Wire.headerLength none s with
  | (.error fault, s') => (.error fault, s')
  | (.ok (header, fd), s') =>
    match Wire.bodyLength header with
    | .error _ => (.error (.failed .messageTooLong), s')
    | .ok length =>
      match fill length fd s' with
      | (.error fault, s'') => (.error fault, s'')
      | (.ok (body, fd'), s'') => (.ok ⟨body, fd'⟩, s'')

end FileBroker.Stream
