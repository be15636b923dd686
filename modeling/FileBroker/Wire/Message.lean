/-
Messages: bodies that are built entry by entry and never exceed their capacity.

* `Wire.Message`, `Wire.Message.empty`: messages, and the one without entries.
* `Wire.Message.add`: one more entry, if it fits; otherwise the message stays as it is.
* `Wire.Message.extend`: several entries in order; those before the first that does not fit stay.
* `Wire.Message.frame`: the body with its length in front.
-/
import FileBroker.Wire.Entry

namespace FileBroker.Wire

/-- A message body under construction. -/
structure Message where
  body : Bytes
  body_length_le : body.length ≤ capacity
  deriving DecidableEq, Repr

namespace Message

/-- The message without entries. -/
def empty : Message := ⟨[], Nat.zero_le _⟩

instance : Inhabited Message := ⟨empty⟩

/-- The message with its entries taken out, ready to be filled anew. -/
def clear (_ : Message) : Message := empty

/-- The message with one more entry, and whether it fitted. -/
def add (m : Message) (e : Entry) : Except Fault Unit × Message :=
  if h : (m.body ++ e.encode).length ≤ capacity then (.ok (), ⟨m.body ++ e.encode, h⟩)
  else (.error .full, m)

/-- The message with several more entries, up to the first that does not fit. -/
def extend (m : Message) : List Entry → Except Fault Unit × Message
  | [] => (.ok (), m)
  | e :: es =>
    match m.add e with
    | (.ok (), m') => m'.extend es
    | (.error fault, m') => (.error fault, m')

/-- The length of the body in front of the body. -/
def frame (m : Message) : Bytes := wordBytes (UInt32.ofNat m.body.length) ++ m.body

end Message

/-- The number of bytes in front of a body. -/
def headerLength : Nat := 4

/-- The length of the body that a header announces. -/
def bodyLength (header : Bytes) : Except Fault Nat :=
  match header with
  | [a, b, c, d] =>
    let length := (wordOfBytes a b c d).toNat
    if length ≤ capacity then .ok length else .error (.frameTooLarge length)
  | _ => .error .truncated

end FileBroker.Wire
