/-
Readers: the entries of a body, one after another.

A read that fails keeps what it has taken: nothing at the end of the body, the tag when the tag
is wrong or its number is cut off, tag and length when the data is cut off, the whole entry when
the data is no path.

* `Wire.Reader`: what is left of a body, and how much has been taken.
* `Wire.Reading`: reading as an effect on a reader, whose failures keep what was taken.
* `Wire.int`, `Wire.data`, `Wire.text`: the next entry, which must be of the given kind.
-/
import FileBroker.Wire.Entry

namespace FileBroker.Wire

/-- A body that is being read. -/
structure Reader where
  position : Nat
  rest : Bytes
  deriving DecidableEq, Repr

namespace Reader

/-- The reader at the start of a body. -/
def ofBytes (body : Bytes) : Reader := ⟨0, body⟩

/-- Everything has been read. -/
def exhausted (r : Reader) : Bool := r.rest.isEmpty

/-- The reader after `n` more bytes. -/
def advance (r : Reader) (n : Nat) : Reader := ⟨r.position + n, r.rest.drop n⟩

end Reader

/-- Reading a value, which may fail on the way. -/
def Reading (α : Type) : Type := Reader → Except Fault α × Reader

namespace Reading

instance : Monad Reading where
  pure a := fun r => (.ok a, r)
  bind x f := fun r =>
    match x r with
    | (.ok a, r') => f a r'
    | (.error fault, r') => (.error fault, r')

/-- Reading that fails without taking anything. -/
def fail {α : Type} (fault : Fault) : Reading α := fun r => (.error fault, r)

end Reading

/-- The next `n` bytes. -/
def take (n : Nat) : Reading Bytes := fun r =>
  let bytes := r.rest.take n
  if bytes.length = n then (.ok bytes, r.advance n) else (.error .truncated, r)

/-- The tag of the next entry, which must be the expected one. -/
def tag (expected : UInt8) : Reading Unit := fun r =>
  match r.rest with
  | [] => (.error .truncated, r)
  | found :: _ =>
    (if found = expected then .ok () else .error (.unexpectedTag expected found), r.advance 1)

/-- The next unsigned word. -/
def word : Reading UInt32 := fun r =>
  match r.rest with
  | a :: b :: c :: d :: _ => (.ok (wordOfBytes a b c d), r.advance 4)
  | _ => (.error .truncated, r)

/-- The next entry, an integer. -/
def int : Reading Word := do
  tag intTag
  let n ← word
  return n.toInt32

/-- The next entry, data. -/
def data : Reading Bytes := do
  tag dataTag
  let n ← word
  take n.toNat

/-- The next entry, data that spells a path. -/
def text : Reading Path := do
  let bytes ← data
  match Path.ofTerminated? bytes with
  | some path => return path
  | none => Reading.fail .invalidText

end FileBroker.Wire
