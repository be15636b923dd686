/-
Entries: the tagged values that messages are made of.

An entry is a tag byte and a value: four bytes of an integer, or four bytes of a length and as
many bytes of data. All numbers are little-endian.

* `Wire.Fault`: what can be wrong with a message.
* `Wire.wordBytes`, `Wire.wordOfBytes`: unsigned words as four bytes, inverse to each other.
* `Wire.Entry`, `Wire.Entry.encode`: entries and their bytes.
-/
import FileBroker.Path

namespace FileBroker.Wire

/-- The number of bytes that a message holds at most. -/
def capacity : Nat := 4096

/-- What can be wrong with a message. -/
inductive Fault where
  | full
  | frameTooLarge (length : Nat)
  | truncated
  | unexpectedTag (expected found : UInt8)
  | invalidText
  | unknownCommand (code : Word)
  | trailingData
  deriving DecidableEq, Repr

/-- What a user is told about the fault. -/
def Fault.message : Fault → String
  | full => "message would exceed " ++ toString capacity ++ " bytes"
  | frameTooLarge length =>
    "frame of " ++ toString length ++ " bytes exceeds " ++ toString capacity ++ " bytes"
  | truncated => "message is truncated"
  | unexpectedTag expected found =>
    "expected entry tag " ++ toString expected.toNat ++ ", found " ++ toString found.toNat
  | invalidText => "string argument is not nul-terminated or contains an interior nul"
  | unknownCommand code => "unknown command " ++ toString code.toInt
  | trailingData => "trailing bytes after the last argument"

/-- The four bytes of an unsigned word, lowest first. -/
def wordBytes (n : UInt32) : Bytes :=
  [UInt8.ofNat n.toNat, UInt8.ofNat (n.toNat / 256), UInt8.ofNat (n.toNat / 65536),
    UInt8.ofNat (n.toNat / 16777216)]

/-- The unsigned word of four bytes, lowest first. -/
def wordOfBytes (a b c d : UInt8) : UInt32 :=
  UInt32.ofNat (a.toNat + 256 * b.toNat + 65536 * c.toNat + 16777216 * d.toNat)

theorem wordBytes_length (n : UInt32) : (wordBytes n).length = 4 := rfl

/-- Reading the four bytes of a word gives the word back. -/
theorem wordOfBytes_wordBytes (n : UInt32) :
    wordOfBytes (UInt8.ofNat n.toNat) (UInt8.ofNat (n.toNat / 256)) (UInt8.ofNat (n.toNat / 65536))
      (UInt8.ofNat (n.toNat / 16777216)) = n := by
  apply UInt32.toNat_inj.mp
  have := n.toNat_lt
  simp only [wordOfBytes, UInt8.toNat_ofNat', UInt32.toNat_ofNat']
  omega

/-- Writing the word of four bytes gives the four bytes back. -/
theorem wordBytes_wordOfBytes (a b c d : UInt8) :
    wordBytes (wordOfBytes a b c d) = [a, b, c, d] := by
  have := a.toNat_lt
  have := b.toNat_lt
  have := c.toNat_lt
  have := d.toNat_lt
  simp only [wordBytes, wordOfBytes, UInt32.toNat_ofNat', List.cons.injEq, and_true]
  refine ⟨?_, ?_, ?_, ?_⟩ <;> apply UInt8.toNat_inj.mp <;>
    simp only [UInt8.toNat_ofNat'] <;> omega

/-- The tag of an integer. -/
def intTag : UInt8 := 1

/-- The tag of data. -/
def dataTag : UInt8 := 2

/-- One value of a message. -/
inductive Entry where
  | int (value : Word)
  | data (bytes : Bytes)
  deriving DecidableEq, Repr

namespace Entry

/-- A path is sent as data: its bytes and a NUL. -/
def text (p : Path) : Entry := data p.terminated

/-- The bytes of an entry. -/
def encode : Entry → Bytes
  | int value => intTag :: wordBytes value.toUInt32
  | data bytes => dataTag :: wordBytes (UInt32.ofNat bytes.length) ++ bytes

end Entry

end FileBroker.Wire
