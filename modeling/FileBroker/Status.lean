/-
Status structures: what an inspection tells of a file, laid out as bytes.

* `Status`: the mode and the size of a file.
* `Status.toBytes`, `Status.ofBytes`: the structure's bytes, of which all others are zero when it
  is made here, and its two fields.
* `Status.Image`: the bytes of a structure, with their number.
* `Status.ofBytes_toBytes`: the fields are read as they were written.
-/
import FileBroker.Wire.Entry

namespace FileBroker

/-- What an inspection tells of a file: its kind and permissions, and its size. -/
structure Status where
  mode : UInt32
  size : Int64
  deriving DecidableEq, Repr

namespace Status

/-- The number of bytes of the structure. -/
def length : Nat := 144

/-- Where the mode begins. -/
def modeOffset : Nat := 24

/-- Where the size begins. -/
def sizeOffset : Nat := 48

/-- So many zero bytes. -/
def zeros (n : Nat) : Bytes := List.replicate n 0

/-- The lower half of a double word. -/
def lowerHalf (n : UInt64) : UInt32 := UInt32.ofNat n.toNat

/-- The upper half of a double word. -/
def upperHalf (n : UInt64) : UInt32 := UInt32.ofNat (n.toNat / 4294967296)

/-- The double word of two halves. -/
def join (lower upper : UInt32) : UInt64 := UInt64.ofNat (lower.toNat + 4294967296 * upper.toNat)

/-- A double word is made of its halves. -/
theorem join_halves (n : UInt64) : join (lowerHalf n) (upperHalf n) = n := by
  apply UInt64.toNat_inj.mp
  have := n.toNat_lt
  simp only [join, lowerHalf, upperHalf, UInt32.toNat_ofNat', UInt64.toNat_ofNat']
  omega

/-- The bytes of the structure. -/
def toBytes (s : Status) : Bytes :=
  zeros modeOffset ++ Wire.wordBytes s.mode ++ zeros (sizeOffset - modeOffset - 4) ++
    Wire.wordBytes (lowerHalf s.size.toUInt64) ++ Wire.wordBytes (upperHalf s.size.toUInt64) ++
    zeros (length - sizeOffset - 8)

theorem toBytes_length (s : Status) : s.toBytes.length = length := by
  simp [toBytes, zeros, Wire.wordBytes_length, modeOffset, sizeOffset, length]

/-- The bytes of a structure as a kernel fills it in: always as many as the structure has. -/
structure Image where
  bytes : Bytes
  bytes_length : bytes.length = length
  deriving DecidableEq, Repr

/-- The structure as a kernel fills it in. -/
def image (s : Status) : Image := ⟨s.toBytes, s.toBytes_length⟩

/-- The unsigned word that begins at an offset; bytes beyond the end count as zero. -/
def wordAt (bytes : Bytes) (offset : Nat) : UInt32 :=
  Wire.wordOfBytes (bytes.getD offset 0) (bytes.getD (offset + 1) 0) (bytes.getD (offset + 2) 0)
    (bytes.getD (offset + 3) 0)

/-- The fields of a structure. -/
def ofBytes (bytes : Bytes) : Status where
  mode := wordAt bytes modeOffset
  size := (join (wordAt bytes sizeOffset) (wordAt bytes (sizeOffset + 4))).toInt64

/-- The fields of a structure that is made here are the ones that it was made of. -/
theorem ofBytes_toBytes (s : Status) : ofBytes s.toBytes = s := by
  have hm : wordAt s.toBytes modeOffset = s.mode := Wire.wordOfBytes_wordBytes s.mode
  have hl : wordAt s.toBytes sizeOffset = lowerHalf s.size.toUInt64 :=
    Wire.wordOfBytes_wordBytes _
  have hu : wordAt s.toBytes (sizeOffset + 4) = upperHalf s.size.toUInt64 :=
    Wire.wordOfBytes_wordBytes _
  simp only [ofBytes, hm, hl, hu, join_halves, Int64.toInt64_toUInt64]

end Status

end FileBroker
