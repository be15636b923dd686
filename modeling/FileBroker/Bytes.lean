/-
Byte strings and 32-bit words.

Everything that crosses the broker's socket or names a file is a list of bytes; every
flag set, access mode and return code is a signed 32-bit word.

* `Bytes`: lists of bytes.
* `Word`, `Word.overlaps`, `Word.without`, `Word.within`, `Word.includes`: words read as sets
  of bits.
-/
namespace FileBroker

/-- A byte string. -/
abbrev Bytes := List UInt8

/-- A signed 32-bit word: an access mode, a set of open flags or a return code. -/
abbrev Word := Int32

namespace Word

/-- Some bit of `mask` is set in `w`. -/
def overlaps (w mask : Word) : Bool := w &&& mask != 0

/-- The word `w` with every bit of `mask` cleared. -/
def without (w mask : Word) : Word := w &&& ~~~mask

/-- Every bit that is set in `w` is set in `mask`. -/
def within (w mask : Word) : Bool := w.without mask == 0

/-- Every bit that is set in `mask` is set in `w`. -/
def includes (w mask : Word) : Bool := w &&& mask == mask

end Word

end FileBroker
