/-
Paths: byte strings without a NUL, and the spelling that rules and requests must have.

* `Path`: the bytes of a path; a NUL cannot occur, since it would end the path early.
* `Path.split`, `Path.components`: the pieces of a path between its slashes.
* `Path.wellFormed`: the spelling that a policy accepts: absolute, no empty piece but the
  last, no piece `.` or `..`.
* `Path.isAncestor`: a path leads, piece by piece, towards another one.
* `Path.resolve`: what a path means when no symbolic link is involved.
-/
import FileBroker.Bytes

namespace FileBroker

/-- A path as the kernel takes it: any bytes but NUL. -/
structure Path where
  bytes : Bytes
  nul_free : 0 ∉ bytes := by decide
  deriving DecidableEq, Repr

namespace Path

/-- The byte between two components. -/
def slash : UInt8 := 47

/-- The component that stands for the directory itself. -/
def dot : Bytes := [46]

/-- The component that stands for the parent directory. -/
def dotDot : Bytes := [46, 46]

/-- The path with the given bytes, if they hold no NUL. -/
def ofBytes? (bytes : Bytes) : Option Path :=
  if h : 0 ∉ bytes then some ⟨bytes, h⟩ else none

/-- The path that a NUL-terminated string spells: one NUL, at the end. -/
def ofTerminated? (bytes : Bytes) : Option Path :=
  if bytes.getLast? = some 0 then ofBytes? bytes.dropLast else none

/-- The NUL-terminated string that spells the path. -/
def terminated (p : Path) : Bytes := p.bytes ++ [0]

/-- The pieces of a byte string between its slashes; there is one more than there are slashes. -/
def split : Bytes → List Bytes
  | [] => [[]]
  | b :: rest =>
    if b = slash then [] :: split rest
    else match split rest with
      | [] => [[b]]
      | piece :: pieces => (b :: piece) :: pieces

/-- The components of a path: its pieces without the empty ones. -/
def components (bytes : Bytes) : List Bytes := (split bytes).filter (· ≠ [])

/-- The path starts at the root. -/
def absolute (bytes : Bytes) : Bool := bytes.head? = some slash

/-- The path ends with a slash. -/
def endsWithSlash (bytes : Bytes) : Bool := bytes.getLast? = some slash

/-- The spelling that a policy accepts: absolute, without `//`, and without a piece `.` or `..`. -/
def wellFormed : Bytes → Bool
  | [] => false
  | b :: rest =>
    b = slash && (split rest).dropLast.all (· ≠ []) &&
      (split rest).all fun piece => piece ≠ dot && piece ≠ dotDot

/-- The path `long` continues `short` with a further component: it is longer, starts with
`short`, and a slash stands at the joint. -/
def isAncestor (short long : Bytes) : Bool :=
  short.isPrefixOf long && short.length < long.length &&
    (endsWithSlash short || (long.drop short.length).head? = some slash)

/-- One step of lexical resolution: `..` takes back the component before it. -/
def resolveStep (done : List Bytes) (piece : Bytes) : List Bytes :=
  if piece = [] ∨ piece = dot then done
  else if piece = dotDot then done.dropLast
  else done ++ [piece]

/-- The components that a path leads to when no symbolic link is involved. -/
def resolve (bytes : Bytes) : List Bytes := (split bytes).foldl resolveStep []

end Path

end FileBroker
