/-
The flags of an open request.

* the flags themselves, as words, and `OpenFlags.known`, the set of those a policy understands;
* `OpenFlags.direction?`: what the two lowest bits say about reading and writing;
* `OpenFlags.onWire`: the flags without the one that concerns the calling process alone;
* `OpenOptions`: the choices a user makes, and the flags they amount to.
-/
import FileBroker.Bytes

namespace FileBroker

namespace OpenFlags

/-- Open for reading only: no bit at all. -/
def readOnly : Word := 0
/-- Open for writing only. -/
def writeOnly : Word := 1
/-- Open for reading and writing. -/
def readWrite : Word := 2
/-- The bits that tell reading and writing. -/
def directionMask : Word := 3
/-- Create the file if it does not exist. -/
def create : Word := 64
/-- Fail if the file exists already. -/
def exclusive : Word := 128
/-- Do not become the controlling terminal. -/
def noControllingTerminal : Word := 256
/-- Cut the file to length zero. -/
def truncate : Word := 512
/-- Write at the end of the file. -/
def append : Word := 1024
/-- Do not wait. -/
def nonBlocking : Word := 2048
/-- Write data through. -/
def dataSync : Word := 4096
/-- Signal when input or output is possible. -/
def async : Word := 8192
/-- Bypass the page cache. -/
def direct : Word := 16384
/-- Fail unless the path is a directory. -/
def directory : Word := 65536
/-- Fail if the last component is a symbolic link. -/
def noFollow : Word := 131072
/-- Do not update the access time. -/
def noAccessTime : Word := 262144
/-- Close the descriptor when the process runs another program. -/
def closeOnExec : Word := 524288
/-- Write data and metadata through. -/
def sync : Word := 1052672

/-- Create the file, which must not exist. -/
def exclusiveCreate : Word := create ||| exclusive

/-- The flags that a policy understands; a request with any other bit is refused. -/
def known : Word :=
  directionMask ||| create ||| exclusive ||| noControllingTerminal ||| truncate ||| append |||
    nonBlocking ||| dataSync ||| async ||| direct ||| directory ||| noFollow ||| noAccessTime |||
    closeOnExec ||| sync

/-- Which way data flows through a descriptor. -/
inductive Direction where
  | reading
  | writing
  | both
  deriving DecidableEq, Repr

/-- The direction lets data be read. -/
def Direction.reads (d : Direction) : Bool := d ≠ .writing

/-- The direction lets data be written. -/
def Direction.writes (d : Direction) : Bool := d ≠ .reading

/-- The direction that the two lowest bits tell; the value 3 tells none. -/
def direction? (flags : Word) : Option Direction :=
  if flags &&& directionMask = readOnly then some .reading
  else if flags &&& directionMask = writeOnly then some .writing
  else if flags &&& directionMask = readWrite then some .both
  else none

/-- The flags without `closeOnExec`, which each process decides for itself. -/
def onWire (flags : Word) : Word := flags.without closeOnExec

end OpenFlags

/-- The choices of a user who opens a file. -/
structure OpenOptions where
  read : Bool := false
  write : Bool := false
  create : Bool := false
  exclusive : Bool := false
  truncate : Bool := false
  closeOnExec : Bool := false
  deriving DecidableEq, Repr, Inhabited

namespace OpenOptions

/-- The direction bits of the choices: a file that is not written is read. -/
def directionBits (o : OpenOptions) : Word :=
  if !o.write then OpenFlags.readOnly
  else if o.read then OpenFlags.readWrite
  else OpenFlags.writeOnly

/-- The flag, if it is chosen. -/
def chosen (present : Bool) (flag : Word) : Word := if present then flag else 0

/-- The flags that the choices amount to. -/
def flags (o : OpenOptions) : Word :=
  o.directionBits ||| chosen o.create OpenFlags.create |||
    chosen o.exclusive OpenFlags.exclusive ||| chosen o.truncate OpenFlags.truncate |||
    chosen o.closeOnExec OpenFlags.closeOnExec

end OpenOptions

end FileBroker
