/-
The kernel: the calls that a broker makes, and how it carries out what was approved.

The kernel is a parameter: it has a state and answers each call with an error number or with a
result of the kind that the call has. What is proved of all kernels holds of the real one.

* `Call`, `Call.Result`: the calls and the kinds of their results.
* `Kernel`: something that answers calls.
* `Outcome`, `Approval.perform`: what carrying out an approval gives.
-/
import FileBroker.Gate
import FileBroker.Status
import FileBroker.Wire.Message

namespace FileBroker

/-- A call of the kernel. -/
inductive Call where
  | access (path : Path) (mode : Word)
  | openFile (path : Path) (flags : Word) (permissions : UInt32)
  | unlink (path : Path)
  | readlink (path : Path) (room : Nat)
  | rename (old new : Path)
  | stat (path : Path) (follow large : Bool)
  deriving DecidableEq, Repr

/-- What a successful call gives, where `δ` is the type of descriptors: a descriptor, the target
of a link, a status structure, or nothing. -/
def Call.Result (δ : Type) : Call → Type
  | access .. => Unit
  | openFile .. => δ
  | unlink .. => Unit
  | readlink .. => Bytes
  | rename .. => Unit
  | stat .. => Status.Image

/-- A kernel with states in `σ` and descriptors in `δ`. -/
structure Kernel (σ δ : Type) where
  answer : (c : Call) → σ → Except Errno (c.Result δ) × σ

/-- What carrying out an approval gives. An open file keeps the error of the removal of its name,
if that failed. -/
inductive Outcome (δ : Type) where
  | done
  | opened (fd : δ) (unlinkErrno : Option Errno)
  | link (target : Bytes)
  | status (bytes : Bytes)
  deriving DecidableEq, Repr

namespace Outcome

variable {δ : Type}

/-- The return code that reports success: the length of a link's target, else zero. -/
def returnCode : Outcome δ → Word
  | link target => Int32.ofNat target.length
  | _ => 0

/-- The data that is sent to the client. -/
def payload : Outcome δ → Option Bytes
  | link target => some target
  | status bytes => some bytes
  | _ => none

/-- The descriptor that is sent to the client. -/
def descriptor : Outcome δ → Option δ
  | opened fd _ => some fd
  | _ => none

end Outcome

/-- The permissions of a file that is created: reading and writing for its owner. -/
def createdPermissions : UInt32 := 0o600

/-- The room for a link's target: what a reply holds beside its return code and the tags and
lengths of its entries. -/
def linkRoom : Nat := Wire.capacity - 10

namespace Approval

variable {σ δ : Type}

/-- Removing the name of a file that has just been opened. The file stays open if that fails. -/
def unlinkOpened (k : Kernel σ δ) (path : Path) (fd : δ) (s : σ) : Outcome δ × σ :=
  match k.answer (.unlink path) s with
  | (.ok _, s') => (.opened fd none, s')
  | (.error errno, s') => (.opened fd (some errno), s')

/-- Carrying out what was approved. A descriptor of the broker never outlives its process. -/
def perform (k : Kernel σ δ) (a : Approval) (s : σ) : Except Errno (Outcome δ) × σ :=
  match a with
  | .access path mode =>
    match k.answer (.access path mode) s with
    | (.ok _, s') => (.ok .done, s')
    | (.error errno, s') => (.error errno, s')
  | .openFile path flags unlink =>
    match k.answer (.openFile path (flags ||| OpenFlags.closeOnExec) createdPermissions) s with
    | (.ok fd, s') =>
      if unlink then
        let (outcome, s'') := unlinkOpened k path fd s'
        (.ok outcome, s'')
      else (.ok (.opened fd none), s')
    | (.error errno, s') => (.error errno, s')
  | .readlink path =>
    match k.answer (.readlink path linkRoom) s with
    | (.ok target, s') => (.ok (.link target), s')
    | (.error errno, s') => (.error errno, s')
  | .rename old new =>
    match k.answer (.rename old new) s with
    | (.ok _, s') => (.ok .done, s')
    | (.error errno, s') => (.error errno, s')
  | .stat path follow large =>
    match k.answer (.stat path follow large) s with
    | (.ok image, s') => (.ok (.status image.bytes), s')
    | (.error errno, s') => (.error errno, s')

end Approval

end FileBroker
