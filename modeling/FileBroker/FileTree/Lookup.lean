/-
Looking up paths in a file tree.

A path is followed component by component from the root. Symbolic links on the way are followed
from the directory that holds them, at most forty of them. What is done with the last component
depends on the call.

* `FileTree.Place`: a directory together with the directories above it.
* `FileTree.Ending`: what is done with the last component.
* `FileTree.Spot`: where a path leads: a directory, and the name that remains.
* `FileTree.walk`, `FileTree.spot`: the way of a path.
* `FileTree.resolve`: the node that a path leads to.
-/
import FileBroker.Errno
import FileBroker.FileTree

namespace FileBroker.FileTree

/-- The number of bytes that a name holds at most. -/
def nameLimit : Nat := 255

/-- The number of bytes that a path with its final NUL holds at most. -/
def pathLimit : Nat := 4096

/-- The number of symbolic links that are followed at most. -/
def linkLimit : Nat := 40

/-- A directory below the root: the directories on the way to it, itself first. The empty chain is
the root. -/
structure Place where
  chain : List Nat
  deriving DecidableEq, Repr

namespace Place

/-- The root. -/
def top : Place := ⟨[]⟩

/-- The directory itself. -/
def directory (p : Place) : Nat := p.chain.headD root

/-- The directory above; the root is above itself. -/
def parent (p : Place) : Place := ⟨p.chain.tail⟩

/-- A directory in this one. -/
def enter (p : Place) (id : Nat) : Place := ⟨id :: p.chain⟩

/-- Where a link in this directory leads from: the root, if its target is absolute. -/
def start (p : Place) (target : Bytes) : Place := if Path.absolute target then top else p

end Place

/-- What is done with the last component of a path. `keep` leaves it alone, `follow` follows it
while it is a symbolic link, and `make` does so too until it has a slash behind it. -/
inductive Ending where
  | keep
  | follow
  | make
  deriving DecidableEq, Repr

/-- The last component is not looked at. -/
def Ending.stops (e : Ending) (slash : Bool) : Bool :=
  match e with
  | keep => true
  | follow => false
  | make => slash

/-- Where a path leads: a directory and a name in it, or without a name the directory itself; and
whether a slash stands behind. -/
structure Spot where
  place : Place
  name : Option Bytes
  slash : Bool
  deriving DecidableEq, Repr

/-- The node of a name in a directory, if there is one. -/
def find? (t : FileTree) (dir : Nat) (name : Bytes) : Except Errno (Option Nat) :=
  if nameLimit < name.length then .error .nameTooLong else .ok (t.entry? dir name)

/-- The way of some components from a place, following at most `links` symbolic links. -/
def walk (t : FileTree) (e : Ending) (links : Nat) (p : Place) (slash : Bool)
    (names : List Bytes) : Except Errno Spot :=
  match names with
  | [] => .ok ⟨p, none, slash⟩
  | name :: rest =>
    if name = Path.dot then t.walk e links p slash rest
    else if name = Path.dotDot then t.walk e links p.parent slash rest
    else if rest = [] && e.stops slash then .ok ⟨p, some name, slash⟩
    else
      match t.find? p.directory name with
      | .error errno => .error errno
      | .ok none => if rest = [] then .ok ⟨p, some name, slash⟩ else .error .notFound
      | .ok (some id) =>
        match t.node? id with
        | some (.link target) =>
          match links with
          | 0 => .error .tooManyLinks
          | links + 1 =>
            t.walk e links (p.start target)
              (slash || (rest = [] && Path.endsWithSlash target)) (Path.components target ++ rest)
        | some (.directory ..) =>
          if rest = [] then .ok ⟨p, some name, slash⟩ else t.walk e links (p.enter id) slash rest
        | _ => if rest = [] then .ok ⟨p, some name, slash⟩ else .error .notDirectory
termination_by (links, names.length)

/-- Where a path leads. -/
def spot (t : FileTree) (e : Ending) (path : Path) : Except Errno Spot :=
  if path.bytes = [] then .error .notFound
  else if pathLimit ≤ path.bytes.length then .error .nameTooLong
  else
    t.walk e linkLimit .top (Path.endsWithSlash path.bytes) (Path.components path.bytes)

/-- The node at a spot, if there is one. -/
def nodeAt (t : FileTree) (s : Spot) : Except Errno (Option Nat) :=
  match s.name with
  | none => .ok (some s.place.directory)
  | some name => t.find? s.place.directory name

/-- How the last component is treated where links are followed or not; with a slash behind it,
they are followed in any case. -/
def ending (follow : Bool) (path : Path) : Ending :=
  if follow || Path.endsWithSlash path.bytes then .follow else .keep

/-- The node that a path leads to. A slash behind it demands a directory. -/
def resolve (t : FileTree) (follow : Bool) (path : Path) : Except Errno (Nat × Node) :=
  match t.spot (ending follow path) path with
  | .error errno => .error errno
  | .ok s =>
    match t.nodeAt s with
    | .error errno => .error errno
    | .ok none => .error .notFound
    | .ok (some id) =>
      match t.node? id with
      | none => .error .notFound
      | some n => if s.slash && !t.isDirectory id then .error .notDirectory else .ok (id, n)

end FileBroker.FileTree
