/-
File trees: files, directories and links as a value.

A node is known by its number, and a directory maps names to numbers. A file that has lost its
name stays a node, so what holds it open can still read it.

* `FileTree.Node`: files, directories, symbolic links, a sink without content, and sockets.
* `FileTree`, `FileTree.bare`: trees, and the one that has a root only.
* `FileTree.entry?`: the node of a name in a directory.
* `FileTree.attach`, `FileTree.detach`, `FileTree.add`: names given and taken, nodes made.
* `FileTree.Node.status`: what an inspection of a node tells.
* `FileTree.listing`: everything below a directory.
-/
import FileBroker.Path
import FileBroker.Status

namespace FileBroker

/-- A node of a file tree. -/
inductive FileTree.Node where
  | file (content : Bytes) (permissions : UInt32)
  | directory (entries : List (Bytes × Nat)) (permissions : UInt32)
  | link (target : Bytes)
  | sink
  | socket
  deriving DecidableEq, Repr

/-- A file tree: its nodes, each known by its position. -/
structure FileTree where
  nodes : List FileTree.Node
  deriving DecidableEq, Repr

namespace FileTree

/-- The number of the root directory. -/
def root : Nat := 0

/-- The permissions of an ordinary directory. -/
def directoryPermissions : UInt32 := 0o755

/-- The permissions of an ordinary file. -/
def filePermissions : UInt32 := 0o644

/-- The tree with an empty root directory. -/
def bare : FileTree := ⟨[.directory [] directoryPermissions]⟩

/-- The node of a given number. -/
def node? (t : FileTree) (id : Nat) : Option Node := t.nodes[id]?

/-- The names in a directory with their nodes; what is no directory has none. -/
def entries (t : FileTree) (dir : Nat) : List (Bytes × Nat) :=
  match t.node? dir with
  | some (.directory es _) => es
  | _ => []

/-- The node that a name in a directory stands for. -/
def entry? (t : FileTree) (dir : Nat) (name : Bytes) : Option Nat := (t.entries dir).lookup name

/-- The node is a directory. -/
def isDirectory (t : FileTree) (id : Nat) : Bool :=
  match t.node? id with
  | some (.directory ..) => true
  | _ => false

/-- The tree with another node in the place of one. -/
def setNode (t : FileTree) (id : Nat) (n : Node) : FileTree := ⟨t.nodes.set id n⟩

/-- The tree with other names in a directory. -/
def setEntries (t : FileTree) (dir : Nat) (es : List (Bytes × Nat)) : FileTree :=
  match t.node? dir with
  | some (.directory _ permissions) => t.setNode dir (.directory es permissions)
  | _ => t

/-- The names other than one. -/
def without (es : List (Bytes × Nat)) (name : Bytes) : List (Bytes × Nat) :=
  es.filter fun e => e.1 ≠ name

/-- The tree without a name in a directory. -/
def detach (t : FileTree) (dir : Nat) (name : Bytes) : FileTree :=
  t.setEntries dir (without (t.entries dir) name)

/-- The tree with a name in a directory for a node; the name no longer stands for another. -/
def attach (t : FileTree) (dir : Nat) (name : Bytes) (id : Nat) : FileTree :=
  t.setEntries dir (without (t.entries dir) name ++ [(name, id)])

/-- The number of the next node that is made. -/
def nextId (t : FileTree) : Nat := t.nodes.length

/-- The tree with a new node under a name in a directory. -/
def add (t : FileTree) (dir : Nat) (name : Bytes) (n : Node) : FileTree :=
  (FileTree.mk (t.nodes ++ [n])).attach dir name t.nextId

/-! ### Inspection -/

/-- The size that every directory shows. -/
def directorySize : Int64 := 4096

/-- What an inspection of a node tells. The upper bits of the mode are the kind of the node. -/
def Node.status : Node → Status
  | file content permissions => ⟨0o100000 ||| permissions, .ofNat content.length⟩
  | directory _ permissions => ⟨0o040000 ||| permissions, directorySize⟩
  | link target => ⟨0o120777, .ofNat target.length⟩
  | sink => ⟨0o020666, 0⟩
  | socket => ⟨0o140755, 0⟩

/-- Everything below a directory, down to a depth, with the path that leads to it from there. -/
def below (t : FileTree) : Nat → Nat → List (Bytes × Node)
  | 0, _ => []
  | depth + 1, dir =>
    (t.entries dir).flatMap fun (name, id) =>
      match t.node? id with
      | none => []
      | some n =>
        (name, n) :: (t.below depth id).map fun (path, m) => (name ++ [Path.slash] ++ path, m)

/-- Everything below a directory. A path is never longer than the number of nodes. -/
def listing (t : FileTree) (dir : Nat) : List (Bytes × Node) := t.below t.nodes.length dir

end FileTree

end FileBroker
