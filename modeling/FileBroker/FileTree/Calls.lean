/-
The calls of the kernel on a file tree, for a process that no permission bit stops from reading or
writing.

* `FileTree.Descriptor`, `FileTree.content`: open files, and what can be read from them.
* `FileTree.access`, `FileTree.openFile`, `FileTree.unlink`, `FileTree.readlink`,
  `FileTree.rename`, `FileTree.stat`: the calls.
* `FileTree.kernel`: the kernel that answers with them.
* `FileTree.contentAt`, `FileTree.appendAt`: whole files.
-/
import FileBroker.FileTree.Lookup
import FileBroker.Kernel

namespace FileBroker.FileTree

/-- An open file: its node, the bits that tell reading and writing, and whether it is written at
its end. -/
structure Descriptor where
  node : Nat
  direction : Word
  append : Bool
  deriving DecidableEq, Repr

/-- The file was opened for reading. Where the bits tell no direction, it was opened for neither
reading nor writing. -/
def Descriptor.readable (fd : Descriptor) : Bool :=
  match OpenFlags.direction? fd.direction with
  | some direction => direction.reads
  | none => false

/-- What can be read from an open file from its beginning. -/
def content (t : FileTree) (fd : Descriptor) : Except Errno Bytes :=
  if !fd.readable then .error .badDescriptor
  else
    match t.node? fd.node with
    | some (.file bytes _) => .ok bytes
    | some (.directory ..) => .error .isDirectory
    | _ => .ok []

/-! ### The calls -/

/-- The bits that an access mode may have. -/
def accessBits : Word := AccessMode.read ||| AccessMode.write ||| AccessMode.execute

/-- A file can be executed if someone may execute it; directories can be entered. -/
def executable : Node → Bool
  | .file _ permissions => permissions &&& 0o111 != 0
  | .directory .. => true
  | _ => false

/-- Asking for access. -/
def access (t : FileTree) (path : Path) (mode : Word) : Except Errno Unit :=
  if !mode.within accessBits then .error .invalidArgument
  else
    match t.resolve true path with
    | .error errno => .error errno
    | .ok (_, n) =>
      if mode.overlaps AccessMode.execute && !executable n then .error .accessDenied else .ok ()

/-- How an open treats the last component of its path: a file that must be new is never reached
through a link. -/
def openEnding (path : Path) (flags : Word) : Ending :=
  if flags.overlaps OpenFlags.create then
    if flags.overlaps (OpenFlags.exclusive ||| OpenFlags.noFollow) then .keep else .make
  else ending (!flags.overlaps OpenFlags.noFollow) path

/-- The descriptor that an open with some flags gives on a node. -/
def descriptor (id : Nat) (flags : Word) : Descriptor :=
  ⟨id, flags &&& OpenFlags.directionMask, flags.overlaps OpenFlags.append⟩

/-- The open may write. -/
def opensToWrite (flags : Word) : Bool :=
  flags.overlaps (OpenFlags.directionMask ||| OpenFlags.truncate)

/-- Opening a node that exists. -/
def openNode (t : FileTree) (id : Nat) (slash : Bool) (flags : Word) :
    Except Errno Descriptor × FileTree :=
  if flags.overlaps OpenFlags.create && flags.overlaps OpenFlags.exclusive then
    (.error .alreadyExists, t)
  else
    let mustBeDirectory := slash || flags.overlaps OpenFlags.directory
    match t.node? id with
    | none => (.error .notFound, t)
    | some (.directory ..) =>
      if flags.overlaps OpenFlags.create || opensToWrite flags then (.error .isDirectory, t)
      else (.ok (descriptor id flags), t)
    | some (.file _ permissions) =>
      if mustBeDirectory then (.error .notDirectory, t)
      else
        (.ok (descriptor id flags),
          if flags.overlaps OpenFlags.truncate then t.setNode id (.file [] permissions) else t)
    | some (.link _) => (.error (if mustBeDirectory then .notDirectory else .tooManyLinks), t)
    | some .sink => (if mustBeDirectory then .error .notDirectory else .ok (descriptor id flags), t)
    | some .socket => (.error (if mustBeDirectory then .notDirectory else .noDevice), t)

/-- Opening a file. Where nothing is, `create` makes an empty file with the given permissions. -/
def openFile (t : FileTree) (path : Path) (flags : Word) (permissions : UInt32) :
    Except Errno Descriptor × FileTree :=
  let creates := flags.overlaps OpenFlags.create
  if creates && flags.overlaps OpenFlags.directory then (.error .invalidArgument, t)
  else
    match t.spot (openEnding path flags) path with
    | .error errno => (.error errno, t)
    | .ok s =>
      if creates && s.slash && s.name.isSome then (.error .isDirectory, t)
      else
        match t.nodeAt s, s.name with
        | .error errno, _ => (.error errno, t)
        | .ok (some id), _ => t.openNode id s.slash flags
        | .ok none, some name =>
          if creates then
            (.ok (descriptor t.nextId flags),
              t.add s.place.directory name (.file [] permissions))
          else (.error .notFound, t)
        | .ok none, none => (.error .notFound, t)

/-- Taking a file's name. -/
def unlink (t : FileTree) (path : Path) : Except Errno Unit × FileTree :=
  match t.spot .keep path with
  | .error errno => (.error errno, t)
  | .ok s =>
    match s.name with
    | none => (.error .isDirectory, t)
    | some name =>
      match t.find? s.place.directory name with
      | .error errno => (.error errno, t)
      | .ok none => (.error .notFound, t)
      | .ok (some id) =>
        if t.isDirectory id then (.error .isDirectory, t)
        else if s.slash then (.error .notDirectory, t)
        else (.ok (), t.detach s.place.directory name)

/-- Reading the target of a symbolic link, as much of it as there is room for. -/
def readlink (t : FileTree) (path : Path) (room : Nat) : Except Errno Bytes :=
  match t.resolve false path with
  | .error errno => .error errno
  | .ok (_, .link target) => .ok (target.take room)
  | .ok _ => .error .invalidArgument

/-- The status structure of a node. -/
def stat (t : FileTree) (path : Path) (follow : Bool) : Except Errno Status.Image :=
  (t.resolve follow path).map fun (_, n) => n.status.image

/-! ### Renaming -/

/-- Why a node cannot take the place of another one. -/
def replaceFault (t : FileTree) (source target : Nat) : Option Errno :=
  if t.isDirectory source then
    if !t.isDirectory target then some .notDirectory
    else if (t.entries target).isEmpty then none
    else some .notEmpty
  else if t.isDirectory target then some .isDirectory
  else none

/-- The tree after a node has moved from one name to another. -/
def move (t : FileTree) (oldDir : Nat) (oldName : Bytes) (newDir : Nat) (newName : Bytes)
    (id : Nat) : FileTree :=
  (t.detach oldDir oldName).attach newDir newName id

/-- Renaming between two names in directories. A directory must not become its own descendant,
and two names of one node stay as they are. -/
def renameAt (t : FileTree) (old new : Spot) (oldName newName : Bytes) :
    Except Errno Unit × FileTree :=
  let oldDir := old.place.directory
  let newDir := new.place.directory
  match t.find? oldDir oldName with
  | .error errno => (.error errno, t)
  | .ok none => (.error .notFound, t)
  | .ok (some id) =>
    match t.find? newDir newName with
    | .error errno => (.error errno, t)
    | .ok target =>
      if !t.isDirectory id && (old.slash || new.slash) then (.error .notDirectory, t)
      else if id ∈ new.place.chain then (.error .invalidArgument, t)
      else
        match target with
        | none => (.ok (), t.move oldDir oldName newDir newName id)
        | some other =>
          if other ∈ old.place.chain then (.error .notEmpty, t)
          else if other = id then (.ok (), t)
          else
            match t.replaceFault id other with
            | some errno => (.error errno, t)
            | none => (.ok (), t.move oldDir oldName newDir newName id)

/-- Renaming. -/
def rename (t : FileTree) (old new : Path) : Except Errno Unit × FileTree :=
  match t.spot .keep old, t.spot .keep new with
  | .error errno, _ => (.error errno, t)
  | _, .error errno => (.error errno, t)
  | .ok old, .ok new =>
    match old.name, new.name with
    | some oldName, some newName => t.renameAt old new oldName newName
    | _, _ => (.error .busy, t)

/-! ### The kernel -/

/-- The kernel that answers calls on a file tree. -/
def kernel : Kernel FileTree Descriptor where
  answer
    | .access path mode, t => (t.access path mode, t)
    | .openFile path flags permissions, t => t.openFile path flags permissions
    | .unlink path, t => t.unlink path
    | .readlink path room, t => (t.readlink path room, t)
    | .rename old new, t => t.rename old new
    | .stat path follow _, t => (t.stat path follow, t)

/-- The whole content of a file. -/
def contentAt (t : FileTree) (path : Path) : Except Errno Bytes :=
  match t.openFile path OpenFlags.readOnly filePermissions with
  | (.ok fd, t') => t'.content fd
  | (.error errno, _) => .error errno

/-- The tree after bytes were written to the end of an open file. -/
def writeEnd (t : FileTree) (fd : Descriptor) (bytes : Bytes) : FileTree :=
  match t.node? fd.node with
  | some (.file old permissions) => t.setNode fd.node (.file (old ++ bytes) permissions)
  | _ => t

/-- Adding bytes to the end of a file, which is made where nothing is. -/
def appendAt (t : FileTree) (path : Path) (bytes : Bytes) : Except Errno Unit × FileTree :=
  let flags := OpenFlags.writeOnly ||| OpenFlags.create ||| OpenFlags.append
  match t.openFile path flags filePermissions with
  | (.ok fd, t') => (.ok (), t'.writeEnd fd bytes)
  | (.error errno, t') => (.error errno, t')

end FileBroker.FileTree
