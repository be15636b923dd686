/-
What may be done with a file: access classes of rules and access modes of requests.

* `AccessClass`: the seven classes that a rule can grant, and what each allows.
* `AccessMode`: the mode word of an access request, its bits, and its reading from letters.
-/
import FileBroker.Text.Blank
import FileBroker.Text.Quoted
import FileBroker.Bytes

namespace FileBroker

/-- What a rule grants on the paths that it covers. -/
inductive AccessClass where
  | readOnly
  | readOnlyRecursive
  | writeOnly
  | readWrite
  | readWriteCreate
  | readWriteCreateRecursive
  | readWriteCreateTemporary
  deriving DecidableEq, Repr

namespace AccessClass

/-- Every access class, in the order in which they are listed to a user. -/
def all : List AccessClass :=
  [readOnly, readOnlyRecursive, writeOnly, readWrite, readWriteCreate, readWriteCreateRecursive,
    readWriteCreateTemporary]

/-- The name of a class in a policy document. -/
def name : AccessClass → String
  | readOnly => "read_only"
  | readOnlyRecursive => "read_only_recursive"
  | writeOnly => "write_only"
  | readWrite => "read_write"
  | readWriteCreate => "read_write_create"
  | readWriteCreateRecursive => "read_write_create_recursive"
  | readWriteCreateTemporary => "read_write_create_temporary"

/-- Every class with its name. -/
def names : List (String × AccessClass) := all.map fun c => (c.name, c)

/-- The class lets a file be read. -/
def reads (c : AccessClass) : Bool := c ≠ writeOnly

/-- The class lets a file be written. -/
def writes (c : AccessClass) : Bool := c ≠ readOnly && c ≠ readOnlyRecursive

/-- The class lets a file be created. -/
def creates (c : AccessClass) : Bool :=
  c = readWriteCreate || c = readWriteCreateRecursive || c = readWriteCreateTemporary

/-- The class covers everything below its path. -/
def recursive (c : AccessClass) : Bool := c = readOnlyRecursive || c = readWriteCreateRecursive

/-- The class admits only new files, whose names are removed as soon as they are open. -/
def temporary (c : AccessClass) : Bool := c = readWriteCreateTemporary

end AccessClass

namespace AccessMode

/-- Ask whether the file exists: no bit at all. -/
def existence : Word := 0

/-- Ask whether the file can be executed. -/
def execute : Word := 1

/-- Ask whether the file can be written. -/
def write : Word := 2

/-- Ask whether the file can be read. -/
def read : Word := 4

/-- The bits that an access request may have. -/
def known : Word := existence ||| read ||| write ||| execute

/-- Why letters do not spell an access mode. -/
inductive Fault where
  | empty
  | unknown (letter : Char)
  deriving DecidableEq, Repr

/-- What a user is told about the fault. -/
def Fault.message : Fault → String
  | empty => "mode must be one or more of f, r, w, x"
  | unknown letter => "unknown access mode character " ++ Text.quotedChar letter

/-- The bit that a letter stands for. -/
def ofLetter? : Char → Option Word
  | 'f' => some existence
  | 'r' => some read
  | 'w' => some write
  | 'x' => some execute
  | _ => none

/-- The mode that has the bits of all letters; the first unknown letter is the fault. -/
def ofLetters (mode : Word) : List Char → Except Fault Word
  | [] => .ok mode
  | c :: rest =>
    match ofLetter? c with
    | some bit => ofLetters (mode ||| bit) rest
    | none => .error (.unknown c)

/-- The mode that a text spells: one or more letters, with blanks around them ignored. -/
def parse (text : String) : Except Fault Word :=
  match Text.trim text.toList with
  | [] => .error .empty
  | letters => ofLetters existence letters

end AccessMode

end FileBroker
