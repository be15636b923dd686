/-
The commands of the broker, and sets of them.

* `Command`: the six commands, and `invalid`, a name that no request carries.
* `Command.code`, `Command.ofCode?`: the number of a command in a message.
* `CommandSet`: the commands that a broker serves. `invalid` is never a member.
-/
import FileBroker.Bytes

namespace FileBroker

/-- A command of the broker. -/
inductive Command where
  | invalid
  | access
  | openFile
  | readlink
  | rename
  | stat
  | stat64
  deriving DecidableEq, Repr

namespace Command

/-- The commands that can be served, in their fixed order. -/
def servable : List Command := [access, openFile, readlink, rename, stat, stat64]

/-- The name of a command in policies, answers and audit records. -/
def name : Command → String
  | invalid => "invalid"
  | access => "access"
  | openFile => "open"
  | readlink => "readlink"
  | rename => "rename"
  | stat => "stat"
  | stat64 => "stat64"

/-- Every command with its name, in the order of the numbers. -/
def names : List (String × Command) := (invalid :: servable).map fun c => (c.name, c)

/-- The command of a given name. -/
def ofName? (name : String) : Option Command := names.lookup name

/-- The number of a command in a message. -/
def code : Command → Word
  | invalid => 0
  | access => 1
  | openFile => 2
  | readlink => 3
  | rename => 4
  | stat => 5
  | stat64 => 6

/-- The servable command of a given number. -/
def ofCode? (n : Word) : Option Command := servable.find? (·.code = n)

end Command

/-- A set of servable commands. -/
structure CommandSet where
  access : Bool := false
  openFile : Bool := false
  readlink : Bool := false
  rename : Bool := false
  stat : Bool := false
  stat64 : Bool := false
  deriving DecidableEq, Repr, Inhabited

namespace CommandSet

/-- The set without members. -/
def empty : CommandSet := {}

/-- The set of all servable commands. -/
def all : CommandSet := ⟨true, true, true, true, true, true⟩

/-- The command is a member of the set. -/
def contains (s : CommandSet) : Command → Bool
  | .invalid => false
  | .access => s.access
  | .openFile => s.openFile
  | .readlink => s.readlink
  | .rename => s.rename
  | .stat => s.stat
  | .stat64 => s.stat64

/-- The set with the membership of one command set to `present`; `invalid` is ignored. -/
def assign (s : CommandSet) (present : Bool) : Command → CommandSet
  | .invalid => s
  | .access => { s with access := present }
  | .openFile => { s with openFile := present }
  | .readlink => { s with readlink := present }
  | .rename => { s with rename := present }
  | .stat => { s with stat := present }
  | .stat64 => { s with stat64 := present }

/-- The set with one more command; `invalid` is ignored. -/
def insert (s : CommandSet) (c : Command) : CommandSet := s.assign true c

/-- The set without a command. -/
def erase (s : CommandSet) (c : Command) : CommandSet := s.assign false c

/-- The set of the listed commands. -/
def ofList (cs : List Command) : CommandSet := cs.foldl insert empty

/-- The members in their fixed order. -/
def toList (s : CommandSet) : List Command := Command.servable.filter s.contains

/-- The set has no member. -/
def isEmpty (s : CommandSet) : Bool := s.toList.isEmpty

theorem contains_insert (s : CommandSet) (c d : Command) :
    (s.insert c).contains d = (s.contains d || (d = c && c ≠ .invalid)) := by
  cases c <;> cases d <;> simp [insert, assign, contains]

theorem contains_erase (s : CommandSet) (c d : Command) :
    (s.erase c).contains d = (s.contains d && d ≠ c) := by
  cases c <;> cases d <;> simp [erase, assign, contains]

end CommandSet

end FileBroker
