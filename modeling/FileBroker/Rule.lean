/-
Rules: which paths a policy speaks of, and what it grants on them.

A rule holds a well-formed path whose last byte is a slash exactly if its access class is
recursive. Requests with any other spelling are covered by no rule, so a path is compared
byte by byte and never has to be normalised.

* `Rule`, `Rule.make?`, `RuleFault`: rules, how they are made, and why they are refused.
* `Rule.covers`, `Rule.leadsFrom`: the paths a rule speaks of, and the directories on the way.
* `Rule.grantsAccess`, `Rule.grantsOpen`: the requests a rule grants.
* `Rule.accessName?`, `Rule.opening?`, `Rule.statName?`: what a granted request is carried out on.
-/
import FileBroker.Access
import FileBroker.OpenFlags
import FileBroker.Path

namespace FileBroker

/-- Why a path and an access class make no rule. -/
inductive RuleFault where
  | empty
  | notAbsolute
  | notCanonical
  | recursiveWithoutTrailingSlash
  | trailingSlash
  | interiorNul
  deriving DecidableEq, Repr

/-- What a user is told about the fault. -/
def RuleFault.message : RuleFault → String
  | empty => "path is empty"
  | notAbsolute => "path must be absolute"
  | notCanonical => "path must not contain `..` components or `//`"
  | recursiveWithoutTrailingSlash => "recursive rule path must end with `/`"
  | trailingSlash => "non-recursive rule path must not end with `/`"
  | interiorNul => "path contains a nul byte"

/-- What is opened: the name of the file, and whether it loses that name once it is open. -/
structure Opening where
  name : Path
  unlink : Bool
  deriving DecidableEq, Repr

/-- A rule of a policy. With `intermediates`, the directories on the way to its path may be
inspected too. -/
structure Rule where
  path : Path
  access : AccessClass
  intermediates : Bool
  well_formed : Path.wellFormed path.bytes = true
  slash_iff : Path.endsWithSlash path.bytes = access.recursive
  deriving DecidableEq, Repr

namespace Rule

/-- The rule for a path, or the first fault that applies to it. -/
def make? (bytes : Bytes) (access : AccessClass) (intermediates : Bool) : Except RuleFault Rule :=
  if bytes = [] then .error .empty
  else if Path.absolute bytes = false then .error .notAbsolute
  else if hw : Path.wellFormed bytes = true then
    if hs : Path.endsWithSlash bytes = access.recursive then
      match h : Path.ofBytes? bytes with
      | some path =>
        have hp : path.bytes = bytes := by
          unfold Path.ofBytes? at h
          split at h <;> simp_all only [Option.some.injEq, reduceCtorEq]
          rw [← h]
        .ok ⟨path, access, intermediates, hp ▸ hw, hp ▸ hs⟩
      | none => .error .interiorNul
    else if access.recursive then .error .recursiveWithoutTrailingSlash
    else .error .trailingSlash
  else .error .notCanonical

/-- The path lies where the rule says: strictly below the rule's path if the rule is recursive,
exactly there if it is not. -/
def reaches (r : Rule) (bytes : Bytes) : Bool :=
  if r.access.recursive then
    r.path.bytes.isPrefixOf bytes && r.path.bytes.length < bytes.length
  else bytes = r.path.bytes

/-- The rule speaks of the path: it is well-formed and lies where the rule says. -/
def covers (r : Rule) (bytes : Bytes) : Bool := Path.wellFormed bytes && r.reaches bytes

/-- The name under which a covered path is handed on: the rule's own copy, unless the rule is
recursive and its path is another one. -/
def nameFor (r : Rule) (requested : Path) : Path :=
  if r.access.recursive then requested else r.path

/-- The rule grants an access request of a given mode. Execution is never granted, and existence
is granted wherever anything else might be. -/
def grantsAccess (r : Rule) (bytes : Bytes) (mode : Word) : Bool :=
  r.covers bytes && mode.within AccessMode.known && !mode.overlaps AccessMode.execute &&
    (if mode = AccessMode.existence then r.access.reads || r.access.writes
    else (!mode.overlaps AccessMode.read || r.access.reads) &&
      (!mode.overlaps AccessMode.write || r.access.writes))

/-- The rule grants the direction that the flags tell; flags that tell none are never granted. -/
def grantsDirection (r : Rule) (flags : Word) : Bool :=
  match OpenFlags.direction? flags with
  | none => false
  | some direction =>
    (!direction.reads || r.access.reads) && (!direction.writes || r.access.writes)

/-- The rule grants an open request with the given flags. Unknown flags are never granted,
truncation counts as writing, and a temporary rule admits only files that are created anew. -/
def grantsOpen (r : Rule) (bytes : Bytes) (flags : Word) : Bool :=
  r.covers bytes && flags.within OpenFlags.known &&
    r.grantsDirection flags &&
    (!flags.overlaps OpenFlags.truncate || r.access.writes) &&
    (!flags.overlaps OpenFlags.create || r.access.creates) &&
    (!r.access.temporary || flags.includes OpenFlags.exclusiveCreate)

/-- The rule lets a directory on the way to its path be inspected. -/
def leadsFrom (r : Rule) (bytes : Bytes) : Bool :=
  r.intermediates && Path.wellFormed bytes && Path.isAncestor bytes r.path.bytes

/-- The name that a granted access request is carried out on. -/
def accessName? (r : Rule) (path : Path) (mode : Word) : Option Path :=
  if r.grantsAccess path.bytes mode then some (r.nameFor path) else none

/-- What a granted open request is carried out on. -/
def opening? (r : Rule) (path : Path) (flags : Word) : Option Opening :=
  if r.grantsOpen path.bytes flags then some ⟨r.nameFor path, r.access.temporary⟩ else none

/-- The name that a granted inspection is carried out on: of a covered path as it is handed on,
and of a directory on the way as it was asked for. -/
def statName? (r : Rule) (path : Path) : Option Path :=
  if r.covers path.bytes then some (r.nameFor path)
  else if r.leadsFrom path.bytes then some path
  else none

end Rule

end FileBroker
