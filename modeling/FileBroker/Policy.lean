/-
Policies: rules in order, and the error that a refused client sees.

The first rule that grants a request decides; rules never combine.

* `Policy`: the rules and the error number of a refusal.
* `Policy.accessName?`, `Policy.opening?`, `Policy.statName?`: what a request is granted on.
-/
import FileBroker.Errno
import FileBroker.Rule

namespace FileBroker

/-- A policy. -/
structure Policy where
  deniedErrno : Errno
  rules : List Rule
  deriving DecidableEq, Repr

namespace Policy

/-- The name that the first granting rule has for an access request. -/
def accessName? (p : Policy) (path : Path) (mode : Word) : Option Path :=
  p.rules.findSome? fun r => r.accessName? path mode

/-- What the first granting rule has for an open request. -/
def opening? (p : Policy) (path : Path) (flags : Word) : Option Opening :=
  p.rules.findSome? fun r => r.opening? path flags

/-- The name that the first granting rule has for an inspection. -/
def statName? (p : Policy) (path : Path) : Option Path :=
  p.rules.findSome? fun r => r.statName? path

end Policy

end FileBroker
