/-
Reading the arguments of a program.

Arguments are read at several levels: those of the program first, and after the name of a
subcommand those of the subcommand. Options may stand before, between and after other arguments,
none of them twice. After the argument `--` nothing is an option.

* `Level`, `Ending`: the options of a level, and what ends it.
* `Matched`: what was found at a level.
* `Level.scan`: reading the arguments of a level.
-/
namespace FileBroker.CommandLine

/-- What ends a level: a number of plain arguments, or the name of a subcommand. -/
inductive Ending where
  | plain (count : Nat)
  | subcommand (names : List String)
  deriving DecidableEq, Repr

/-- The options of a level: flags, settings with a value, and the settings whose value must not be
empty. -/
structure Level where
  flags : List String := []
  settings : List String := []
  filled : List String := []
  ending : Ending
  deriving DecidableEq, Repr

/-- What was found at a level. -/
structure Matched where
  flags : List String := []
  settings : List (String × String) := []
  plain : List String := []
  deriving DecidableEq, Repr

/-- Why reading arguments stops early: they are wrong, or an explanation of them is asked for. -/
inductive Stop where
  | misused
  | explain
  deriving DecidableEq, Repr

namespace Matched

/-- The flag was given. -/
def has (m : Matched) (flag : String) : Bool := m.flags.contains flag

/-- The value of a setting, if it was given. -/
def value? (m : Matched) (setting : String) : Option String := m.settings.lookup setting

/-- The value of a setting, or its standard. -/
def value (m : Matched) (setting standard : String) : String :=
  (m.value? setting).getD standard

end Matched

/-- An argument by its form. -/
inductive Form where
  | rest
  | long (name : String) (value : Option String)
  | short (letters : List Char)
  | plain
  deriving DecidableEq, Repr

/-- The form of an argument. A single hyphen is a plain argument. -/
def form (argument : String) : Form :=
  match argument.toList with
  | ['-', '-'] => .rest
  | '-' :: '-' :: body =>
    .long (String.ofList (body.takeWhile (· ≠ '=')))
      (match body.dropWhile (· ≠ '=') with
        | [] => none
        | _ :: value => some (String.ofList value))
  | '-' :: c :: letters => .short (c :: letters)
  | _ => .plain

/-- What reading a level gives: what was found, and the subcommand with its arguments. -/
abbrev Scanned := Except Stop (Matched × Option (String × List String))

namespace Level

/-- One more plain argument, if there is room for it. -/
def addPlain (l : Level) (argument : String) (m : Matched) : Except Stop Matched :=
  match l.ending with
  | .plain count =>
    if m.plain.length < count then .ok { m with plain := m.plain ++ [argument] }
    else .error .misused
  | .subcommand _ => .error .misused

/-- A flag that was found. -/
def addFlag (name : String) (m : Matched) : Except Stop Matched :=
  if m.has name then .error .misused else .ok { m with flags := m.flags ++ [name] }

/-- The value of a setting that was found. -/
def addSetting (l : Level) (name value : String) (m : Matched) : Except Stop Matched :=
  if (m.value? name).isSome || (value.isEmpty && l.filled.contains name) then .error .misused
  else .ok { m with settings := m.settings ++ [(name, value)] }

/-- Asking for an explanation of a subcommand. -/
def explain (names : List String) : List String → Stop
  | [] => .explain
  | [name] => if names.contains name || name = "help" then .explain else .misused
  | _ => .misused

/-- Reading the arguments of a level. -/
def scan (l : Level) (arguments : List String) (m : Matched) : Scanned :=
  match arguments with
  | [] => .ok (m, none)
  | argument :: rest =>
    match form argument with
    | .rest => (rest.foldlM (fun m a => l.addPlain a m) m).map fun m => (m, none)
    | .short letters => .error (if letters.head? = some 'h' then .explain else .misused)
    | .long name value =>
      if l.flags.contains name then
        match value, addFlag name m with
        | none, .ok m => l.scan rest m
        | _, _ => .error .misused
      else if l.settings.contains name then
        match value, rest with
        | some value, rest =>
          match l.addSetting name value m with
          | .ok m => l.scan rest m
          | .error stop => .error stop
        | none, [] => .error .misused
        | none, value :: rest =>
          if form value ≠ .plain then .error .misused
          else
            match l.addSetting name value m with
            | .ok m => l.scan rest m
            | .error stop => .error stop
      else .error (if name = "help" && value.isNone then .explain else .misused)
    | .plain =>
      match l.ending with
      | .subcommand names =>
        if names.contains argument then .ok (m, some (argument, rest))
        else .error (if argument = "help" then explain names rest else .misused)
      | .plain _ =>
        match l.addPlain argument m with
        | .ok m => l.scan rest m
        | .error stop => .error stop
termination_by arguments.length

/-- The subcommand that ends a level, with what was found before it. -/
def scanTo (l : Level) (arguments : List String) :
    Except Stop (Matched × String × List String) :=
  match l.scan arguments {} with
  | .error stop => .error stop
  | .ok (m, some (name, rest)) => .ok (m, name, rest)
  | .ok (_, none) => .error .misused

/-- What was found at a level without subcommands, if all its plain arguments were given. -/
def scanAll (l : Level) (arguments : List String) : Except Stop Matched :=
  match l.scan arguments {}, l.ending with
  | .error stop, _ => .error stop
  | .ok (m, none), .plain count => if m.plain.length = count then .ok m else .error .misused
  | .ok _, _ => .error .misused

end Level

end FileBroker.CommandLine
