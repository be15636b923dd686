/-
Error numbers of the kernel, and how they are told to a user.

* `Errno`: an error number, with the numbers that this library names.
* `Errno.display`: the short form `errno 2`.
* `Errno.reason`: the long form `No such file or directory (os error 2)`.
-/
import FileBroker.Bytes

namespace FileBroker

/-- An error number, as the kernel or the broker reports it. -/
structure Errno where
  code : Word
  deriving DecidableEq, Repr, Inhabited

namespace Errno

/-- Operation not permitted. -/
def notPermitted : Errno := ⟨1⟩
/-- No such file or directory. -/
def notFound : Errno := ⟨2⟩
/-- A signal came before anything was done. -/
def interrupted : Errno := ⟨4⟩
/-- Input/output error. -/
def inputOutput : Errno := ⟨5⟩
/-- There is nothing behind the file. -/
def noDevice : Errno := ⟨6⟩
/-- The descriptor is not open for what is asked of it. -/
def badDescriptor : Errno := ⟨9⟩
/-- The call would have to wait. -/
def wouldBlock : Errno := ⟨11⟩
/-- Permission denied. -/
def accessDenied : Errno := ⟨13⟩
/-- The device or the directory is in use. -/
def busy : Errno := ⟨16⟩
/-- The file exists already. -/
def alreadyExists : Errno := ⟨17⟩
/-- A component of the path is not a directory. -/
def notDirectory : Errno := ⟨20⟩
/-- The path names a directory. -/
def isDirectory : Errno := ⟨21⟩
/-- An argument is invalid. -/
def invalidArgument : Errno := ⟨22⟩
/-- The reading end of the stream is gone. -/
def brokenPipe : Errno := ⟨32⟩
/-- A name or a message is too long. -/
def nameTooLong : Errno := ⟨36⟩
/-- The directory is not empty. -/
def notEmpty : Errno := ⟨39⟩
/-- Too many symbolic links were met. -/
def tooManyLinks : Errno := ⟨40⟩
/-- The message is too long. -/
def messageTooLong : Errno := ⟨90⟩
/-- The address is in use. -/
def addressInUse : Errno := ⟨98⟩
/-- Nobody listens at the address. -/
def connectionRefused : Errno := ⟨111⟩

/-- The return code that reports this error: its number, negated. -/
def returnCode (e : Errno) : Word := -e.code

/-- The short form of an error: its number alone. -/
def display (e : Errno) : String := "errno " ++ toString e.code.toInt

/-- What the system says about an error number. -/
def description (e : Errno) : String :=
  match e.code.toInt with
  | 1 => "Operation not permitted"
  | 2 => "No such file or directory"
  | 4 => "Interrupted system call"
  | 5 => "Input/output error"
  | 6 => "No such device or address"
  | 9 => "Bad file descriptor"
  | 11 => "Resource temporarily unavailable"
  | 13 => "Permission denied"
  | 16 => "Device or resource busy"
  | 17 => "File exists"
  | 20 => "Not a directory"
  | 21 => "Is a directory"
  | 22 => "Invalid argument"
  | 32 => "Broken pipe"
  | 36 => "File name too long"
  | 39 => "Directory not empty"
  | 40 => "Too many levels of symbolic links"
  | 90 => "Message too long"
  | 98 => "Address already in use"
  | 111 => "Connection refused"
  | n => "Unknown error " ++ toString n

/-- The long form of an error: the system's words, then the number. -/
def reason (e : Errno) : String :=
  e.description ++ " (os error " ++ toString e.code.toInt ++ ")"

end Errno

end FileBroker
