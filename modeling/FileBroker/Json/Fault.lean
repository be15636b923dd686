/-
Faults of a JSON text that is read as a value of a given shape.

The text is read once from left to right, so the first fault in its order is the one reported.

* `Json.Found`: the kinds of value that can stand where another kind is expected.
* `Json.Fault`, `Json.Fault.message`: the faults and their wording.
-/
import FileBroker.Text.Quoted
import FileBroker.Text.Shortest

namespace FileBroker.Json

/-- A value that stands where another kind is expected. -/
inductive Found where
  | null
  | boolean (b : Bool)
  | integer (n : Int)
  | floating (bits : UInt64)
  | string (s : String)
  | sequence
  | map
  deriving DecidableEq, Repr

/-- The words for a value. -/
def Found.describe : Found → String
  | null => "null"
  | boolean b => "boolean `" ++ toString b ++ "`"
  | integer n => "integer `" ++ toString n ++ "`"
  | floating bits => "floating point `" ++ Double.text bits ++ "`"
  | string s => "string " ++ Text.quoted s
  | sequence => "sequence"
  | map => "map"

/-- What can be wrong with a text. -/
inductive Fault where
  | endOfText
  | malformed
  | wrongType (found : Found) (expected : String)
  | outOfRange (n : Int) (expected : String)
  | unknownVariant (name : String) (known : List String)
  | unknownField (name : String) (known : List String)
  | duplicateField (name : String)
  | missingField (name : String)
  | wrongLength (length : Nat) (expected : String)
  deriving DecidableEq, Repr

/-- A name between backquotes. -/
def ticked (name : String) : String := "`" ++ name ++ "`"

/-- The names that would have been right. -/
def oneOf : List String → String
  | [a] => ticked a
  | [a, b] => ticked a ++ " or " ++ ticked b
  | names => "one of " ++ String.intercalate ", " (names.map ticked)

namespace Fault

/-- What a user is told about the fault. -/
def message : Fault → String
  | endOfText => "the text ends too early"
  | malformed => "the text is not JSON"
  | wrongType found expected => "invalid type: " ++ found.describe ++ ", expected " ++ expected
  | outOfRange n expected =>
    "invalid value: " ++ (Found.integer n).describe ++ ", expected " ++ expected
  | unknownVariant name known =>
    "unknown variant " ++ ticked name ++ ", expected " ++ oneOf known
  | unknownField name known => "unknown field " ++ ticked name ++ ", expected " ++ oneOf known
  | duplicateField name => "duplicate field " ++ ticked name
  | missingField name => "missing field " ++ ticked name
  | wrongLength length expected =>
    "invalid length " ++ toString length ++ ", expected " ++ expected

end Fault

end FileBroker.Json
