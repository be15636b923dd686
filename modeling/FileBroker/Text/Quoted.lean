/-
Quotations: a text or a character between quotation marks, as a user is shown it.

Marks and backslashes are escaped, and what cannot be shown is written by number.

* `Text.hex`: the shortest hexadecimal digits of a number.
* `Text.quoted`: a text between double marks.
* `Text.quotedChar`: a character between single marks.
-/
import FileBroker.Text.Shown

namespace FileBroker.Text

/-- The lower-case hexadecimal digits of a number, without leading zeros. -/
def hex (n : Nat) : List Char := Nat.toDigits 16 n

/-- How a character is written between two marks `mark`. -/
def escaped (mark c : Char) : List Char :=
  if c = '\x00' then ['\\', '0']
  else if c = '\t' then ['\\', 't']
  else if c = '\r' then ['\\', 'r']
  else if c = '\n' then ['\\', 'n']
  else if c = '\\' || c = mark then ['\\', c]
  else if isHidden c then ['\\', 'u', '\x7b'] ++ hex c.toNat ++ ['\x7d']
  else [c]

/-- The text between double marks. -/
def quoted (text : String) : String :=
  String.ofList (['\x22'] ++ text.toList.flatMap (escaped '\x22') ++ ['\x22'])

/-- The character between single marks. -/
def quotedChar (c : Char) : String := String.ofList (['\x27'] ++ escaped '\x27' c ++ ['\x27'])

end FileBroker.Text
