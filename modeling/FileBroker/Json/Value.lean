/-
JSON values and their text.

* `Json.Value`: values; an object keeps its members in order.
* `Json.Value.compact`: the text without any blank.
* `Json.Value.pretty`: the text with one item or member a line, indented by two blanks a level.
-/
namespace FileBroker.Json

/-- A JSON value. -/
inductive Value where
  | null
  | boolean (b : Bool)
  | integer (n : Int)
  | string (s : String)
  | array (items : List Value)
  | object (members : List (String × Value))
  deriving Repr, Inhabited

/-- How a character is written inside a string: marks, backslashes and control characters are
escaped, all others stand as they are. -/
def escaped (c : Char) : List Char :=
  if c = '\x22' then ['\\', '\x22']
  else if c = '\\' then ['\\', '\\']
  else if c = '\x08' then ['\\', 'b']
  else if c = '\x0c' then ['\\', 'f']
  else if c = '\n' then ['\\', 'n']
  else if c = '\r' then ['\\', 'r']
  else if c = '\t' then ['\\', 't']
  else if c.toNat < 0x20 then
    ['\\', 'u', '0', '0', Nat.digitChar (c.toNat / 16), Nat.digitChar (c.toNat % 16)]
  else [c]

/-- A string with its marks. -/
def stringText (s : String) : List Char := ['\x22'] ++ s.toList.flatMap escaped ++ ['\x22']

/-- An integer in decimal. -/
def integerText (n : Int) : List Char :=
  if n < 0 then '-' :: Nat.toDigits 10 n.natAbs else Nat.toDigits 10 n.natAbs

/-- A truth value by its name. -/
def booleanText (b : Bool) : List Char :=
  if b then ['t', 'r', 'u', 'e'] else ['f', 'a', 'l', 's', 'e']

/-- The name of the absent value. -/
def nullText : List Char := ['n', 'u', 'l', 'l']

namespace Value

mutual

/-- The text of a value without any blank. -/
def compact : Value → List Char
  | null => nullText
  | boolean b => booleanText b
  | integer n => integerText n
  | string s => stringText s
  | array items => ['['] ++ compactItems items ++ [']']
  | object members => ['\x7b'] ++ compactMembers members ++ ['\x7d']

/-- The items of an array, separated by commas. -/
def compactItems : List Value → List Char
  | [] => []
  | [v] => compact v
  | v :: vs => compact v ++ [','] ++ compactItems vs

/-- The members of an object, separated by commas. -/
def compactMembers : List (String × Value) → List Char
  | [] => []
  | [(key, v)] => stringText key ++ [':'] ++ compact v
  | (key, v) :: rest => stringText key ++ [':'] ++ compact v ++ [','] ++ compactMembers rest

end

/-- A new line, indented to a level. -/
def newLine (level : Nat) : List Char := '\n' :: List.replicate (2 * level) ' '

mutual

/-- The text of a value at an indentation level. -/
def prettyAt (level : Nat) : Value → List Char
  | null => nullText
  | boolean b => booleanText b
  | integer n => integerText n
  | string s => stringText s
  | array [] => ['[', ']']
  | array (v :: vs) => ['['] ++ prettyItems (level + 1) (v :: vs) ++ newLine level ++ [']']
  | object [] => ['\x7b', '\x7d']
  | object (m :: ms) =>
    ['\x7b'] ++ prettyMembers (level + 1) (m :: ms) ++ newLine level ++ ['\x7d']

/-- The items of an array, one a line. -/
def prettyItems (level : Nat) : List Value → List Char
  | [] => []
  | [v] => newLine level ++ prettyAt level v
  | v :: vs => newLine level ++ prettyAt level v ++ [','] ++ prettyItems level vs

/-- The members of an object, one a line. -/
def prettyMembers (level : Nat) : List (String × Value) → List Char
  | [] => []
  | [(key, v)] => newLine level ++ stringText key ++ [':', ' '] ++ prettyAt level v
  | (key, v) :: rest =>
    newLine level ++ stringText key ++ [':', ' '] ++ prettyAt level v ++ [','] ++
      prettyMembers level rest

end

/-- The text of a value with one item or member a line. -/
def pretty (v : Value) : String := String.ofList (prettyAt 0 v)

/-- The string, or the absent value. -/
def ofOption {α : Type} (f : α → Value) : Option α → Value
  | some a => f a
  | none => null

end Value

end FileBroker.Json
