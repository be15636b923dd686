/-
Scanning JSON text: blanks, words, strings and numbers.

A scan takes what it recognises off the front of the text. Where it finds something else, it
tells a text that ends too early from one that goes on wrongly.

* `Json.Scan`: what a scan gives: a value and the rest of the text, or a fault.
* `Json.skipBlank`, `Json.word`, `Json.string`: blanks, the rest of a word, the rest of a string.
* `Json.Number`, `Json.number`: numbers; integers are kept exact within 64 bits.
* `Json.mismatch`: the fault that a value of the wrong kind makes.
-/
import FileBroker.Json.Fault

namespace FileBroker.Json

/-- A scan of the text for a value. -/
abbrev Scan (α : Type) := List Char → Except Fault (α × List Char)

/-- The character is one of the four blanks of JSON. -/
def isBlank (c : Char) : Bool := c = ' ' || c = '\t' || c = '\n' || c = '\r'

/-- The text without the blanks in front. -/
def skipBlank (s : List Char) : List Char := s.dropWhile isBlank

/-- The rest of a word whose first letter has been taken. -/
def word : List Char → Scan Unit
  | [], s => .ok ((), s)
  | _ :: _, [] => .error .endOfText
  | c :: cs, d :: s => if c = d then word cs s else .error .malformed

/-! ### Strings -/

/-- The value of a hexadecimal digit. -/
def hexValue? (c : Char) : Option Nat :=
  if '0' ≤ c && c ≤ '9' then some (c.toNat - '0'.toNat)
  else if 'a' ≤ c && c ≤ 'f' then some (c.toNat - 'a'.toNat + 10)
  else if 'A' ≤ c && c ≤ 'F' then some (c.toNat - 'A'.toNat + 10)
  else none

/-- The value of four hexadecimal digits. -/
def unit? (a b c d : Char) : Option Nat := do
  return (← hexValue? a) * 4096 + (← hexValue? b) * 256 + (← hexValue? c) * 16 + (← hexValue? d)

/-- The number of bytes that the text takes in UTF-8. -/
def byteLength (s : List Char) : Nat := s.foldr (fun c n => c.utf8Size + n) 0

/-- Four hexadecimal digits. A text with less than four bytes left ends too early, whatever
those bytes are. -/
def hexUnit : Scan Nat
  | a :: b :: c :: d :: s =>
    match unit? a b c d with
    | some n => .ok (n, s)
    | none => .error .malformed
  | s => .error (if byteLength s < 4 then .endOfText else .malformed)

/-- The unit is the first half of a surrogate pair. -/
def isLeading (n : Nat) : Bool := 0xD800 ≤ n && n ≤ 0xDBFF

/-- The unit is the second half of a surrogate pair. -/
def isTrailing (n : Nat) : Bool := 0xDC00 ≤ n && n ≤ 0xDFFF

/-- The character that a surrogate pair stands for. -/
def ofPair (leading trailing : Nat) : Char :=
  Char.ofNat (0x10000 + (leading - 0xD800) * 0x400 + (trailing - 0xDC00))

/-- The second half of a surrogate pair whose first half has been taken. -/
def trailingUnit : Scan Nat
  | [] => .error .endOfText
  | [c] => .error (if c = '\\' then .endOfText else .malformed)
  | c :: d :: s =>
    if c = '\\' && d = 'u' then
      match hexUnit s with
      | .ok (n, rest) => if isTrailing n then .ok (n, rest) else .error .malformed
      | .error fault => .error fault
    else .error .malformed

/-- The character of an escape that begins with `u`, after that letter. -/
def numbered : Scan Char := fun s =>
  match hexUnit s with
  | .error fault => .error fault
  | .ok (n, rest) =>
    if isTrailing n then .error .malformed
    else if isLeading n then
      match trailingUnit rest with
      | .ok (m, rest') => .ok (ofPair n m, rest')
      | .error fault => .error fault
    else .ok (Char.ofNat n, rest)

/-- The character of an escape that is a single letter or mark. -/
def single? (c : Char) : Option Char :=
  if c = '\x22' || c = '\\' || c = '/' then some c
  else if c = 'b' then some '\x08'
  else if c = 'f' then some '\x0c'
  else if c = 'n' then some '\n'
  else if c = 'r' then some '\r'
  else if c = 't' then some '\t'
  else none

/-- The character of an escape, after the backslash. -/
def escape : Scan Char
  | [] => .error .endOfText
  | c :: s =>
    match single? c with
    | some d => .ok (d, s)
    | none => if c = 'u' then numbered s else .error .malformed

theorem hexUnit_length_lt {s rest : List Char} {n : Nat} (h : hexUnit s = .ok (n, rest)) :
    rest.length < s.length := by
  unfold hexUnit at h
  grind

theorem trailingUnit_length_lt {s rest : List Char} {n : Nat}
    (h : trailingUnit s = .ok (n, rest)) : rest.length < s.length := by
  match s with
  | [] => simp [trailingUnit] at h
  | [c] => simp [trailingUnit] at h
  | c :: d :: s =>
    simp only [trailingUnit] at h
    split at h
    · split at h
      · next hu =>
        have := hexUnit_length_lt hu
        simp only [List.length_cons]
        grind
      · simp at h
    · simp at h

theorem numbered_length_lt {s rest : List Char} {c : Char} (h : numbered s = .ok (c, rest)) :
    rest.length < s.length := by
  simp only [numbered] at h
  split at h
  · simp at h
  · next hu =>
    have := hexUnit_length_lt hu
    split at h
    · simp at h
    · split at h
      · split at h
        · next ht =>
          have := trailingUnit_length_lt ht
          grind
        · simp at h
      · grind

/-- An escape takes at least one character. -/
theorem escape_length_lt {s rest : List Char} {c : Char} (h : escape s = .ok (c, rest)) :
    rest.length < s.length := by
  match s with
  | [] => simp [escape] at h
  | c :: s =>
    simp only [escape] at h
    split at h
    · grind
    · split at h
      · exact Nat.lt_succ_of_lt (numbered_length_lt h)
      · simp at h

/-- The characters of a string up to its closing mark, which is taken too. -/
def characters (s : List Char) : Except Fault (List Char × List Char) :=
  match s with
  | [] => .error .endOfText
  | c :: s =>
    if c = '\x22' then .ok ([], s)
    else if c = '\\' then
      match h : escape s with
      | .error fault => .error fault
      | .ok (d, rest) =>
        have := escape_length_lt h
        (characters rest).map fun (ds, rest') => (d :: ds, rest')
    else if c.toNat < 0x20 then .error .malformed
    else (characters s).map fun (ds, rest') => (c :: ds, rest')
termination_by s.length

/-- The rest of a string whose opening mark has been taken. -/
def string : Scan String := fun s =>
  (characters s).map fun (cs, rest) => (String.ofList cs, rest)

/-! ### Numbers -/

/-- A number: an integer that fits 64 bits, or a number in double precision. -/
inductive Number where
  | integer (n : Int)
  | floating (bits : UInt64)
  deriving DecidableEq, Repr

/-- The number as a value in the wrong place. -/
def Number.found : Number → Found
  | integer n => .integer n
  | floating bits => .floating bits

/-- The character is a decimal digit. -/
def isDigit (c : Char) : Bool := '0' ≤ c && c ≤ '9'

/-- The value of a decimal digit. -/
def digitValue (c : Char) : Nat := c.toNat - '0'.toNat

/-- The largest significand: further digits are dropped. -/
def maxSignificand : Nat := 0xFFFFFFFFFFFFFFFF

/-- The significand after some more digits, and how many of them it took in: once a digit does
not fit, it and all later ones are dropped. -/
def absorb (significand : Nat) : List Char → Nat × Nat
  | [] => (significand, 0)
  | c :: cs =>
    let next := significand * 10 + digitValue c
    if next ≤ maxSignificand then
      let (final, taken) := absorb next cs
      (final, taken + 1)
    else (significand, 0)

/-- A power of ten in double precision. -/
def powerOfTen (n : Nat) : Float := Float.ofScientific 1 false n

/-- The significand times a power of ten, in double precision: each step is rounded. A result
that is too large is none; one that is too small becomes zero. -/
def scale? (significand : Nat) (exponent : Int) : Option Float :=
  let f := Float.ofNat significand
  if significand = 0 then some f
  else if 308 < exponent then none
  else if 0 ≤ exponent then
    let g := f * powerOfTen exponent.toNat
    if g.isInf then none else some g
  else if -308 ≤ exponent then some (f / powerOfTen (-exponent).toNat)
  else if -616 ≤ exponent then some (f / powerOfTen 308 / powerOfTen (-exponent - 308).toNat)
  else some 0

/-- The number with its sign in double precision, or the fault of a number that is too large. -/
def floating (negative : Bool) (significand : Nat) (exponent : Int) : Except Fault Number :=
  match scale? significand exponent with
  | some f => .ok (.floating (if negative then -f else f).toBits)
  | none => .error .malformed

/-- The integer with its sign. A negative one that does not fit 64 bits, and negative zero, are
numbers in double precision. -/
def integer (negative : Bool) (significand : Nat) : Number :=
  if !negative then .integer significand
  else if significand = 0 || 0x8000000000000000 < significand then
    .floating (-(Float.ofNat significand)).toBits
  else .integer (-(significand : Int))

/-- The largest exponent; a larger one is cut down to it. -/
def maxExponent : Nat := 0x7FFFFFFF

/-- The exponent that some digits spell. -/
def exponentOf (digits : List Char) : Nat :=
  digits.foldl (fun n d => min maxExponent (n * 10 + digitValue d)) 0

/-- The sign of an exponent, which may be left out. -/
def exponentSign : List Char → Bool × List Char
  | c :: s => if c = '+' then (false, s) else if c = '-' then (true, s) else (false, c :: s)
  | [] => (false, [])

/-- The rest of a number after the letter of its exponent. -/
def exponentPart (negative : Bool) (significand : Nat) (exponent : Int) : Scan Number := fun s =>
  let (down, s) := exponentSign s
  match s with
  | [] => .error .endOfText
  | c :: _ =>
    if !isDigit c then .error .malformed
    else
      let size : Int := exponentOf (s.takeWhile isDigit)
      (floating negative significand (if down then exponent - size else exponent + size)).map
        fun n => (n, s.dropWhile isDigit)

/-- The rest of a number that has a fraction or an exponent, after its digits. -/
def afterDigits (negative : Bool) (significand : Nat) (exponent : Int) : Scan Number := fun s =>
  match s with
  | c :: rest =>
    if c = 'e' || c = 'E' then exponentPart negative significand exponent rest
    else (floating negative significand exponent).map fun n => (n, s)
  | [] => (floating negative significand exponent).map fun n => (n, s)

/-- The rest of a number after its point. -/
def fractionPart (negative : Bool) (significand : Nat) (exponent : Int) : Scan Number := fun s =>
  match s with
  | [] => .error .endOfText
  | c :: _ =>
    if !isDigit c then .error .malformed
    else
      let (final, taken) := absorb significand (s.takeWhile isDigit)
      afterDigits negative final (exponent - taken) (s.dropWhile isDigit)

/-- The rest of a number after its integer digits, of which `dropped` did not fit. -/
def afterInteger (negative : Bool) (significand dropped : Nat) : Scan Number := fun s =>
  match s with
  | '.' :: rest => fractionPart negative significand dropped rest
  | _ =>
    match s with
    | c :: rest =>
      if c = 'e' || c = 'E' then exponentPart negative significand dropped rest
      else if dropped = 0 then .ok (integer negative significand, s)
      else (floating negative significand dropped).map fun n => (n, s)
    | [] =>
      if dropped = 0 then .ok (integer negative significand, s)
      else (floating negative significand dropped).map fun n => (n, s)

/-- A number, after its sign. Only a zero may begin with a zero. -/
def number (negative : Bool) : Scan Number := fun s =>
  match s with
  | [] => .error .endOfText
  | c :: rest =>
    if c = '0' then
      match rest with
      | d :: _ => if isDigit d then .error .malformed else afterInteger negative 0 0 rest
      | [] => afterInteger negative 0 0 rest
    else if isDigit c then
      let digits := s.takeWhile isDigit
      let (significand, taken) := absorb 0 digits
      afterInteger negative significand (digits.length - taken) (s.dropWhile isDigit)
    else .error .malformed

/-! ### Values of the wrong kind -/

/-- The fault of a value, given what was found and what was scanned of it. -/
def mistaken {α : Type} (expected : String) (found : α → Found) :
    Except Fault (α × List Char) → Fault
  | .ok (a, _) => .wrongType (found a) expected
  | .error fault => fault

/-- The fault that the value at the head of the text makes where another kind is expected. The
value is scanned as far as its kind needs. -/
def mismatch (expected : String) : List Char → Fault
  | [] => .endOfText
  | c :: s =>
    if c = 'n' then mistaken expected (fun _ => .null) (word ['u', 'l', 'l'] s)
    else if c = 't' then mistaken expected (fun _ => .boolean true) (word ['r', 'u', 'e'] s)
    else if c = 'f' then mistaken expected (fun _ => .boolean false) (word ['a', 'l', 's', 'e'] s)
    else if c = '-' then mistaken expected Number.found (number true s)
    else if isDigit c then mistaken expected Number.found (number false (c :: s))
    else if c = '\x22' then mistaken expected .string (string s)
    else if c = '[' then .wrongType .sequence expected
    else if c = '\x7b' then .wrongType .map expected
    else .malformed

end FileBroker.Json
