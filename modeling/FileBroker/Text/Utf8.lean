/-
Bytes read as UTF-8.

* `Utf8.next`: the character at the head of a byte string, or the length of the longest part
  there that no character begins with but whose beginning some character shares.
* `Utf8.decode?`: the text of a byte string that is valid throughout.
* `Utf8.decodeLossy`: the text of any byte string, one replacement character for each
  such invalid part.
* `Utf8.encode`: the bytes of a text.
-/
import FileBroker.Bytes

namespace FileBroker.Utf8

/-- The byte lies between two others. -/
def between (low high b : UInt8) : Bool := low ≤ b && b ≤ high

/-- The byte continues a character. -/
def continues (b : UInt8) : Bool := between 0x80 0xBF b

/-- How a lead byte goes on: how many bytes follow it, and where the first of them lies.
Overlong forms, surrogates and numbers above the last code point are excluded by the second byte. -/
def lead? (b : UInt8) : Option (Nat × UInt8 × UInt8) :=
  if between 0xC2 0xDF b then some (1, 0x80, 0xBF)
  else if b = 0xE0 then some (2, 0xA0, 0xBF)
  else if b = 0xED then some (2, 0x80, 0x9F)
  else if between 0xE1 0xEF b then some (2, 0x80, 0xBF)
  else if b = 0xF0 then some (3, 0x90, 0xBF)
  else if between 0xF1 0xF3 b then some (3, 0x80, 0xBF)
  else if b = 0xF4 then some (3, 0x80, 0x8F)
  else none

/-- The payload bits of a byte that continues a character. -/
def payload (b : UInt8) : Nat := b.toNat % 64

/-- What stands at the head of a byte string. -/
inductive Head where
  | character (c : Char) (rest : Bytes)
  | invalid (rest : Bytes)
  deriving DecidableEq, Repr

/-- The character at the head of a nonempty byte string, or what follows the invalid part there. -/
def next (b : UInt8) (rest : Bytes) : Head :=
  if b < 0x80 then .character (Char.ofNat b.toNat) rest
  else match lead? b, rest with
    | none, _ => .invalid rest
    | some _, [] => .invalid []
    | some (more, low, high), b₁ :: rest₁ =>
      if !between low high b₁ then .invalid rest
      else if more = 1 then .character (Char.ofNat ((b.toNat - 0xC0) * 64 + payload b₁)) rest₁
      else match rest₁ with
        | [] => .invalid []
        | b₂ :: rest₂ =>
          if !continues b₂ then .invalid rest₁
          else if more = 2 then
            .character (Char.ofNat ((b.toNat - 0xE0) * 4096 + payload b₁ * 64 + payload b₂)) rest₂
          else match rest₂ with
            | [] => .invalid []
            | b₃ :: rest₃ =>
              if !continues b₃ then .invalid rest₂
              else .character (Char.ofNat ((b.toNat - 0xF0) * 262144 + payload b₁ * 4096 +
                payload b₂ * 64 + payload b₃)) rest₃

/-- What follows the head. -/
def Head.rest : Head → Bytes
  | character _ rest => rest
  | invalid rest => rest

/-- The head takes at least the first byte. -/
theorem next_rest_length_le (b : UInt8) (rest : Bytes) :
    (next b rest).rest.length ≤ rest.length := by
  unfold next
  repeat' split
  all_goals
    simp only [Head.rest, List.length_cons, List.length_nil]
    omega

/-- The text of a byte string, if it is valid throughout. -/
def decode? : Bytes → Option (List Char)
  | [] => some []
  | b :: rest =>
    match h : next b rest with
    | .character c rest' =>
      have : rest'.length ≤ rest.length := by simpa [h, Head.rest] using next_rest_length_le b rest
      (decode? rest').map (c :: ·)
    | .invalid _ => none
  termination_by bytes => bytes.length

/-- The text of a byte string, with U+FFFD in place of each invalid part. -/
def decodeLossy : Bytes → List Char
  | [] => []
  | b :: rest =>
    match h : next b rest with
    | .character c rest' =>
      have : rest'.length ≤ rest.length := by simpa [h, Head.rest] using next_rest_length_le b rest
      c :: decodeLossy rest'
    | .invalid rest' =>
      have : rest'.length ≤ rest.length := by simpa [h, Head.rest] using next_rest_length_le b rest
      Char.ofNat 0xFFFD :: decodeLossy rest'
  termination_by bytes => bytes.length

/-- The bytes of a text. -/
def encode (text : String) : Bytes := text.toUTF8.toList

/-- The text of a byte string as a string, if it is valid throughout. -/
def toString? (bytes : Bytes) : Option String := (decode? bytes).map String.ofList

/-- The text of any byte string as a string. -/
def toStringLossy (bytes : Bytes) : String := String.ofList (decodeLossy bytes)

end FileBroker.Utf8
