/-
Reading JSON text as values of a given shape.

* `Json.boolean`, `Json.text`, `Json.unit`, `Json.wholeNumber`: scalars.
* `Json.sequence`: arrays of any length.
* `Json.variant`: one of several names, alone or as the only key of an object.
* `Json.Field`, `Json.record`: records of three fields, as objects or as arrays in field order.
* `Json.document`: a whole text that holds one value.

Records are strict: a key that is no field, and a second value for a field, are faults as soon as
the key has been read.
-/
import FileBroker.Json.Scan

namespace FileBroker.Json

/-! ### Scalars -/

/-- A truth value. -/
def boolean : Scan Bool := fun s =>
  match skipBlank s with
  | [] => .error .endOfText
  | c :: rest =>
    if c = 't' then (word ['r', 'u', 'e'] rest).map fun (_, rest') => (true, rest')
    else if c = 'f' then (word ['a', 'l', 's', 'e'] rest).map fun (_, rest') => (false, rest')
    else .error (mismatch "a boolean" (c :: rest))

/-- A string. -/
def text : Scan String := fun s =>
  match skipBlank s with
  | [] => .error .endOfText
  | c :: rest => if c = '\x22' then string rest else .error (mismatch "a string" (c :: rest))

/-- The value that says nothing. -/
def unit : Scan Unit := fun s =>
  match skipBlank s with
  | [] => .error .endOfText
  | c :: rest =>
    if c = 'n' then word ['u', 'l', 'l'] rest else .error (mismatch "unit" (c :: rest))

/-- The integer between two bounds that a number is, or the fault if it is none. -/
def bounded (low high : Int) (expected : String) :
    Except Fault (Number × List Char) → Except Fault (Int × List Char)
  | .error fault => .error fault
  | .ok (.floating bits, _) => .error (.wrongType (.floating bits) expected)
  | .ok (.integer n, rest) =>
    if low ≤ n && n ≤ high then .ok (n, rest) else .error (.outOfRange n expected)

/-- An integer between two bounds. -/
def wholeNumber (low high : Int) (expected : String) : Scan Int := fun s =>
  match skipBlank s with
  | [] => .error .endOfText
  | c :: rest =>
    if c = '-' then bounded low high expected (number true rest)
    else if isDigit c then bounded low high expected (number false (c :: rest))
    else .error (mismatch expected (c :: rest))

/-! ### Arrays -/

/-- Before an item of an array: whether there is one. The closing bracket is not taken; the comma
before any item but the first is. -/
def beforeItem (first : Bool) : Scan Bool := fun s =>
  match skipBlank s with
  | [] => .error .endOfText
  | c :: rest =>
    if c = ']' then .ok (false, c :: rest)
    else if first then .ok (true, c :: rest)
    else if c = ',' then
      match skipBlank rest with
      | [] => .error .endOfText
      | d :: rest' => if d = ']' then .error .malformed else .ok (true, d :: rest')
    else .error .malformed

/-- The closing bracket of an array. -/
def closeArray : Scan Unit := fun s =>
  match skipBlank s with
  | [] => .error .endOfText
  | c :: rest => if c = ']' then .ok ((), rest) else .error .malformed

/-- The items of an array that is open, up to its closing bracket. The bound on their number is
never reached when it is the length of the text. -/
def itemsOf {α : Type} (item : Scan α) : Nat → Bool → Scan (List α)
  | 0, _, _ => .error .endOfText
  | bound + 1, first, s =>
    match beforeItem first s with
    | .error fault => .error fault
    | .ok (false, rest) => (closeArray rest).map fun (_, rest') => ([], rest')
    | .ok (true, rest) =>
      match item rest with
      | .error fault => .error fault
      | .ok (a, rest') => (itemsOf item bound false rest').map fun (as, end') => (a :: as, end')

/-- An array of items. -/
def sequence {α : Type} (item : Scan α) : Scan (List α) := fun s =>
  match skipBlank s with
  | [] => .error .endOfText
  | c :: rest =>
    if c = '[' then itemsOf item (rest.length + 1) true rest
    else .error (mismatch "a sequence" (c :: rest))

/-! ### Variants -/

/-- The variant of a given name. -/
def named {α : Type} (variants : List (String × α)) (name : String) : Except Fault α :=
  match variants.lookup name with
  | some a => .ok a
  | none => .error (.unknownVariant name (variants.map Prod.fst))

/-- The colon between a key and its value. -/
def colon : Scan Unit := fun s =>
  match skipBlank s with
  | [] => .error .endOfText
  | c :: rest => if c = ':' then .ok ((), rest) else .error .malformed

/-- The rest of a variant that is written as an object, after the brace: its name as the only key,
with a value that says nothing. -/
def variantObject {α : Type} (variants : List (String × α)) : Scan α := fun s =>
  match skipBlank s with
  | [] => .error .endOfText
  | c :: rest =>
    if c ≠ '\x22' then .error .malformed
    else do
      let (name, rest) ← string rest
      let a ← named variants name
      let (_, rest) ← colon rest
      let (_, rest) ← unit rest
      match skipBlank rest with
      | [] => .error .endOfText
      | d :: rest => if d = '\x7d' then .ok (a, rest) else .error .malformed

/-- One of several named variants. -/
def variant {α : Type} (variants : List (String × α)) : Scan α := fun s =>
  match skipBlank s with
  | [] => .error .endOfText
  | c :: rest =>
    if c = '\x22' then do
      let (name, rest) ← string rest
      let a ← named variants name
      return (a, rest)
    else if c = '\x7b' then variantObject variants rest
    else .error .malformed

/-! ### Records -/

/-- A field of a record: its key, how its value is read, and what it is when it is left out. -/
structure Field (α : Type) where
  key : String
  read : Scan α
  standard : Option α := none

/-- The value of a field in an object: what was read, else the standard, else a fault. -/
def Field.settle {α : Type} (f : Field α) (read : Option α) : Except Fault α :=
  match read <|> f.standard with
  | some a => .ok a
  | none => .error (.missingField f.key)

/-- A record of three fields. -/
structure Layout (α β γ : Type) where
  title : String
  first : Field α
  second : Field β
  third : Field γ

namespace Layout

variable {α β γ : Type} (l : Layout α β γ)

/-- The keys of the fields, in order. -/
def keys : List String := [l.first.key, l.second.key, l.third.key]

/-- The words for a record where none was found. -/
def expected : String := "struct " ++ l.title

/-- The words for a record that is too short. -/
def expectedWhole : String := l.expected ++ " with 3 elements"

/-- The value of the field at a position of an array. A field beyond the end takes its standard. -/
def place {δ : Type} (f : Field δ) (position : Nat) (first : Bool) : Scan δ := fun s =>
  match beforeItem first s with
  | .error fault => .error fault
  | .ok (true, rest) => f.read rest
  | .ok (false, rest) =>
    match f.standard with
    | some d => .ok (d, rest)
    | none => .error (.wrongLength position l.expectedWhole)

/-- The rest of a record that is written as an array, after the bracket. -/
def ofArray : Scan (α × β × γ) := fun s => do
  let (a, s) ← l.place l.first 0 true s
  let (b, s) ← l.place l.second 1 false s
  let (c, s) ← l.place l.third 2 false s
  let (_, s) ← closeArray s
  return ((a, b, c), s)

/-- Before a member of an object: whether there is one. The closing brace is not taken; the comma
before any member but the first, and the opening mark of the key, are. -/
def beforeMember (first : Bool) : Scan Bool := fun s =>
  match skipBlank s with
  | [] => .error .endOfText
  | c :: rest =>
    if c = '\x7d' then .ok (false, c :: rest)
    else if first then if c = '\x22' then .ok (true, rest) else .error .malformed
    else if c = ',' then
      match skipBlank rest with
      | [] => .error .endOfText
      | d :: rest' => if d = '\x22' then .ok (true, rest') else .error .malformed
    else .error .malformed

/-- The value of a member, which its field must not have yet. -/
def once {δ : Type} (f : Field δ) (old : Option δ) : Scan (Option δ) := fun s =>
  match old with
  | some _ => .error (.duplicateField f.key)
  | none => do
    let (_, s) ← colon s
    let (d, s) ← f.read s
    return (some d, s)

/-- What has been read of a record that is written as an object. -/
abbrev Partial (α β γ : Type) := Option α × Option β × Option γ

/-- One member of the record, after its key. -/
def member (key : String) (p : Partial α β γ) : Scan (Partial α β γ) := fun s =>
  if key = l.first.key then (once l.first p.1 s).map fun (a, s) => ((a, p.2.1, p.2.2), s)
  else if key = l.second.key then (once l.second p.2.1 s).map fun (b, s) => ((p.1, b, p.2.2), s)
  else if key = l.third.key then (once l.third p.2.2 s).map fun (c, s) => ((p.1, p.2.1, c), s)
  else .error (.unknownField key l.keys)

/-- The members of the record up to its closing brace, which is not taken. The bound on their
number is never reached when it is greater than the number of keys, since a member beyond them is
unknown or a duplicate. -/
def members : Nat → Bool → Partial α β γ → Scan (Partial α β γ)
  | 0, _, _, _ => .error .endOfText
  | bound + 1, first, p, s =>
    match beforeMember first s with
    | .error fault => .error fault
    | .ok (false, rest) => .ok (p, rest)
    | .ok (true, rest) =>
      match string rest with
      | .error fault => .error fault
      | .ok (key, rest) =>
        match l.member key p rest with
        | .error fault => .error fault
        | .ok (p, rest) => members bound false p rest

/-- The record that the members make, or the first field that is missing. -/
def settle (p : Partial α β γ) : Except Fault (α × β × γ) := do
  let a ← l.first.settle p.1
  let b ← l.second.settle p.2.1
  let c ← l.third.settle p.2.2
  return (a, b, c)

/-- The rest of a record that is written as an object, after the brace. -/
def ofObject : Scan (α × β × γ) := fun s => do
  let (p, s) ← l.members (l.keys.length + 1) true (none, none, none) s
  let r ← l.settle p
  return (r, s.drop 1)

end Layout

/-- A record, as an object or as an array of its fields in order. -/
def record {α β γ : Type} (l : Layout α β γ) : Scan (α × β × γ) := fun s =>
  match skipBlank s with
  | [] => .error .endOfText
  | c :: rest =>
    if c = '[' then l.ofArray rest
    else if c = '\x7b' then l.ofObject rest
    else .error (mismatch l.expected (c :: rest))

/-- A whole text that holds one value and nothing after it. -/
def document {α : Type} (value : Scan α) (s : List Char) : Except Fault α :=
  match value s with
  | .error fault => .error fault
  | .ok (a, rest) => if skipBlank rest = [] then .ok a else .error .malformed

end FileBroker.Json
