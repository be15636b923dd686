/-
The texts that spell a JSON value.

A value has many texts: there may be blanks between its parts, each character of a string may stand
as it is or be escaped, and a character beyond the first plane may be escaped as a surrogate pair.
The grammar here is that of JSON and knows nothing of how a text is scanned.

* `Json.Tree`: a value as it is written, with all members of its objects in order.
* `Json.SpellsChar`, `Json.Quotes`, `Json.IsNumber`: the spellings of characters, strings and
  numbers.
* `Json.Spells`: the texts of a value, without blanks around them; `Json.Tree.Fills` allows those.
* `Json.string_quoted`: whatever way a string is spelled, it is scanned as that string.
* `Json.Value.spells_compact`, `Json.Value.spells_prettyAt`: the texts that are written for a value
  spell it.
-/
import FileBroker.Proofs.Values

namespace FileBroker.Json

/-! ### The grammar -/

/-- A JSON value as it is written: a key may occur twice, and a number is its text. -/
inductive Tree where
  | null
  | boolean (b : Bool)
  | number (digits : List Char)
  | string (s : String)
  | array (items : List Tree)
  | object (members : List (String × Tree))

/-- The text consists of the blanks of JSON. -/
def Blank (w : List Char) : Prop := ∀ c ∈ w, c ∈ [' ', '\t', '\n', '\r']

/-- The hexadecimal digits with small letters. -/
def smallDigits : List Char :=
  ['0', '1', '2', '3', '4', '5', '6', '7', '8', '9', 'a', 'b', 'c', 'd', 'e', 'f']

/-- The hexadecimal digits with capital letters. -/
def capitalDigits : List Char :=
  ['0', '1', '2', '3', '4', '5', '6', '7', '8', '9', 'A', 'B', 'C', 'D', 'E', 'F']

/-- The character is a hexadecimal digit of that value. -/
def SpellsDigit (c : Char) (n : ℕ) : Prop := smallDigits[n]? = some c ∨ capitalDigits[n]? = some c

/-- The text is a unit of UTF-16 in four hexadecimal digits. -/
inductive SpellsUnit : List Char → ℕ → Prop
  | digits {a b c d : Char} {i j k l : ℕ} : SpellsDigit a i → SpellsDigit b j →
      SpellsDigit c k → SpellsDigit d l →
      SpellsUnit [a, b, c, d] (i * 4096 + j * 256 + k * 16 + l)

/-- The escapes of one letter or mark, with what they stand for. -/
def shortEscapes : List (Char × Char) :=
  [('\x22', '\x22'), ('\\', '\\'), ('/', '/'), ('b', '\x08'), ('f', '\x0c'), ('n', '\n'),
    ('r', '\r'), ('t', '\t')]

/-- The text stands for that character inside a string. -/
inductive SpellsChar : List Char → Char → Prop
  | plain {c : Char} : 0x20 ≤ c.toNat → c ≠ '\x22' → c ≠ '\\' → SpellsChar [c] c
  | short {letter c : Char} : (letter, c) ∈ shortEscapes → SpellsChar ['\\', letter] c
  | unit {s : List Char} {c : Char} : SpellsUnit s c.toNat → SpellsChar ('\\' :: 'u' :: s) c
  | pair {s t : List Char} {high low : ℕ} {c : Char} : SpellsUnit s high → SpellsUnit t low →
      0xD800 ≤ high → high < 0xDC00 → 0xDC00 ≤ low → low < 0xE000 →
      c.toNat = 0x10000 + (high - 0xD800) * 0x400 + (low - 0xDC00) →
      SpellsChar ('\\' :: 'u' :: (s ++ '\\' :: 'u' :: t)) c

/-- The text stands for those characters inside a string, one after the other. -/
inductive SpellsChars : List Char → List Char → Prop
  | nil : SpellsChars [] []
  | cons {s t cs : List Char} {c : Char} : SpellsChar s c → SpellsChars t cs →
      SpellsChars (s ++ t) (c :: cs)

/-- The text is a string between its marks. -/
inductive Quotes : List Char → String → Prop
  | marks {s : List Char} {text : String} : SpellsChars s text.toList →
      Quotes ('\x22' :: (s ++ ['\x22'])) text

/-- The text consists of decimal digits, of which there is at least one. -/
def AreDigits (s : List Char) : Prop := s ≠ [] ∧ ∀ c ∈ s, c.isDigit = true

/-- The text is a number: a sign, an integer without a leading zero, a fraction and an exponent, of
which only the integer must be there. -/
inductive IsNumber : List Char → Prop
  | parts {sign whole fraction exponent : List Char} :
      (sign = [] ∨ sign = ['-']) →
      AreDigits whole → (whole.head? = some '0' → whole = ['0']) →
      (fraction = [] ∨ ∃ ds, AreDigits ds ∧ fraction = '.' :: ds) →
      (exponent = [] ∨ ∃ e plus ds, (e = 'e' ∨ e = 'E') ∧
        (plus = [] ∨ plus = ['+'] ∨ plus = ['-']) ∧ AreDigits ds ∧ exponent = e :: (plus ++ ds)) →
      IsNumber (sign ++ (whole ++ (fraction ++ exponent)))

/-- What may stand in front of an item or a member: a comma, unless it is the first. -/
inductive Gap : Bool → List Char → Prop
  | first {w : List Char} : Blank w → Gap true w
  | comma {w w' : List Char} : Blank w → Blank w' → Gap false (w ++ ',' :: w')

mutual

/-- The text is that value, without blanks around it. -/
inductive Spells : List Char → Tree → Prop
  | null : Spells nullText .null
  | boolean (b : Bool) : Spells (booleanText b) (.boolean b)
  | number {s : List Char} : IsNumber s → Spells s (.number s)
  | string {s : List Char} {text : String} : Quotes s text → Spells s (.string text)
  | array {s : List Char} {vs : List Tree} : SpellsItems true s vs → Spells ('[' :: s) (.array vs)
  | object {s : List Char} {ms : List (String × Tree)} : SpellsMembers true s ms →
      Spells ('\x7b' :: s) (.object ms)

/-- The text is the rest of an array, up to its closing bracket. -/
inductive SpellsItems : Bool → List Char → List Tree → Prop
  | close {first : Bool} {w : List Char} : Blank w → SpellsItems first (w ++ [']']) []
  | item {first : Bool} {gap s t : List Char} {v : Tree} {vs : List Tree} : Gap first gap →
      Spells s v → SpellsItems false t vs → SpellsItems first (gap ++ (s ++ t)) (v :: vs)

/-- The text is the rest of an object, up to its closing brace. -/
inductive SpellsMembers : Bool → List Char → List (String × Tree) → Prop
  | close {first : Bool} {w : List Char} : Blank w → SpellsMembers first (w ++ ['\x7d']) []
  | member {first : Bool} {gap k w w' s t : List Char} {key : String} {v : Tree}
      {ms : List (String × Tree)} : Gap first gap → Quotes k key → Blank w → Blank w' →
      Spells s v → SpellsMembers false t ms →
      SpellsMembers first (gap ++ (k ++ (w ++ ':' :: (w' ++ (s ++ t))))) ((key, v) :: ms)

end

/-- The text holds the value and nothing else but blanks. -/
def Tree.Fills (v : Tree) (text : String) : Prop :=
  ∃ w s w', Blank w ∧ Spells s v ∧ Blank w' ∧ text.toList = w ++ (s ++ w')

lemma blank_nil : Blank [] := List.forall_mem_nil _

lemma blank_replicate (n : ℕ) : Blank (List.replicate n ' ') := by
  intro c hc
  rw [(List.mem_replicate.mp hc).2]
  exact List.mem_cons_self

lemma blank_newLine (level : ℕ) : Blank (Value.newLine level) :=
  List.forall_mem_cons.mpr ⟨by decide, blank_replicate _⟩

/-! ### Strings are scanned as they are spelled -/

lemma hexValue?_of_spellsDigit {c : Char} {n : ℕ} (h : SpellsDigit c n) : hexValue? c = some n := by
  have hsmall : ∀ n < 16, smallDigits[n]?.bind hexValue? = some n := by decide
  have hcapital : ∀ n < 16, capitalDigits[n]?.bind hexValue? = some n := by decide
  rcases h with h | h
  · have hn := hsmall n (List.getElem?_eq_some_iff.mp h).1
    rwa [h] at hn
  · have hn := hcapital n (List.getElem?_eq_some_iff.mp h).1
    rwa [h] at hn

lemma hexUnit_spelled {s : List Char} {n : ℕ} (h : SpellsUnit s n) (rest : List Char) :
    hexUnit (s ++ rest) = .ok (n, rest) := by
  cases h with
  | digits ha hb hc hd =>
    simp [hexUnit, unit?, hexValue?_of_spellsDigit ha, hexValue?_of_spellsDigit hb,
      hexValue?_of_spellsDigit hc, hexValue?_of_spellsDigit hd]

/-- A unit that stands for a character is no half of a surrogate pair. -/
lemma not_surrogate (c : Char) : isTrailing c.toNat = false ∧ isLeading c.toNat = false := by
  have hvalid : c.toNat < 0xD800 ∨ 0xDFFF < c.toNat ∧ c.toNat < 0x110000 := c.valid
  simp only [isTrailing, isLeading, Bool.and_eq_false_iff, decide_eq_false_iff_not]
  omega

lemma numbered_unit {s : List Char} {c : Char} (h : SpellsUnit s c.toNat) (rest : List Char) :
    numbered (s ++ rest) = .ok (c, rest) := by
  obtain ⟨htrailing, hleading⟩ := not_surrogate c
  simp [numbered, hexUnit_spelled h, htrailing, hleading, Char.ofNat_toNat]

lemma numbered_pair {s t : List Char} {high low : ℕ} {c : Char} (hs : SpellsUnit s high)
    (ht : SpellsUnit t low) (hhigh : 0xD800 ≤ high) (hhigh' : high < 0xDC00) (hlow : 0xDC00 ≤ low)
    (hlow' : low < 0xE000) (hc : c.toNat = 0x10000 + (high - 0xD800) * 0x400 + (low - 0xDC00))
    (rest : List Char) : numbered (s ++ '\\' :: 'u' :: (t ++ rest)) = .ok (c, rest) := by
  have hfirst : isTrailing high = false := by simp [isTrailing]; omega
  have hleading : isLeading high = true := by simp [isLeading]; omega
  have htrailing : isTrailing low = true := by simp [isTrailing]; omega
  have hpair : ofPair high low = c := by rw [ofPair, ← hc, Char.ofNat_toNat]
  simp [numbered, hexUnit_spelled hs, trailingUnit, hexUnit_spelled ht, hfirst, hleading, htrailing,
    hpair]

lemma characters_spelled {s : List Char} {c : Char} (h : SpellsChar s c) (rest : List Char) :
    characters (s ++ rest) = (characters rest).map fun (cs, end') => (c :: cs, end') := by
  cases h with
  | plain hlow hmark hbackslash =>
    rw [List.singleton_append, characters, if_neg hmark, if_neg hbackslash,
      if_neg (Nat.not_lt.mpr hlow)]
  | @short letter _ h =>
    have hsingle : ∀ e ∈ shortEscapes, single? e.1 = some e.2 := by decide
    refine characters_escape ?_
    change escape (letter :: rest) = _
    rw [escape, hsingle _ h]
  | unit hunit => exact characters_escape (numbered_unit hunit rest)
  | @pair s t _ _ _ hs ht hhigh hhigh' hlow hlow' hc =>
    have hread := numbered_pair hs ht hhigh hhigh' hlow hlow' hc rest
    rw [List.cons_append, List.cons_append, List.append_assoc, List.cons_append, List.cons_append]
    exact characters_escape hread

lemma characters_quoted {s cs : List Char} (h : SpellsChars s cs) (rest : List Char) :
    characters (s ++ '\x22' :: rest) = .ok (cs, rest) := by
  induction h with
  | nil => rw [List.nil_append, characters, if_pos rfl]
  | cons hc _ ih => rw [List.append_assoc, characters_spelled hc, ih]; rfl

/-- **Whatever way a string is spelled, it is scanned as that string.** -/
lemma string_quoted {s : List Char} {text : String} (h : Quotes s text) (rest : List Char) :
    ∃ tail, s ++ rest = '\x22' :: tail ∧ string tail = .ok (text, rest) := by
  obtain ⟨hs⟩ := h
  refine ⟨_, List.cons_append, ?_⟩
  rw [List.append_assoc, List.singleton_append, string, characters_quoted hs]
  exact congrArg (fun text => Except.ok (text, rest)) String.ofList_toList

/-! ### Written texts are spellings -/

lemma spellsUnit_low {n : ℕ} (hn : n < 0x20) :
    SpellsUnit ['0', '0', Nat.digitChar (n / 16), Nat.digitChar (n % 16)] n := by
  have hdigit : ∀ n < 16, smallDigits[n]? = some (Nat.digitChar n) := by decide
  have hunit := SpellsUnit.digits (.inl (hdigit 0 (by decide))) (.inl (hdigit 0 (by decide)))
    (.inl (hdigit (n / 16) (by omega))) (.inl (hdigit (n % 16) (by omega)))
  rwa [show 0 * 4096 + 0 * 256 + n / 16 * 16 + n % 16 = n by omega] at hunit

lemma spellsChar_escaped (c : Char) : SpellsChar (escaped c) c := by
  unfold escaped
  split_ifs with mark backslash h h h h h low
  iterate 7
    · exact .short (by subst c; decide)
  · exact .unit (spellsUnit_low low)
  · exact .plain (Nat.le_of_not_lt low) mark backslash

lemma quotes_stringText (text : String) : Quotes (stringText text) text := by
  have hchars (cs : List Char) : SpellsChars (cs.flatMap escaped) cs := by
    induction cs with
    | nil => exact .nil
    | cons c cs ih => exact .cons (spellsChar_escaped c) ih
  rw [stringText, List.append_assoc, List.singleton_append]
  exact ⟨hchars text.toList⟩

lemma areDigits_toDigits (n : ℕ) : AreDigits (Nat.toDigits 10 n) := by
  obtain ⟨c, cs, hcs, -⟩ := toDigits_head n
  exact ⟨by rw [hcs]; exact List.cons_ne_nil c cs, fun d hd => isDigit_eq d ▸ isDigit_of_mem hd⟩

lemma isNumber_integerText (n : ℤ) : IsNumber (integerText n) := by
  obtain ⟨c, cs, hcs, -, hzero⟩ := toDigits_head n.natAbs
  have hdigits := areDigits_toDigits n.natAbs
  have hlead (h : (Nat.toDigits 10 n.natAbs).head? = some '0') :
      Nat.toDigits 10 n.natAbs = ['0'] := by
    rw [hcs, List.head?_cons, Option.some.injEq] at h
    rw [hzero h]
    rfl
  have hnumber (sign : List Char) (hsign : sign = [] ∨ sign = ['-']) :=
    IsNumber.parts hsign hdigits hlead (.inl rfl) (.inl rfl)
  simp only [List.append_nil] at hnumber
  rw [integerText]
  split_ifs
  · exact hnumber ['-'] (.inr rfl)
  · exact hnumber [] (.inl rfl)

section Separated

variable {α : Type} {text : α → List Char} {pad w : List Char}

/-- Items that are each spelled make an array, whatever blanks are put in front of each. -/
lemma spellsItems_separated {tree : α → Tree} {as : List α} (hpad : Blank pad) (hw : Blank w)
    (h : ∀ a ∈ as, Spells (text a) (tree a)) (first : Bool) :
    SpellsItems first (separated (fun a => pad ++ text a) first as ++ (w ++ [']']))
      (as.map tree) := by
  induction as generalizing first with
  | nil => exact .close hw
  | cons a as ih =>
    rw [List.forall_mem_cons] at h
    cases first with
    | true =>
      rw [separated, List.append_assoc, List.append_assoc]
      exact .item (.first hpad) h.1 (ih h.2 false)
    | false =>
      have hitem := SpellsItems.item (.comma blank_nil hpad) h.1 (ih h.2 false)
      simpa only [separated, List.map_cons, List.nil_append, List.cons_append, List.append_assoc]
        using hitem

/-- Members whose values are each spelled make an object, whatever blanks are put in front of each
and behind its colon. -/
lemma spellsMembers_separated {tree : α → Tree} {ms : List (String × α)} {blank : List Char}
    (hpad : Blank pad) (hblank : Blank blank) (hw : Blank w)
    (h : ∀ m ∈ ms, Spells (text m.2) (tree m.2)) (first : Bool) :
    SpellsMembers first
      (separated (fun m => pad ++ (stringText m.1 ++ ':' :: (blank ++ text m.2))) first ms ++
        (w ++ ['\x7d']))
      (ms.map fun m => (m.1, tree m.2)) := by
  induction ms generalizing first with
  | nil => exact .close hw
  | cons m ms ih =>
    rw [List.forall_mem_cons] at h
    have hmember {first gap} (hgap : Gap first gap) := SpellsMembers.member hgap
      (quotes_stringText m.1) blank_nil hblank h.1 (ih h.2 false)
    cases first with
    | true =>
      simpa only [separated, List.map_cons, List.nil_append, List.cons_append, List.append_assoc]
        using hmember (.first hpad)
    | false =>
      simpa only [separated, List.map_cons, List.nil_append, List.cons_append, List.append_assoc]
        using hmember (.comma blank_nil hpad)

end Separated

lemma sizeOf_snd_lt {α : Type} [SizeOf α] {ms : List (String × α)} {m : String × α}
    (h : m ∈ ms) : sizeOf m.2 < 1 + sizeOf ms := by
  have hmem := List.sizeOf_lt_of_mem h
  have hpair : sizeOf m.2 < sizeOf m := by rw [Prod.mk.sizeOf_spec]; omega
  omega

/-- The value as it is written. -/
def Tree.ofValue : Value → Tree
  | .null => .null
  | .boolean b => .boolean b
  | .integer n => .number (integerText n)
  | .string s => .string s
  | .array vs => .array (vs.map ofValue)
  | .object ms => .object (ms.map fun m => (m.1, ofValue m.2))
decreasing_by
  · decreasing_tactic
  · rw [Value.object.sizeOf_spec]; exact sizeOf_snd_lt ‹_›

namespace Value

/-- What holds of a value once it holds of all values in it holds of every value. -/
@[elab_as_elim]
lemma induction_mem {motive : Value → Prop} (null : motive null)
    (boolean : ∀ b, motive (boolean b)) (integer : ∀ n, motive (integer n))
    (string : ∀ s, motive (string s)) (array : ∀ vs, (∀ v ∈ vs, motive v) → motive (array vs))
    (object : ∀ ms, (∀ m ∈ ms, motive m.2) → motive (object ms)) (v : Value) : motive v := by
  cases v with
  | null => exact null
  | boolean b => exact boolean b
  | integer n => exact integer n
  | string s => exact string s
  | array vs => exact array vs fun v _ => induction_mem null boolean integer string array object v
  | object ms =>
    exact object ms fun m _ => induction_mem null boolean integer string array object m.2
decreasing_by
  · decreasing_tactic
  · rw [Value.object.sizeOf_spec]; exact sizeOf_snd_lt ‹_›

/-- The text of a value without any blank spells it. -/
lemma spells_compact (v : Value) : Spells v.compact (.ofValue v) := by
  induction v using induction_mem with
  | null => rw [compact, Tree.ofValue]; exact .null
  | boolean b => rw [compact, Tree.ofValue]; exact .boolean b
  | integer n => rw [compact, Tree.ofValue]; exact .number (isNumber_integerText n)
  | string s => rw [compact, Tree.ofValue]; exact .string (quotes_stringText s)
  | array vs ih =>
    rw [compact, Tree.ofValue, compactItems_eq]
    exact .array (spellsItems_separated blank_nil blank_nil ih true)
  | object ms ih =>
    rw [compact, Tree.ofValue, compactMembers_eq]
    exact .object (spellsMembers_separated blank_nil blank_nil blank_nil ih true)

lemma prettyItems_eq (level : ℕ) (vs : List Value) :
    prettyItems level vs = separated (fun v => newLine level ++ prettyAt level v) true vs := by
  induction vs with
  | nil => rw [prettyItems, separated]
  | cons v vs ih =>
    cases vs with
    | nil => simp [prettyItems, separated]
    | cons w vs => simp [prettyItems, separated, ih]

lemma prettyMembers_eq (level : ℕ) (ms : List (String × Value)) :
    prettyMembers level ms = separated
      (fun m => newLine level ++ (stringText m.1 ++ ':' :: ([' '] ++ prettyAt level m.2)))
      true ms := by
  induction ms with
  | nil => rw [prettyMembers, separated]
  | cons m ms ih =>
    cases ms with
    | nil => simp [prettyMembers, separated]
    | cons m' ms => simp [prettyMembers, separated, ih]

/-- The text of a value with one item or member a line spells it. -/
lemma spells_prettyAt (level : ℕ) (v : Value) : Spells (prettyAt level v) (.ofValue v) := by
  induction v using induction_mem generalizing level with
  | null => rw [prettyAt, Tree.ofValue]; exact .null
  | boolean b => rw [prettyAt, Tree.ofValue]; exact .boolean b
  | integer n => rw [prettyAt, Tree.ofValue]; exact .number (isNumber_integerText n)
  | string s => rw [prettyAt, Tree.ofValue]; exact .string (quotes_stringText s)
  | array vs ih =>
    cases vs with
    | nil => rw [prettyAt, Tree.ofValue]; exact .array (.close blank_nil)
    | cons v vs =>
      have hitems := spellsItems_separated (blank_newLine (level + 1)) (blank_newLine level)
        (fun w hw => ih w hw (level + 1)) true
      rw [prettyAt, Tree.ofValue, prettyItems_eq, List.append_assoc, List.append_assoc]
      exact .array hitems
  | object ms ih =>
    cases ms with
    | nil => rw [prettyAt, Tree.ofValue]; exact .object (.close blank_nil)
    | cons m ms =>
      have hmembers := spellsMembers_separated (blank_newLine (level + 1)) (blank_replicate 1)
        (blank_newLine level) (fun w hw => ih w hw (level + 1)) true
      rw [prettyAt, Tree.ofValue, prettyMembers_eq, List.append_assoc, List.append_assoc]
      exact .object hmembers

end Value

namespace Tree

/-- A text that spells the value holds nothing else. -/
lemma Fills.of_spells {s : List Char} {v : Tree} (h : Spells s v) : v.Fills (String.ofList s) :=
  ⟨[], s, [], blank_nil, h, blank_nil, by simp⟩

end Tree

end FileBroker.Json
