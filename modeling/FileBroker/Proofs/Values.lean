/-
JSON values read back from their text.

The compact text of a value is one line, and whoever reads it as JSON gets the value again, whatever
the strings in it hold.

* `Json.Value.read`, `Json.Value.parse`: values from JSON text.
* `Json.Value.Fits`: values that are not nested too deep and hold integers of 64 bits only.
* `Json.string_written`, `Json.wholeNumber_written`: strings and integers are read back.
* `Json.Value.parse_compact`: a value that fits is read back from its text.
* `Json.Value.printable_compact`: the text of a value has no control character.
-/
import Mathlib.Tactic
import FileBroker.Json.Shape
import FileBroker.Json.Value

namespace FileBroker.Json

/-! ### Reading values -/

/-- The members of an object that is open, up to its closing brace. The bound on their number is
never reached when it is the length of the text. -/
def membersOf {α : Type} (value : Scan α) : ℕ → Bool → Scan (List (String × α))
  | 0, _, _ => .error .endOfText
  | bound + 1, first, s => do
    let (more, s) ← Layout.beforeMember first s
    if more then
      let (key, s) ← string s
      let (_, s) ← colon s
      let (a, s) ← value s
      let (members, s) ← membersOf value bound false s
      return ((key, a) :: members, s)
    else return ([], s.drop 1)

namespace Value

/-- The least integer that is read. -/
def least : ℤ := -0x8000000000000000

/-- The greatest integer that is read. -/
def greatest : ℤ := 0xFFFFFFFFFFFFFFFF

/-- Reading a value that is nested less than `depth` deep. A number with a fraction or an exponent
is no value here. -/
def read : ℕ → Scan Value
  | 0, _ => .error .malformed
  | depth + 1, s =>
    match skipBlank s with
    | [] => .error .endOfText
    | c :: rest =>
      if c = 'n' then (unit (c :: rest)).map fun (_, rest) => (null, rest)
      else if c = 't' || c = 'f' then
        (Json.boolean (c :: rest)).map fun (b, rest) => (boolean b, rest)
      else if c = '\x22' then (Json.string rest).map fun (s, rest) => (string s, rest)
      else if c = '[' then
        (itemsOf (read depth) (rest.length + 1) true rest).map fun (vs, rest) => (array vs, rest)
      else if c = '\x7b' then
        (membersOf (read depth) (rest.length + 1) true rest).map fun (ms, rest) => (object ms, rest)
      else
        (wholeNumber least greatest "an integer" (c :: rest)).map fun (n, rest) => (integer n, rest)

/-- The value that a text holds. -/
def parse (text : String) : Except Fault Value := document (read 128) text.toList

/-- The value is nested less than `depth` deep and holds integers of 64 bits only. -/
def Fits : ℕ → Value → Prop
  | 0, _ => False
  | _ + 1, integer n => least ≤ n ∧ n ≤ greatest
  | depth + 1, array items => ∀ v ∈ items, Fits depth v
  | depth + 1, object members => ∀ m ∈ members, Fits depth m.2
  | _ + 1, _ => True

end Value

/-! ### Strings -/

lemma hexUnit_low {n : ℕ} (hn : n < 0x20) (s : List Char) :
    hexUnit ('0' :: '0' :: Nat.digitChar (n / 16) :: Nat.digitChar (n % 16) :: s) = .ok (n, s) := by
  have hunit : ∀ n < 0x20,
      unit? '0' '0' (Nat.digitChar (n / 16)) (Nat.digitChar (n % 16)) = some n := by decide
  rw [hexUnit, hunit n hn]

lemma numbered_low {n : ℕ} (hn : n < 0x20) (s : List Char) :
    numbered ('0' :: '0' :: Nat.digitChar (n / 16) :: Nat.digitChar (n % 16) :: s) =
      .ok (Char.ofNat n, s) := by
  have htrailing : isTrailing n = false := by simp [isTrailing]; omega
  have hleading : isLeading n = false := by simp [isLeading]; omega
  simp [numbered, hexUnit_low hn, htrailing, hleading]

lemma characters_escape {s rest : List Char} {d : Char} (h : escape s = .ok (d, rest)) :
    characters ('\\' :: s) = (characters rest).map fun (ds, rest') => (d :: ds, rest') := by
  rw [characters, if_neg (by decide), if_pos rfl]
  split
  · next h' => simp [h] at h'
  · next d' rest' h' =>
    obtain ⟨rfl, rfl⟩ : d = d' ∧ rest = rest' := by simpa [h] using h'
    rfl

/-- A written character is read back. -/
lemma characters_escaped (c : Char) (s : List Char) :
    characters (escaped c ++ s) = (characters s).map fun (cs, rest) => (c :: cs, rest) := by
  unfold escaped
  -- marks and backslashes, the five controls that have a letter, other controls, all the rest
  split_ifs with mark backslash h h h h h low
  · exact characters_escape (by rw [mark]; rfl)
  · exact characters_escape (by rw [backslash]; rfl)
  iterate 5
    · exact characters_escape (by rw [h]; rfl)
  · refine characters_escape ((numbered_low low s).trans ?_)
    rw [Char.ofNat_toNat]
  · rw [List.singleton_append, characters, if_neg mark, if_neg backslash, if_neg low]

lemma string_escaped (text : String) (s : List Char) :
    string (text.toList.flatMap escaped ++ '\x22' :: s) = .ok (text, s) := by
  have hchars (cs : List Char) : characters (cs.flatMap escaped ++ '\x22' :: s) = .ok (cs, s) := by
    induction cs with
    | nil => rw [List.flatMap_nil, List.nil_append, characters, if_pos rfl]
    | cons c cs ih => rw [List.flatMap_cons, List.append_assoc, characters_escaped, ih]; rfl
  rw [string, hchars]
  simp [Except.map]

/-! ### Integers -/

/-- Nothing follows that could go on with a number: the text is over, or its next character stands
between values or behind the last of them. -/
def Ends (s : List Char) : Prop := ∀ c ∈ s.head?, c = ',' ∨ c = ']' ∨ c = '\x7d'

lemma ends_nil : Ends [] := by simp [Ends]

lemma ends_cons {c : Char} {s : List Char} : Ends (c :: s) ↔ c = ',' ∨ c = ']' ∨ c = '\x7d' := by
  simp [Ends]

lemma Ends.not_digit {c : Char} {s : List Char} (h : Ends (c :: s)) : isDigit c = false := by
  obtain rfl | rfl | rfl := ends_cons.mp h <;> rfl

/-- The digits in front of such a text are those that were put there. -/
lemma Ends.digits {s : List Char} (h : Ends s) {digits : List Char}
    (hd : ∀ d ∈ digits, isDigit d = true) :
    (digits ++ s).takeWhile isDigit = digits ∧ (digits ++ s).dropWhile isDigit = s := by
  rw [List.takeWhile_append_of_pos hd, List.dropWhile_append_of_pos hd]
  cases s with
  | nil => simp
  | cons c s => simp [h.not_digit]

lemma afterInteger_end {s : List Char} (h : Ends s) (negative : Bool) (n : ℕ) :
    afterInteger negative n 0 s = .ok (integer negative n, s) := by
  cases s with
  | nil => rfl
  | cons c s => obtain rfl | rfl | rfl := ends_cons.mp h <;> rfl

lemma isDigit_eq (c : Char) : isDigit c = c.isDigit := by
  rw [isDigit, Char.isDigit, Bool.eq_iff_iff]
  simp only [Bool.and_eq_true, decide_eq_true_eq]
  rfl

lemma isDigit_of_mem {n : ℕ} {c : Char} (h : c ∈ Nat.toDigits 10 n) : isDigit c = true :=
  (isDigit_eq c).trans (Nat.isDigit_of_mem_toDigits (by decide) (by decide) h)

/-- Only zero is written with a zero in front. -/
lemma toDigits_head (n : ℕ) :
    ∃ c cs, Nat.toDigits 10 n = c :: cs ∧ isDigit c = true ∧ (c = '0' → n = 0) := by
  induction n using Nat.strong_induction_on with
  | _ n ih =>
    by_cases hlow : n < 10
    · refine ⟨n.digitChar, [], Nat.toDigits_of_lt_base hlow, ?_⟩
      interval_cases n <;> decide
    · obtain ⟨c, cs, hcs, hdigit, hzero⟩ := ih (n / 10) (by omega)
      refine ⟨c, cs ++ [(n % 10).digitChar], ?_, hdigit, fun h => ?_⟩
      · rw [Nat.toDigits_of_base_le (by decide) (by omega), hcs, List.cons_append]
      · have := hzero h
        omega

/-- Digits whose number is not too large are taken in, all of them. -/
lemma absorb_all {digits : List Char} {n : ℕ} (h : Nat.ofDigitChars 10 digits n ≤ maxSignificand) :
    absorb n digits = (Nat.ofDigitChars 10 digits n, digits.length) := by
  induction digits generalizing n with
  | nil => rfl
  | cons c digits ih =>
    rw [Nat.ofDigitChars_cons] at h ⊢
    have hnext : n * 10 + digitValue c = 10 * n + (c.toNat - '0'.toNat) := by
      rw [Nat.mul_comm]; rfl
    have hle : 10 * n + (c.toNat - '0'.toNat) ≤ maxSignificand := by
      refine le_trans ?_ h
      rw [Nat.ofDigitChars_eq_ofDigitChars_zero]
      exact Nat.le_add_right_of_le (Nat.le_mul_of_pos_left _ (by positivity))
    simp only [absorb, hnext, if_pos hle, ih h, List.length_cons]

/-- The digits of a number are read as that number. -/
lemma number_written {n : ℕ} (hn : n ≤ maxSignificand) {s : List Char} (hs : Ends s)
    (negative : Bool) :
    number negative (Nat.toDigits 10 n ++ s) = .ok (integer negative n, s) := by
  rcases Nat.eq_zero_or_pos n with rfl | hpos
  · cases s with
    | nil => exact afterInteger_end hs negative 0
    | cons c s => exact (if_neg (by simp [hs.not_digit])).trans (afterInteger_end hs negative 0)
  · obtain ⟨c, cs, hcs, hdigit, hzero⟩ := toDigits_head n
    have hc : c ≠ '0' := fun h => hpos.ne' (hzero h)
    have hdigits : ∀ d ∈ Nat.toDigits 10 n, isDigit d = true := fun d => isDigit_of_mem
    obtain ⟨htake, hdrop⟩ := hs.digits hdigits
    have habsorb : absorb 0 (Nat.toDigits 10 n) = (n, (Nat.toDigits 10 n).length) := by
      rw [absorb_all (by rwa [Nat.ofDigitChars_ten_toDigits]), Nat.ofDigitChars_ten_toDigits]
    rw [hcs, List.cons_append] at htake hdrop ⊢
    rw [hcs] at habsorb
    simp only [number, if_neg hc, hdigit, htake, hdrop, habsorb, Nat.sub_self]
    exact afterInteger_end hs negative n

lemma skipBlank_of {c : Char} (h : isBlank c = false) (s : List Char) :
    skipBlank (c :: s) = c :: s := by
  rw [skipBlank, List.dropWhile_cons_of_neg (by simp [h])]

lemma ne_of_test {test : Char → Bool} {c d : Char} (hc : test c = true) (hd : test d = false) :
    c ≠ d := by
  rintro rfl
  exact absurd (hd.symm.trans hc) (by decide)

/-- The character begins an integer. -/
def leads (c : Char) : Bool := c = '-' || isDigit c

lemma isBlank_of_leads {c : Char} (hc : leads c = true) : isBlank c = false := by
  have h (d : Char) (hd : leads d = false) : decide (c = d) = false :=
    decide_eq_false (ne_of_test hc hd)
  rw [isBlank, h ' ' rfl, h '\t' rfl, h '\n' rfl, h '\r' rfl]
  rfl

lemma integerText_head (n : ℤ) : ∃ c cs, integerText n = c :: cs ∧ leads c = true := by
  rw [integerText]
  split_ifs
  · exact ⟨'-', _, rfl, rfl⟩
  · obtain ⟨c, cs, hcs, hdigit, -⟩ := toDigits_head n.natAbs
    exact ⟨c, cs, hcs, by rw [leads, hdigit, Bool.or_true]⟩

lemma integer_natAbs {n : ℤ} (h : Value.least ≤ n) :
    integer (decide (n < 0)) n.natAbs = .integer n := by
  rw [Value.least] at h
  rw [integer]
  split_ifs with hneg hhuge
  · simp only [Bool.not_eq_true', decide_eq_false_iff_not] at hneg
    rw [Int.natAbs_of_nonneg (by omega)]
  · simp only [Bool.or_eq_true, decide_eq_true_eq, Bool.not_eq_true', decide_eq_false_iff_not]
      at hneg hhuge
    omega
  · simp only [Bool.not_eq_true', decide_eq_false_iff_not] at hneg
    rw [show -(n.natAbs : ℤ) = n by omega]

/-- An integer between the bounds is read from its digits. -/
lemma wholeNumber_written {n : ℤ} (hl : Value.least ≤ n) (hg : n ≤ Value.greatest)
    (expected : String) {s : List Char} (hs : Ends s) :
    wholeNumber Value.least Value.greatest expected (integerText n ++ s) = .ok (n, s) := by
  have hnumber : number (decide (n < 0)) (Nat.toDigits 10 n.natAbs ++ s) = .ok (.integer n, s) := by
    rw [number_written ?_ hs, integer_natAbs hl]
    rw [Value.least] at hl
    rw [Value.greatest] at hg
    rw [maxSignificand]
    omega
  have hbounded : bounded Value.least Value.greatest expected (.ok (.integer n, s)) = .ok (n, s) :=
    if_pos (by simp [hl, hg])
  rw [integerText]
  split_ifs with hneg
  · rw [decide_eq_true hneg] at hnumber
    rw [List.cons_append, wholeNumber, skipBlank_of rfl]
    exact (if_pos rfl).trans (hnumber ▸ hbounded)
  · obtain ⟨c, cs, hcs, hdigit, -⟩ := toDigits_head n.natAbs
    have hminus : c ≠ '-' := ne_of_test hdigit rfl
    rw [decide_eq_false hneg, hcs, List.cons_append] at hnumber
    have hblank : isBlank c = false := isBlank_of_leads (by rw [leads, hdigit, Bool.or_true])
    rw [hcs, List.cons_append, wholeNumber, skipBlank_of hblank]
    simp only [if_neg hminus, if_pos hdigit, hnumber, hbounded]

/-! ### Arrays and objects -/

/-- A text begins with a character that is no blank and does not close an array. -/
def Starts (s : List Char) : Prop := ∃ c cs, s = c :: cs ∧ isBlank c = false ∧ c ≠ ']'

lemma Starts.append {s : List Char} (h : Starts s) (rest : List Char) : Starts (s ++ rest) := by
  obtain ⟨c, cs, rfl, hc⟩ := h
  exact ⟨c, cs ++ rest, rfl, hc⟩

section Separated

variable {α : Type} (text : α → List Char)

/-- Texts with a comma in front of each; the first may go without. -/
def separated : Bool → List α → List Char
  | _, [] => []
  | true, a :: as => text a ++ separated false as
  | false, a :: as => ',' :: (text a ++ separated false as)

/-- There are as many texts as commas, but for one. -/
lemma length_le_separated (first : Bool) (as : List α) :
    as.length ≤ (separated text first as).length + first.toNat := by
  induction as generalizing first with
  | nil => exact Nat.zero_le _
  | cons a as ih =>
    have hrest : as.length ≤ (separated text false as).length := ih false
    cases first
    all_goals
      simp only [separated, List.length_cons, List.length_append, Bool.toNat_true, Bool.toNat_false]
      omega

/-- The length of the text is a bound on the number of items. -/
lemma length_lt_bound (as : List α) (c : Char) (s : List Char) :
    as.length < (separated text true as ++ c :: s).length + 1 := by
  have := length_le_separated text true as
  rw [Bool.toNat_true] at this
  rw [List.length_append, List.length_cons]
  omega

lemma ends_separated {c : Char} (hc : c = ']' ∨ c = '\x7d') (as : List α) (s : List Char) :
    Ends (separated text false as ++ c :: s) := by
  cases as with
  | nil => exact ends_cons.mpr (.inr hc)
  | cons a as => exact ends_cons.mpr (.inl rfl)

end Separated

lemma beforeItem_written {s : List Char} (h : Starts s) :
    beforeItem true s = .ok (true, s) ∧ beforeItem false (',' :: s) = .ok (true, s) := by
  obtain ⟨c, cs, rfl, hblank, hclose⟩ := h
  have hcomma : skipBlank (',' :: c :: cs) = ',' :: c :: cs := skipBlank_of rfl _
  simp [beforeItem, hcomma, skipBlank_of hblank, hclose]

/-- Items that are each read back from their text are read back from an array of those texts. -/
lemma itemsOf_separated {α : Type} {text : α → List Char} {item : Scan α} {as : List α}
    (hstart : ∀ a ∈ as, Starts (text a))
    (hitem : ∀ a ∈ as, ∀ s, Ends s → item (text a ++ s) = .ok (a, s)) {bound : ℕ}
    (hb : as.length < bound) (first : Bool) (s : List Char) :
    itemsOf item bound first (separated text first as ++ ']' :: s) = .ok (as, s) := by
  induction as generalizing bound first with
  | nil =>
    obtain ⟨bound, rfl⟩ := Nat.exists_eq_add_one_of_ne_zero (Nat.ne_zero_of_lt hb)
    cases first <;> rfl
  | cons a as ih =>
    obtain ⟨bound, rfl⟩ := Nat.exists_eq_add_one_of_ne_zero (Nat.ne_zero_of_lt hb)
    rw [List.forall_mem_cons] at hstart hitem
    obtain ⟨hfirst, hcomma⟩ :=
      beforeItem_written (hstart.1.append (separated text false as ++ ']' :: s))
    have hread := hitem.1 _ (ends_separated text (.inl rfl) as s)
    have hrest := ih hstart.2 hitem.2 (Nat.lt_of_succ_lt_succ hb) false
    cases first with
    | true =>
      rw [separated, List.append_assoc]
      simp only [itemsOf, hfirst, hread, hrest, Except.map]
    | false =>
      rw [separated, List.cons_append, List.append_assoc]
      simp only [itemsOf, hcomma, hread, hrest, Except.map]

/-- The text of a member of an object. -/
def memberText (m : String × Value) : List Char := stringText m.1 ++ ':' :: m.2.compact

/-- A string begins with its mark and is read up to the closing one. -/
lemma string_written (key : String) (s : List Char) :
    ∃ rest, stringText key ++ s = '\x22' :: rest ∧ string rest = .ok (key, s) := by
  refine ⟨key.toList.flatMap escaped ++ '\x22' :: s, ?_, string_escaped key s⟩
  rw [stringText, List.append_assoc, List.append_assoc, List.singleton_append,
    List.singleton_append]

/-- Members whose values are each read back from their text are read back from an object. -/
lemma membersOf_separated {value : Scan Value} {ms : List (String × Value)}
    (hvalue : ∀ m ∈ ms, ∀ s, Ends s → value (m.2.compact ++ s) = .ok (m.2, s)) {bound : ℕ}
    (hb : ms.length < bound) (first : Bool) (s : List Char) :
    membersOf value bound first (separated memberText first ms ++ '\x7d' :: s) = .ok (ms, s) := by
  induction ms generalizing bound first with
  | nil =>
    obtain ⟨bound, rfl⟩ := Nat.exists_eq_add_one_of_ne_zero (Nat.ne_zero_of_lt hb)
    cases first <;> rfl
  | cons m ms ih =>
    obtain ⟨bound, rfl⟩ := Nat.exists_eq_add_one_of_ne_zero (Nat.ne_zero_of_lt hb)
    rw [List.forall_mem_cons] at hvalue
    obtain ⟨key, hkey, hstring⟩ := string_written m.1
      (':' :: (m.2.compact ++ (separated memberText false ms ++ '\x7d' :: s)))
    have hcolon (s : List Char) : colon (':' :: s) = .ok ((), s) := rfl
    have hread := hvalue.1 _ (ends_separated memberText (.inr rfl) ms s)
    have hrest := ih hvalue.2 (Nat.lt_of_succ_lt_succ hb) false
    cases first with
    | true =>
      have hbefore : Layout.beforeMember true ('\x22' :: key) = .ok (true, key) := rfl
      rw [separated, memberText, List.append_assoc, List.append_assoc, List.cons_append, hkey]
      simp only [membersOf, hbefore, hstring, hcolon, hread, hrest, bind, Except.bind, pure,
        Except.pure, if_true]
    | false =>
      have hbefore : Layout.beforeMember false (',' :: '\x22' :: key) = .ok (true, key) := rfl
      rw [separated, List.cons_append, memberText, List.append_assoc, List.append_assoc,
        List.cons_append, hkey]
      simp only [membersOf, hbefore, hstring, hcolon, hread, hrest, bind, Except.bind, pure,
        Except.pure, if_true]

namespace Value

lemma compactItems_eq (vs : List Value) : compactItems vs = separated compact true vs := by
  induction vs with
  | nil => rw [compactItems, separated]
  | cons v vs ih =>
    cases vs with
    | nil => simp [compactItems, separated]
    | cons w vs => simp [compactItems, separated, ih]

lemma compactMembers_eq (ms : List (String × Value)) :
    compactMembers ms = separated memberText true ms := by
  induction ms with
  | nil => rw [compactMembers, separated]
  | cons m ms ih =>
    cases ms with
    | nil => simp [compactMembers, separated, memberText]
    | cons m' ms => simp [compactMembers, separated, memberText, ih]

lemma starts_compact (v : Value) : Starts v.compact := by
  cases v with
  | null => rw [compact]; exact ⟨'n', _, rfl, by decide⟩
  | boolean b =>
    rw [compact]
    cases b with
    | true => exact ⟨'t', _, rfl, by decide⟩
    | false => exact ⟨'f', _, rfl, by decide⟩
  | integer n =>
    obtain ⟨c, cs, hcs, hc⟩ := integerText_head n
    rw [compact]
    exact ⟨c, cs, hcs, isBlank_of_leads hc, ne_of_test hc rfl⟩
  | string s => rw [compact]; exact ⟨'\x22', _, rfl, by decide⟩
  | array vs => rw [compact]; exact ⟨'[', _, rfl, by decide⟩
  | object ms => rw [compact]; exact ⟨'\x7b', _, rfl, by decide⟩

lemma read_of_leads {c : Char} (hc : leads c = true) (depth : ℕ) (s : List Char) :
    read (depth + 1) (c :: s) = (wholeNumber least greatest "an integer" (c :: s)).map
      fun (n, rest) => (integer n, rest) := by
  have hn : c ≠ 'n' := ne_of_test hc rfl
  have ht : c ≠ 't' := ne_of_test hc rfl
  have hf : c ≠ 'f' := ne_of_test hc rfl
  have hmark : c ≠ '\x22' := ne_of_test hc rfl
  have hbracket : c ≠ '[' := ne_of_test hc rfl
  have hbrace : c ≠ '\x7b' := ne_of_test hc rfl
  rw [read, skipBlank_of (isBlank_of_leads hc)]
  simp [hn, ht, hf, hmark, hbracket, hbrace]

/-- **Values are read back from their text.** -/
lemma read_compact {depth : ℕ} {v : Value} (hv : Fits depth v) {s : List Char} (hs : Ends s) :
    read depth (v.compact ++ s) = .ok (v, s) := by
  -- on the depth: the values in an array are reached only through the list that it holds
  induction depth generalizing v s with
  | zero => exact hv.elim
  | succ depth ih =>
    cases v with
    | null => rw [compact]; rfl
    | boolean b => rw [compact]; cases b <;> rfl
    | integer n =>
      have hread := wholeNumber_written hv.1 hv.2 "an integer" hs
      obtain ⟨c, cs, hcs, hc⟩ := integerText_head n
      rw [hcs, List.cons_append] at hread
      rw [compact, hcs, List.cons_append, read_of_leads hc, hread]
      rfl
    | string text =>
      obtain ⟨rest, htext, hstring⟩ := string_written text s
      rw [compact, htext, read, skipBlank_of rfl]
      exact congrArg (Except.map fun r => (string r.1, r.2)) hstring
    | array vs =>
      have hitems := itemsOf_separated (fun w _ => starts_compact w)
        (fun w hw s hs => ih (hv w hw) hs) (length_lt_bound compact vs ']' s) true s
      rw [compact, compactItems_eq, List.append_assoc, List.append_assoc, List.singleton_append,
        List.singleton_append, read, skipBlank_of rfl]
      exact congrArg (Except.map fun r => (array r.1, r.2)) hitems
    | object ms =>
      have hmembers := membersOf_separated (fun m hm s hs => ih (hv m hm) hs)
        (length_lt_bound memberText ms '\x7d' s) true s
      rw [compact, compactMembers_eq, List.append_assoc, List.append_assoc, List.singleton_append,
        List.singleton_append, read, skipBlank_of rfl]
      exact congrArg (Except.map fun r => (object r.1, r.2)) hmembers

end Value

/-! ### No control characters -/

/-- The text has no control character. -/
def Printable (s : List Char) : Prop := ∀ c ∈ s, 0x20 ≤ c.toNat

instance (s : List Char) : Decidable (Printable s) :=
  List.decidableBAll (fun c : Char => 0x20 ≤ c.toNat) s

lemma printable_append {s s' : List Char} : Printable (s ++ s') ↔ Printable s ∧ Printable s' :=
  List.forall_mem_append

lemma printable_cons {c : Char} {s : List Char} :
    Printable (c :: s) ↔ 0x20 ≤ c.toNat ∧ Printable s := List.forall_mem_cons

lemma printable_escaped (c : Char) : Printable (escaped c) := by
  have hdigits : ∀ n < 0x20,
      0x20 ≤ (Nat.digitChar (n / 16)).toNat ∧ 0x20 ≤ (Nat.digitChar (n % 16)).toNat := by decide
  unfold escaped
  split_ifs with mark backslash h h h h h low
  iterate 7
    · decide
  · obtain ⟨hhigh, hlow⟩ := hdigits _ low
    have hcode : Printable ['\\', 'u', '0', '0'] := by decide
    have hunit := printable_cons.mpr ⟨hhigh, List.forall_mem_singleton.mpr hlow⟩
    exact printable_append.mpr ⟨hcode, hunit⟩
  · exact List.forall_mem_singleton.mpr (Nat.le_of_not_lt low)

lemma printable_stringText (text : String) : Printable (stringText text) := by
  rw [stringText, printable_append, printable_append]
  refine ⟨⟨?_, ?_⟩, ?_⟩
  · decide
  · intro d hd
    obtain ⟨c, -, hc⟩ := List.mem_flatMap.mp hd
    exact printable_escaped c d hc
  · decide

lemma printable_integerText (n : ℤ) : Printable (integerText n) := by
  have hdigits : Printable (Nat.toDigits 10 n.natAbs) := by
    intro c hc
    have hdigit := isDigit_of_mem hc
    simp only [isDigit, Bool.and_eq_true, decide_eq_true_eq] at hdigit
    exact le_trans (by decide) hdigit.1
  rw [integerText]
  split_ifs
  · exact printable_cons.mpr ⟨by decide, hdigits⟩
  · exact hdigits

lemma printable_separated {α : Type} {text : α → List Char} {as : List α}
    (h : ∀ a ∈ as, Printable (text a)) (first : Bool) : Printable (separated text first as) := by
  induction as generalizing first with
  | nil => exact List.forall_mem_nil _
  | cons a as ih =>
    rw [List.forall_mem_cons] at h
    have hrest := printable_append.mpr ⟨h.1, ih h.2 false⟩
    cases first with
    | true => exact hrest
    | false => exact printable_cons.mpr ⟨by decide, hrest⟩

namespace Value

/-- **The text of a value has no control character**, whatever the strings in it hold. -/
lemma printable_compact {depth : ℕ} {v : Value} (h : Fits depth v) :
    Printable v.compact := by
  induction depth generalizing v with
  | zero => exact h.elim
  | succ depth ih =>
    cases v with
    | null => rw [compact]; decide
    | boolean b => rw [compact]; cases b <;> decide
    | integer n => rw [compact]; exact printable_integerText n
    | string text => rw [compact]; exact printable_stringText text
    | array vs =>
      rw [compact, compactItems_eq, printable_append, printable_append]
      exact ⟨⟨by decide, printable_separated (fun v hv => ih (h v hv)) true⟩, by decide⟩
    | object ms =>
      have hmember (m : String × Value) (hm : m ∈ ms) : Printable (memberText m) :=
        printable_append.mpr ⟨printable_stringText m.1, printable_cons.mpr ⟨by decide, ih (h m hm)⟩⟩
      rw [compact, compactMembers_eq, printable_append, printable_append]
      exact ⟨⟨by decide, printable_separated hmember true⟩, by decide⟩

/-- A value that is not nested too deep is parsed from its text. -/
lemma parse_compact {v : Value} (h : Fits 128 v) :
    parse (String.ofList v.compact) = .ok v := by
  have hread := read_compact h ends_nil
  rw [List.append_nil] at hread
  rw [parse, String.toList_ofList, document, hread]
  rfl

end Value

end FileBroker.Json
