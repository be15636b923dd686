/-
Texts as bytes.

* `Utf8.encode_ofList`: the bytes of a text are those of its characters, one after another.
* `Utf8.next_encoded`: the bytes of a character are read as that character.
* `Utf8.toString?_encode`, `Utf8.toStringLossy_encode`: a text is read back from its bytes.
* `Utf8.encode_no_control`: the bytes of control characters stand for those alone.
-/
import Mathlib.Tactic
import FileBroker.Text.Utf8

namespace FileBroker.Utf8

/-! ### The bytes of a text -/

lemma toList_loop (bytes : ByteArray) (i : ℕ) (done : List UInt8) :
    ByteArray.toList.loop bytes i done = done.reverse ++ bytes.data.toList.drop i := by
  fun_induction ByteArray.toList.loop bytes i done with
  | case1 i done hi ih =>
    have hl : i < bytes.data.toList.length := hi
    have hget : bytes.get! i = bytes.data.toList[i] := by
      rw [ByteArray.get!, Array.getElem_toList]
      exact getElem!_pos bytes.data i hi
    rw [ih, List.drop_eq_getElem_cons hl, hget, List.reverse_cons, List.append_assoc,
      List.singleton_append]
  | case2 i done hi =>
    rw [List.drop_eq_nil_of_le (Nat.le_of_not_lt hi), List.append_nil]

lemma encode_ofList (cs : List Char) :
    encode (String.ofList cs) = cs.flatMap String.utf8EncodeChar := by
  rw [encode, ByteArray.toList, toList_loop, List.reverse_nil, List.nil_append, List.drop_zero,
    String.toUTF8, String.toByteArray_ofList, List.utf8Encode, List.toList_data_toByteArray]

/-! ### One character at a time -/

lemma toNat_ofNat {n : ℕ} (hn : n < 256) : (UInt8.ofNat n).toNat = n := UInt8.toNat_ofNat_of_lt' hn

lemma between_ofNat {low high : UInt8} {n : ℕ} (hn : n < 256) :
    between low high (UInt8.ofNat n) = true ↔ low.toNat ≤ n ∧ n ≤ high.toNat := by
  rw [between, Bool.and_eq_true, decide_eq_true_eq, decide_eq_true_eq, UInt8.le_iff_toNat_le,
    UInt8.le_iff_toNat_le, toNat_ofNat hn]

/-- How a lead byte goes on, told by its number. -/
lemma lead?_ofNat {n : ℕ} (hn : n < 256) :
    lead? (UInt8.ofNat n) =
      if 0xC2 ≤ n ∧ n ≤ 0xDF then some (1, 0x80, 0xBF)
      else if n = 0xE0 then some (2, 0xA0, 0xBF)
      else if n = 0xED then some (2, 0x80, 0x9F)
      else if 0xE1 ≤ n ∧ n ≤ 0xEF then some (2, 0x80, 0xBF)
      else if n = 0xF0 then some (3, 0x90, 0xBF)
      else if 0xF1 ≤ n ∧ n ≤ 0xF3 then some (3, 0x80, 0xBF)
      else if n = 0xF4 then some (3, 0x80, 0x8F)
      else none := by
  simp only [lead?, between_ofNat hn, ← UInt8.toNat_inj, toNat_ofNat hn]
  rfl

lemma not_ascii {n : ℕ} (hn : n < 256) (hl : 0x80 ≤ n) : ¬ UInt8.ofNat n < 0x80 := by
  rw [UInt8.lt_iff_toNat_lt, toNat_ofNat hn]
  exact Nat.not_lt.mpr hl

lemma continues_ofNat (n : ℕ) : continues (UInt8.ofNat (n % 64 + 128)) = true :=
  (between_ofNat (by omega)).mpr ⟨Nat.le_add_left _ _, by simp; omega⟩

lemma next_two {v : ℕ} (hl : 0x7F < v) (hv : v ≤ 0x7FF) (rest : Bytes) :
    next (UInt8.ofNat (v / 64 % 32 + 192)) (UInt8.ofNat (v % 64 + 128) :: rest) =
      .character (Char.ofNat v) rest := by
  have hb : v / 64 % 32 + 192 < 256 := by omega
  have hb₁ : v % 64 + 128 < 256 := by omega
  have hlead : lead? (UInt8.ofNat (v / 64 % 32 + 192)) = some (1, 0x80, 0xBF) := by
    rw [lead?_ofNat hb, if_pos (by omega)]
  have h1 : between 0x80 0xBF (UInt8.ofNat (v % 64 + 128)) = true := continues_ofNat v
  have hvalue : (v / 64 % 32 + 192 - 0xC0) * 64 + (v % 64 + 128) % 64 = v := by omega
  simp only [next, if_neg (not_ascii hb (by omega)), hlead, h1, payload, toNat_ofNat hb,
    toNat_ofNat hb₁, hvalue]
  rfl

lemma next_three {v : ℕ} (hl : 0x7FF < v) (hv : v ≤ 0xFFFF) (hs : v < 0xD800 ∨ 0xDFFF < v)
    (rest : Bytes) :
    next (UInt8.ofNat (v / 4096 % 16 + 224))
        (UInt8.ofNat (v / 64 % 64 + 128) :: UInt8.ofNat (v % 64 + 128) :: rest) =
      .character (Char.ofNat v) rest := by
  have hb : v / 4096 % 16 + 224 < 256 := by omega
  have hb₁ : v / 64 % 64 + 128 < 256 := by omega
  have hb₂ : v % 64 + 128 < 256 := by omega
  obtain ⟨low, high, hlead, h1⟩ : ∃ low high,
      lead? (UInt8.ofNat (v / 4096 % 16 + 224)) = some (2, low, high) ∧
        between low high (UInt8.ofNat (v / 64 % 64 + 128)) = true := by
    simp only [lead?_ofNat hb, between_ofNat hb₁]
    split_ifs
    · omega
    · exact ⟨_, _, rfl, by simp; omega⟩
    · exact ⟨_, _, rfl, by simp; omega⟩
    · exact ⟨_, _, rfl, by simp; omega⟩
    all_goals omega
  have h2 := continues_ofNat v
  have hvalue : (v / 4096 % 16 + 224 - 0xE0) * 4096 + (v / 64 % 64 + 128) % 64 * 64 +
      (v % 64 + 128) % 64 = v := by omega
  simp only [next, if_neg (not_ascii hb (by omega)), hlead, h1, h2, payload, toNat_ofNat hb,
    toNat_ofNat hb₁, toNat_ofNat hb₂, hvalue]
  rfl

lemma next_four {v : ℕ} (hl : 0xFFFF < v) (hv : v < 0x110000) (rest : Bytes) :
    next (UInt8.ofNat (v / 262144 % 8 + 240))
        (UInt8.ofNat (v / 4096 % 64 + 128) :: UInt8.ofNat (v / 64 % 64 + 128) ::
          UInt8.ofNat (v % 64 + 128) :: rest) =
      .character (Char.ofNat v) rest := by
  have hb : v / 262144 % 8 + 240 < 256 := by omega
  have hb₁ : v / 4096 % 64 + 128 < 256 := by omega
  have hb₂ : v / 64 % 64 + 128 < 256 := by omega
  have hb₃ : v % 64 + 128 < 256 := by omega
  obtain ⟨low, high, hlead, h1⟩ : ∃ low high,
      lead? (UInt8.ofNat (v / 262144 % 8 + 240)) = some (3, low, high) ∧
        between low high (UInt8.ofNat (v / 4096 % 64 + 128)) = true := by
    simp only [lead?_ofNat hb, between_ofNat hb₁]
    split_ifs
    iterate 4 omega
    · exact ⟨_, _, rfl, by simp; omega⟩
    · exact ⟨_, _, rfl, by simp; omega⟩
    · exact ⟨_, _, rfl, by simp; omega⟩
    · omega
  have h2 := continues_ofNat (v / 64)
  have h3 := continues_ofNat v
  have hvalue : (v / 262144 % 8 + 240 - 0xF0) * 262144 + (v / 4096 % 64 + 128) % 64 * 4096 +
      (v / 64 % 64 + 128) % 64 * 64 + (v % 64 + 128) % 64 = v := by omega
  simp only [next, if_neg (not_ascii hb (by omega)), hlead, h1, h2, h3, payload, toNat_ofNat hb,
    toNat_ofNat hb₁, toNat_ofNat hb₂, toNat_ofNat hb₃, hvalue]
  rfl

/-- The bytes of a character, in front of any others, are read as that character. -/
lemma next_encoded (c : Char) (rest : Bytes) :
    ∃ b more, String.utf8EncodeChar c = b :: more ∧ next b (more ++ rest) = .character c rest := by
  have hc : Char.ofNat c.val.toNat = c := Char.ofNat_toNat c
  have hvalid : c.val.toNat < 0xD800 ∨ 0xDFFF < c.val.toNat ∧ c.val.toNat < 0x110000 := c.valid
  rw [String.utf8EncodeChar]
  generalize c.val.toNat = v at hc hvalid
  split_ifs with h1 h2 h3
  · refine ⟨_, _, rfl, ?_⟩
    have hb : v < 256 := by omega
    have hascii : UInt8.ofNat v < 0x80 := by
      rw [UInt8.lt_iff_toNat_lt, toNat_ofNat hb]
      exact Nat.lt_succ_of_le h1
    simp only [List.nil_append, next, if_pos hascii, toNat_ofNat hb, hc]
  · exact ⟨_, _, rfl, hc ▸ next_two (by omega) h2 rest⟩
  · exact ⟨_, _, rfl, hc ▸ next_three (by omega) h3 (by omega) rest⟩
  · exact ⟨_, _, rfl, hc ▸ next_four (by omega) (by omega) rest⟩

lemma decode?_of_next {b : UInt8} {rest rest' : Bytes} {c : Char}
    (h : next b rest = .character c rest') :
    decode? (b :: rest) = (decode? rest').map (c :: ·) := by
  rw [decode?]
  split
  · next c' rest'' h' =>
    obtain ⟨rfl, rfl⟩ := Head.character.inj (h.symm.trans h')
    rfl
  · next h' => simp [h] at h'

/-- **Texts are read back from their bytes.** -/
lemma toString?_encode (text : String) : toString? (encode text) = some text := by
  have hdecode (cs : List Char) : decode? (cs.flatMap String.utf8EncodeChar) = some cs := by
    induction cs with
    | nil => rw [List.flatMap_nil, decode?]
    | cons c cs ih =>
      obtain ⟨b, more, hbytes, hnext⟩ := next_encoded c (cs.flatMap String.utf8EncodeChar)
      rw [List.flatMap_cons, hbytes, List.cons_append, decode?_of_next hnext, ih, Option.map_some]
  rw [toString?, ← String.ofList_toList (s := text), encode_ofList, hdecode, Option.map_some]

/-- Where there are no invalid parts, nothing is replaced. -/
lemma decodeLossy_of_decode? {bytes : Bytes} {cs : List Char} (h : decode? bytes = some cs) :
    decodeLossy bytes = cs := by
  fun_induction decode? bytes generalizing cs with
  | case1 =>
    rw [← Option.some.inj h, decodeLossy]
  | case2 b rest c rest' hnext _ ih =>
    obtain ⟨cs', hrest, rfl⟩ := Option.map_eq_some_iff.mp h
    rw [decodeLossy]
    split
    · next hnext' =>
      obtain ⟨rfl, rfl⟩ := Head.character.inj (hnext.symm.trans hnext')
      rw [ih hrest]
    · next hnext' => simp [hnext] at hnext'
  | case3 => cases h

/-- Texts are read back from their bytes also where invalid parts would be replaced. -/
lemma toStringLossy_encode (text : String) : toStringLossy (encode text) = text := by
  obtain ⟨cs, hdecode, htext⟩ := Option.map_eq_some_iff.mp (toString?_encode text)
  rw [toStringLossy, decodeLossy_of_decode? hdecode, htext]

/-- A text without control characters has no bytes of any. -/
lemma encode_no_control {cs : List Char} (h : ∀ c ∈ cs, 0x20 ≤ c.toNat) {b : UInt8}
    (hb : b ∈ encode (String.ofList cs)) : 0x20 ≤ b.toNat := by
  rw [encode_ofList, List.mem_flatMap] at hb
  obtain ⟨c, hc, hb⟩ := hb
  have hlow : 0x20 ≤ c.val.toNat := h c hc
  rw [String.utf8EncodeChar] at hb
  generalize c.val.toNat = v at hlow hb
  split_ifs at hb
  · obtain rfl := List.mem_singleton.mp hb
    rwa [toNat_ofNat (by omega)]
  all_goals
    simp only [List.mem_cons, List.not_mem_nil, or_false] at hb
    rcases hb with rfl | rfl | rfl | rfl
    all_goals
      rw [toNat_ofNat (by omega)]
      omega

end FileBroker.Utf8
