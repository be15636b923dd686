/-
Words as sets of bits.

The masks of this library are words, and its tests on masks are equations between words. Here both
are read bit by bit, so that a statement about a mask can name the bits that it is about.

* `Word.bit`: one bit of a word.
* `Word.overlaps_iff`, `Word.within_iff`, `Word.includes_iff`: the three tests, bit by bit.
* `Word.single`, `Word.ofBits`: masks that are given by the places of their bits.
-/
import Mathlib.Tactic
import FileBroker.Bytes

namespace FileBroker.Word

/-- One bit of a word; there is none from place 32 on. -/
def bit (w : Word) (i : ℕ) : Bool := w.toBitVec.getLsbD i

lemma bit_of_le (w : Word) {i : ℕ} (hi : 32 ≤ i) : w.bit i = false :=
  BitVec.getLsbD_of_ge _ _ hi

lemma bit_and (v w : Word) (i : ℕ) : (v &&& w).bit i = (v.bit i && w.bit i) := by
  simp [bit]

lemma bit_or (v w : Word) (i : ℕ) : (v ||| w).bit i = (v.bit i || w.bit i) := by
  simp [bit]

lemma bit_xor (v w : Word) (i : ℕ) : (v ^^^ w).bit i = (v.bit i != w.bit i) := by
  simp [bit]

/-- Clearing the bits of a mask leaves the others. -/
lemma bit_without (w mask : Word) (i : ℕ) :
    (w.without mask).bit i = (w.bit i && !mask.bit i) := by
  by_cases hi : i < 32
  · simp [without, bit, hi]
  · rw [bit_of_le _ (by omega), bit_of_le w (by omega)]
    rfl

/-- Words with the same bits are equal. -/
lemma eq_of_bit {v w : Word} (h : ∀ i, v.bit i = w.bit i) : v = w :=
  Int32.toBitVec_inj.mp (BitVec.eq_of_getLsbD_eq fun i _ => h i)

lemma eq_zero_iff (w : Word) : w = 0 ↔ ∀ i, w.bit i = false := by
  constructor
  · rintro rfl i
    simp [bit]
  · intro h
    refine eq_of_bit fun i => ?_
    rw [h i]
    simp [bit]

lemma overlaps_iff (w mask : Word) :
    w.overlaps mask = true ↔ ∃ i, w.bit i = true ∧ mask.bit i = true := by
  rw [overlaps, bne_iff_ne, ne_eq, eq_zero_iff]
  simp only [bit_and]
  grind

lemma within_iff (w mask : Word) :
    w.within mask = true ↔ ∀ i, w.bit i = true → mask.bit i = true := by
  rw [within, beq_iff_eq, eq_zero_iff]
  simp only [bit_without]
  grind

lemma includes_iff (w mask : Word) :
    w.includes mask = true ↔ ∀ i, mask.bit i = true → w.bit i = true := by
  rw [includes, beq_iff_eq]
  constructor
  · intro h i hi
    rw [← h, bit_and] at hi
    exact (Bool.and_eq_true _ _ ▸ hi).1
  · intro h
    refine eq_of_bit fun i => ?_
    rw [bit_and]
    cases hi : mask.bit i with
    | false => rw [Bool.and_false]
    | true => rw [h i hi, Bool.and_self]

/-! ### Masks given by the places of their bits -/

/-- The word that has the bit at one place alone. -/
def single (i : ℕ) : Word := Int32.ofBitVec (BitVec.twoPow 32 i)

/-- The word whose bits stand at the given places. -/
def ofBits (places : List ℕ) : Word := places.foldr (fun i w => single i ||| w) 0

lemma bit_single (p i : ℕ) : (single p).bit i = decide (i < 32 ∧ i = p) := by
  rw [single, bit, Int32.toBitVec_ofBitVec, BitVec.getLsbD_twoPow]
  grind

lemma bit_ofBits (places : List ℕ) (i : ℕ) :
    (ofBits places).bit i = decide (i < 32 ∧ i ∈ places) := by
  induction places with
  | nil => simp [ofBits, bit]
  | cons p places ih =>
    rw [ofBits, List.foldr_cons, bit_or, bit_single, ← ofBits, ih]
    grind

/-- A word overlaps a mask of one bit if it has that bit. -/
lemma overlaps_single (w : Word) {mask : Word} {i : ℕ} (hi : i < 32) (hm : mask = single i) :
    w.overlaps mask = w.bit i := by
  subst hm
  rw [Bool.eq_iff_iff, overlaps_iff]
  simp only [bit_single, decide_eq_true_eq]
  grind

end FileBroker.Word
