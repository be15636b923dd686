/-
Rights, and the bits of modes and flags.

Which rights an access class has is a table, and which rights a request needs is told by single
bits of its mode or its flags. The tests of the gate, which are made with masks and by exclusion,
are read here in these terms.

* `Right`, `AccessClass.rights`: the rights of the seven access classes.
* `AccessMode.within_known_iff`: what the modes are that a rule may grant.
* `OpenFlags.accessMode`, `OpenFlags.neededRights`: the number in the two lowest bits of some flags,
  and the rights that it needs.
* `OpenFlags.knownBits`, `OpenFlags.within_known_iff`: the bits that a policy understands.
-/
import FileBroker.Access
import FileBroker.OpenFlags
import FileBroker.Proofs.Words

namespace FileBroker

/-! ### The rights of the access classes -/

/-- What may be done with a file. -/
inductive Right where
  | read
  | write
  | create
  deriving DecidableEq

/-- The table of the access classes and their rights. -/
def AccessClass.rights : AccessClass → List Right
  | readOnly => [.read]
  | readOnlyRecursive => [.read]
  | writeOnly => [.write]
  | readWrite => [.read, .write]
  | readWriteCreate => [.read, .write, .create]
  | readWriteCreateRecursive => [.read, .write, .create]
  | readWriteCreateTemporary => [.read, .write, .create]

namespace AccessClass

lemma reads_iff (c : AccessClass) : c.reads = true ↔ .read ∈ c.rights := by
  cases c <;> decide

lemma writes_iff (c : AccessClass) : c.writes = true ↔ .write ∈ c.rights := by
  cases c <;> decide

lemma creates_iff (c : AccessClass) : c.creates = true ↔ .create ∈ c.rights := by
  cases c <;> decide

/-- Every class lets something be done with an existing file. -/
lemma reads_or_writes (c : AccessClass) : (c.reads || c.writes) = true := by
  cases c <;> rfl

end AccessClass

/-! ### Modes and flags, bit by bit -/

namespace AccessMode

/-- The place of the bit that asks for writing. -/
def writeBit : ℕ := 1

/-- The place of the bit that asks for reading. -/
def readBit : ℕ := 2

lemma overlaps_write (mode : Word) : mode.overlaps write = mode.bit writeBit :=
  Word.overlaps_single mode (by decide) (by decide)

lemma overlaps_read (mode : Word) : mode.overlaps read = mode.bit readBit :=
  Word.overlaps_single mode (by decide) (by decide)

lemma overlaps_execute (mode : Word) : mode.overlaps execute = mode.bit 0 :=
  Word.overlaps_single mode (by decide) (by decide)

/-- Known bits without execution are reading and writing. -/
lemma within_known_iff (mode : Word) :
    (mode.within known = true ∧ mode.overlaps execute = false) ↔
      ∀ i, mode.bit i = true → i = writeBit ∨ i = readBit := by
  have hk : known = Word.ofBits [0, 1, 2] := by decide
  rw [Word.within_iff, overlaps_execute, hk]
  simp only [Word.bit_ofBits, decide_eq_true_eq, writeBit, readBit]
  grind

/-- The mode without bits has none of them. -/
lemma bit_existence (i : ℕ) : existence.bit i = false := (Word.eq_zero_iff existence).mp rfl i

end AccessMode

namespace OpenFlags

/-- The place of the bit that asks for a file to be created. -/
def createBit : ℕ := 6

/-- The place of the bit that asks for the file not to exist. -/
def exclusiveBit : ℕ := 7

/-- The place of the bit that asks for the file to be cut to length zero. -/
def truncateBit : ℕ := 9

/-- The place of the bit that concerns the calling process alone. -/
def closeOnExecBit : ℕ := 19

/-- The places of the bits that a policy understands. -/
def knownBits : List ℕ := [0, 1, 6, 7, 8, 9, 10, 11, 12, 13, 14, 16, 17, 18, 19, 20]

/-- The number that the two lowest bits spell: `0` to read, `1` to write, `2` for both. -/
def accessMode (flags : Word) : ℕ := flags.toBitVec.toNat % 4

/-- The rights that an access mode needs. -/
def neededRights : ℕ → List Right
  | 0 => [.read]
  | 1 => [.write]
  | _ => [.read, .write]

lemma bit_closeOnExec (i : ℕ) : closeOnExec.bit i = decide (i = closeOnExecBit) := by
  have hc : closeOnExec = Word.single closeOnExecBit := by decide
  rw [hc, Word.bit_single, closeOnExecBit]
  grind

lemma bit_onWire (flags : Word) (i : ℕ) :
    (onWire flags).bit i = (flags.bit i && decide (i ≠ closeOnExecBit)) := by
  rw [onWire, Word.bit_without, bit_closeOnExec, decide_not]

lemma overlaps_create (flags : Word) : flags.overlaps create = flags.bit createBit :=
  Word.overlaps_single flags (by decide) (by decide)

lemma overlaps_truncate (flags : Word) : flags.overlaps truncate = flags.bit truncateBit :=
  Word.overlaps_single flags (by decide) (by decide)

lemma overlaps_closeOnExec (flags : Word) :
    flags.overlaps closeOnExec = flags.bit closeOnExecBit :=
  Word.overlaps_single flags (by decide) (by decide)

lemma includes_exclusiveCreate_iff (flags : Word) :
    flags.includes exclusiveCreate = true ↔
      flags.bit createBit = true ∧ flags.bit exclusiveBit = true := by
  have he : exclusiveCreate = Word.ofBits [createBit, exclusiveBit] := by decide
  rw [Word.includes_iff, he]
  simp only [Word.bit_ofBits, decide_eq_true_eq, createBit, exclusiveBit]
  grind

lemma within_known_iff (flags : Word) :
    flags.within known = true ↔ ∀ i, flags.bit i = true → i ∈ knownBits := by
  have hk : known = Word.ofBits knownBits := by decide
  rw [Word.within_iff, hk]
  simp only [Word.bit_ofBits, decide_eq_true_eq]
  refine ⟨fun h i hi => (h i hi).2, fun h i hi => ⟨?_, h i hi⟩⟩
  by_contra hle
  rw [Word.bit_of_le _ (by omega)] at hi
  simp at hi

/-- The access mode is what the direction bits leave of the flags. -/
lemma accessMode_eq (flags : Word) :
    accessMode flags = (flags &&& directionMask).toBitVec.toNat := by
  have hm : directionMask.toBitVec.toNat = 2 ^ 2 - 1 := by decide
  rw [Int32.toBitVec_and, BitVec.toNat_and, hm, Nat.and_two_pow_sub_one_eq_mod]
  rfl

lemma accessMode_onWire (flags : Word) : accessMode (onWire flags) = accessMode flags := by
  rw [accessMode_eq, accessMode_eq]
  congr 2
  refine Word.eq_of_bit fun i => ?_
  have hm : directionMask = Word.ofBits [0, 1] := by decide
  rw [Word.bit_and, Word.bit_and, bit_onWire, hm, Word.bit_ofBits, closeOnExecBit]
  grind

/-- The direction of a descriptor, by the access mode. -/
lemma direction?_eq (flags : Word) :
    direction? flags =
      match accessMode flags with
      | 0 => some .reading
      | 1 => some .writing
      | 2 => some .both
      | _ => none := by
  have h (w : Word) : flags &&& directionMask = w ↔ accessMode flags = w.toBitVec.toNat := by
    rw [accessMode_eq, BitVec.toNat_inj, Int32.toBitVec_inj]
  rw [direction?]
  simp only [h]
  have h4 : accessMode flags < 4 := Nat.mod_lt _ (by decide)
  have h0 : readOnly.toBitVec.toNat = 0 := rfl
  have h1 : writeOnly.toBitVec.toNat = 1 := rfl
  have h2 : readWrite.toBitVec.toNat = 2 := rfl
  rw [h0, h1, h2]
  generalize accessMode flags = m at h4
  obtain rfl | rfl | rfl | rfl : m = 0 ∨ m = 1 ∨ m = 2 ∨ m = 3 := by omega
  all_goals rfl

end OpenFlags

end FileBroker
