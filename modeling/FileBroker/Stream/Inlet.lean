/-
The receiving side of a stream connection.

Bytes arrive in chunks, and descriptors are attached to chunks. A receive takes up to a wanted
number of bytes and joins chunks on the way, but it never goes past a chunk whose descriptors it
took; the descriptors come with the first byte that is taken of their chunk.

* `Stream.Chunk`, `Stream.Arrival`, `Stream.Inlet`: what is on its way to the receiver.
* `Stream.gather`: the bytes and descriptors that one receive takes.
* `Stream.receiveFrom`: one receive, which may be short, interrupted or refused.
-/
import FileBroker.Errno

namespace FileBroker.Stream

variable {δ : Type}

/-- Bytes that were sent at once, with the descriptors attached to them. -/
structure Chunk (δ : Type) where
  bytes : Bytes
  descriptors : List δ
  deriving DecidableEq, Repr

/-- What comes next at the receiver: a chunk, or a pause that ends the receive under way. -/
inductive Arrival (δ : Type) where
  | chunk (c : Chunk δ)
  | pause
  deriving DecidableEq, Repr

/-- The receiving side: what is on its way, and whether nothing else will follow. -/
structure Inlet (δ : Type) where
  arrivals : List (Arrival δ)
  ended : Bool
  deriving DecidableEq, Repr

/-- What one receive takes, and what is left. -/
structure Taken (δ : Type) where
  bytes : Bytes
  descriptors : List δ
  rest : List (Arrival δ)

/-- Up to `want` bytes of the arrivals. A chunk that is cut leaves its descriptors with the part
that was taken; a chunk without bytes is skipped. -/
def gather (want : Nat) : List (Arrival δ) → Taken δ
  | [] => ⟨[], [], []⟩
  | .pause :: rest => ⟨[], [], if want = 0 then .pause :: rest else rest⟩
  | .chunk c :: rest =>
    if want = 0 then ⟨[], [], .chunk c :: rest⟩
    else if c.bytes = [] then gather want rest
    else
      match c.bytes.drop want with
      | b :: left => ⟨c.bytes.take want, c.descriptors, .chunk ⟨b :: left, []⟩ :: rest⟩
      | [] =>
        if c.descriptors = [] then
          let more := gather (want - c.bytes.length) rest
          ⟨c.bytes ++ more.bytes, more.descriptors, more.rest⟩
        else ⟨c.bytes, c.descriptors, rest⟩

theorem gather_bytes_length_le (want : Nat) (arrivals : List (Arrival δ)) :
    (gather want arrivals).bytes.length ≤ want := by
  fun_induction gather want arrivals <;> grind [List.drop_eq_nil_iff]

theorem gather_rest_length_le (want : Nat) (arrivals : List (Arrival δ)) :
    (gather want arrivals).rest.length ≤ arrivals.length := by
  fun_induction gather want arrivals <;> grind [List.drop_eq_nil_iff]

/-- A receive takes at least one byte of a chunk that has one. -/
theorem gather_bytes_length_pos {want : Nat} (hw : 0 < want) {c : Chunk δ} (hc : c.bytes ≠ [])
    (rest : List (Arrival δ)) : 0 < (gather want (.chunk c :: rest)).bytes.length := by
  have : 0 < c.bytes.length := List.length_pos_iff.mpr hc
  rw [gather]
  repeat' split
  all_goals grind

/-- How a receive ends. -/
inductive Receipt (δ : Type) where
  | delivered (bytes : Bytes) (descriptors : List δ)
  | interrupted
  | endOfStream
  | failed (errno : Errno)

/-- The number of descriptors that one receive has room for. -/
def descriptorLimit : Nat := 28

/-- How a receive of up to `want` bytes ends, and what is left. Where more descriptors come than
there is room for, the bytes that they came with are lost. -/
def receiveFrom (ended : Bool) (want : Nat) : List (Arrival δ) → Receipt δ × List (Arrival δ)
  | [] => (if ended then .endOfStream else .failed .wouldBlock, [])
  | .pause :: rest => (.interrupted, rest)
  | .chunk c :: rest =>
    if c.bytes = [] then receiveFrom ended want rest
    else
      let taken := gather want (.chunk c :: rest)
      (if descriptorLimit < taken.descriptors.length then .failed .messageTooLong
        else .delivered taken.bytes taken.descriptors, taken.rest)

theorem receiveFrom_length_le (ended : Bool) (want : Nat) (arrivals : List (Arrival δ)) :
    (receiveFrom ended want arrivals).2.length ≤ arrivals.length := by
  fun_induction receiveFrom ended want arrivals with
  | case1 => simp
  | case2 => simp
  | case3 _ _ _ ih => exact Nat.le_succ_of_le ih
  | case4 => exact gather_rest_length_le _ _

/-- An interrupted receive leaves fewer arrivals. -/
theorem receiveFrom_length_lt {ended : Bool} {want : Nat} {arrivals rest : List (Arrival δ)}
    (h : receiveFrom ended want arrivals = (.interrupted, rest)) :
    rest.length < arrivals.length := by
  fun_induction receiveFrom ended want arrivals with
  | case1 => split at h <;> simp at h
  | case2 => simp_all
  | case3 _ _ _ ih => exact Nat.lt_succ_of_lt (ih h)
  | case4 => split at h <;> simp at h

/-- What is delivered is not empty. -/
theorem receiveFrom_bytes_length_pos {ended : Bool} {want : Nat} (hw : 0 < want)
    {arrivals rest : List (Arrival δ)} {bytes : Bytes} {descriptors : List δ}
    (h : receiveFrom ended want arrivals = (.delivered bytes descriptors, rest)) :
    0 < bytes.length := by
  fun_induction receiveFrom ended want arrivals with
  | case1 => split at h <;> simp at h
  | case2 => simp at h
  | case3 _ _ _ ih => exact ih h
  | case4 c rest' hc taken =>
    split at h
    · simp at h
    · simp only [Prod.mk.injEq, Receipt.delivered.injEq] at h
      rw [← h.1.1]
      exact gather_bytes_length_pos hw hc rest'

namespace Inlet

/-- The receiving side without anything on its way. -/
def empty : Inlet δ := ⟨[], false⟩

/-- The receiving side with more chunks on their way. -/
def push (s : Inlet δ) (chunks : List (Chunk δ)) : Inlet δ :=
  { s with arrivals := s.arrivals ++ chunks.map .chunk }

end Inlet

end FileBroker.Stream
