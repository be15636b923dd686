/-
Byte strings cut into frames.

A connection cuts frames from the segments that arrive, however these are divided. The reference
cuts the whole byte string at once: four bytes tell a length, lowest byte first, and so many bytes
follow, up to a length that is too large or a frame that is not complete.

* `frame`: the frame of a body.
* `cut`: the bodies of the frames in a byte string, and why there are no more.
* `cut_frame_append`: a frame in front is cut off first.
* `flatten_of_nextFrame`, `cut_of_oversized`, `cut_of_incomplete`: what a connection finds at the
  head of its segments is what the reference finds.
-/
import Mathlib.Tactic
import FileBroker.Broker.Connection

namespace FileBroker.Connection

/-! ### The reference -/

/-- The number that some bytes spell, lowest byte first. -/
def littleEndian : Bytes → ℕ
  | [] => 0
  | b :: rest => b.toNat + 256 * littleEndian rest

/-- The frame of a body: its length in four bytes, then the body. -/
def frame (body : Bytes) : Bytes := Wire.wordBytes (UInt32.ofNat body.length) ++ body

lemma frame_ne_nil (body : Bytes) : frame body ≠ [] := nofun

/-- Why a byte string holds no further frame. -/
inductive Ending where
  | incomplete
  | oversized
  deriving DecidableEq, Repr

/-- The bodies of the frames in a byte string, and why there are no more. -/
def cut (bytes : Bytes) : List Bytes × Ending :=
  if bytes.length < 4 then ([], .incomplete)
  else if 4096 < littleEndian (bytes.take 4) then ([], .oversized)
  else if bytes.length < 4 + littleEndian (bytes.take 4) then ([], .incomplete)
  else
    let rest := cut (bytes.drop (4 + littleEndian (bytes.take 4)))
    ((bytes.drop 4).take (littleEndian (bytes.take 4)) :: rest.1, rest.2)
termination_by bytes.length
decreasing_by
  rw [List.length_drop]
  omega

lemma littleEndian_wordBytes (n : UInt32) : littleEndian (Wire.wordBytes n) = n.toNat := by
  have := n.toNat_lt
  simp only [littleEndian, Wire.wordBytes, UInt8.toNat_ofNat']
  omega

lemma frame_length (body : Bytes) : (frame body).length = 4 + body.length := by
  rw [frame, List.length_append, Wire.wordBytes_length]

/-- A frame begins with the length of its body. -/
lemma littleEndian_frame_append {body : Bytes} (hb : body.length ≤ 4096) (more : Bytes) :
    littleEndian ((frame body ++ more).take 4) = body.length := by
  rw [frame, List.append_assoc, List.take_left' (Wire.wordBytes_length _), littleEndian_wordBytes,
    UInt32.toNat_ofNat']
  omega

lemma drop_frame_append (body more : Bytes) : (frame body ++ more).drop 4 = body ++ more := by
  rw [frame, List.append_assoc, List.drop_left' (Wire.wordBytes_length _)]

/-- A frame in front is cut off first. -/
lemma cut_frame_append {body : Bytes} (hb : body.length ≤ 4096) (more : Bytes) :
    cut (frame body ++ more) = (body :: (cut more).1, (cut more).2) := by
  have hr : (frame body ++ more).drop (4 + body.length) = more :=
    List.drop_left' (frame_length body)
  rw [cut, littleEndian_frame_append hb, drop_frame_append, hr, List.take_left' rfl,
    List.length_append, frame_length, if_neg (by omega), if_neg (by omega), if_neg (by omega)]

/-! ### The segments of a connection -/

/-- The length that a header announces. -/
lemma bodyLength_eq {header : Bytes} (h : header.length = 4) :
    Wire.bodyLength header =
      if littleEndian header ≤ 4096 then .ok (littleEndian header)
      else .error (.frameTooLarge (littleEndian header)) := by
  obtain ⟨a, b, c, d, rfl⟩ : ∃ a b c d, header = [a, b, c, d] := List.length_eq_four.mp h
  have hn : (Wire.wordOfBytes a b c d).toNat = littleEndian [a, b, c, d] := by
    rw [← littleEndian_wordBytes, Wire.wordBytes_wordOfBytes]
  rw [← hn]
  rfl

/-- Where so many bytes cannot be taken there are fewer. -/
lemma length_of_takeExactly_eq_none {n : ℕ} {segments : List Bytes}
    (h : takeExactly n segments = none) : segments.flatten.length < n := by
  fun_induction takeExactly n segments with
  | case1 segments => simp at h
  | case2 => simp
  | case3 n segment rest hd ih =>
    have := ih (Option.map_eq_none_iff.mp h)
    have := List.drop_eq_nil_iff.mp hd
    rw [List.flatten_cons, List.length_append]
    omega
  | case4 => simp at h

/-- Four bytes are the word of the number that they spell. -/
lemma wordBytes_littleEndian {header : Bytes} (h : header.length = 4) :
    Wire.wordBytes (UInt32.ofNat (littleEndian header)) = header := by
  obtain ⟨a, b, c, d, rfl⟩ : ∃ a b c d, header = [a, b, c, d] := List.length_eq_four.mp h
  have hn : littleEndian [a, b, c, d] = (Wire.wordOfBytes a b c d).toNat := by
    rw [← littleEndian_wordBytes, Wire.wordBytes_wordOfBytes]
  rw [hn, UInt32.ofNat_toNat, Wire.wordBytes_wordOfBytes]

/-- What the segments begin with, in the terms of the reference. -/
lemma nextFrame_cases (segments : List Bytes) :
    (segments.flatten.length < 4 ∧ nextFrame segments = .incomplete) ∨
    ∃ header rest, header.length = 4 ∧ segments.flatten = header ++ rest.flatten ∧
      ((4096 < littleEndian header ∧ nextFrame segments = .oversized rest) ∨
      (littleEndian header ≤ 4096 ∧ rest.flatten.length < littleEndian header ∧
        nextFrame segments = .incomplete) ∨
      ∃ body rest', littleEndian header ≤ 4096 ∧ body.length = littleEndian header ∧
        rest.flatten = body ++ rest'.flatten ∧ nextFrame segments = .frame body rest') := by
  rw [nextFrame]
  cases hh : takeExactly Wire.headerLength segments with
  | none => exact .inl ⟨length_of_takeExactly_eq_none hh, rfl⟩
  | some taken =>
    obtain ⟨header, rest⟩ := taken
    obtain ⟨hl, hf⟩ := takeExactly_eq_some hh
    refine .inr ⟨header, rest, hl, hf.symm, ?_⟩
    simp only [bodyLength_eq hl]
    by_cases hn : littleEndian header ≤ 4096
    · rw [if_pos hn]
      cases hb : takeExactly (littleEndian header) rest with
      | none => exact .inr (.inl ⟨hn, length_of_takeExactly_eq_none hb, by simp only [hb]⟩)
      | some taken =>
        obtain ⟨body, rest'⟩ := taken
        obtain ⟨hl', hf'⟩ := takeExactly_eq_some hb
        exact .inr (.inr ⟨body, rest', hn, hl', hf'.symm, by simp only [hb]⟩)
    · rw [if_neg hn]
      exact .inl ⟨by omega, rfl⟩

/-- A frame at the head of some segments is what they begin with. -/
lemma flatten_of_nextFrame {segments rest : List Bytes} {body : Bytes}
    (h : nextFrame segments = .frame body rest) :
    segments.flatten = frame body ++ rest.flatten ∧ body.length ≤ 4096 := by
  obtain ⟨-, hi⟩ | ⟨header, rest₁, hl, hf, ⟨-, ho⟩ | ⟨-, -, hi⟩ | ⟨body', rest', hn, hb, hr, hc⟩⟩ :=
    nextFrame_cases segments
  · simp [hi] at h
  · simp [ho] at h
  · simp [hi] at h
  · obtain ⟨rfl, rfl⟩ := Head.frame.inj (hc.symm.trans h)
    rw [hf, hr, frame, hb, wordBytes_littleEndian hl, List.append_assoc]
    exact ⟨rfl, hn⟩

/-- A header that announces too long a body is where the reference stops, whatever follows. -/
lemma cut_of_oversized {segments rest : List Bytes} (h : nextFrame segments = .oversized rest)
    (more : Bytes) : cut (segments.flatten ++ more) = ([], .oversized) := by
  obtain ⟨-, hi⟩ | ⟨header, rest₁, hl, hf, ⟨hn, -⟩ | ⟨-, -, hi⟩ | ⟨body, rest', -, -, -, hc⟩⟩ :=
    nextFrame_cases segments
  · simp [hi] at h
  · have hs : ((segments.flatten ++ more).take 4) = header := by
      rw [hf, List.append_assoc, List.take_left' hl]
    have hlen : ¬ (segments.flatten ++ more).length < 4 := by
      rw [hf, List.length_append, List.length_append, hl]
      omega
    rw [cut, hs, if_neg hlen, if_pos hn]
  · simp [hi] at h
  · simp [hc] at h

/-- Segments without a complete frame are where the reference stops, if nothing follows. -/
lemma cut_of_incomplete {segments : List Bytes} (h : nextFrame segments = .incomplete) :
    cut segments.flatten = ([], .incomplete) := by
  obtain ⟨hs, -⟩ | ⟨header, rest, hl, hf, ⟨-, ho⟩ | ⟨hn, hr, -⟩ | ⟨body, rest', -, -, -, hc⟩⟩ :=
    nextFrame_cases segments
  · rw [cut, if_pos hs]
  · simp [ho] at h
  · have ht : segments.flatten.take 4 = header := by rw [hf, List.take_left' hl]
    have hlen : segments.flatten.length = 4 + rest.flatten.length := by
      rw [hf, List.length_append, hl]
    rw [cut, ht, if_neg (by omega), if_neg (by omega), if_pos (by omega)]
  · simp [hc] at h

end FileBroker.Connection
