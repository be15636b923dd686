/-
What the reception of a frame comes to.

Whatever arrives, and however it is cut, the loop that receives a frame stays in its buffer and
comes to an end. What it returns depends on the bytes alone, read from the front: a frame, a header
that announces too long a body, or too few bytes; unless a receive brings more descriptors than
there is room for. Every descriptor that is delivered is returned or closed, so that none is left
for a later reception.

* `Stream.reading`: what a byte string holds for a receiver, read at once.
* `Reception.Exact`: all that is said of a reception.
* `Receiver.Holds`, `Receiver.turn_holds`: the invariant of the loop, and that a turn keeps it.
* `Stream.Visit`, `Stream.receptions`: receptions one after another.
* `Stream.frame_received`: the outcome of a reception, and of those after it.
-/
import FileBroker.Proofs.Receivers

namespace FileBroker.Stream

open FileBroker.Connection (frame littleEndian)

variable {δ : Type}

/-! ### The reference -/

/-- Why a frame does not become complete. -/
def starvation (ended : Bool) : FrameFault := if ended then .endOfStream else .failed .wouldBlock

/-- What some bytes hold for a receiver: the body of the frame at their front, or why there is none;
and how many of the bytes are taken for that. -/
def reading (ended : Bool) (bytes : Bytes) : Except FrameFault Bytes × ℕ :=
  if bytes.length < 4 then (.error (starvation ended), bytes.length)
  else if 4096 < littleEndian (bytes.take 4) then (.error (.failed .messageTooLong), 4)
  else if bytes.length < 4 + littleEndian (bytes.take 4) then
    (.error (starvation ended), bytes.length)
  else
    (.ok ((bytes.drop 4).take (littleEndian (bytes.take 4))), 4 + littleEndian (bytes.take 4))

/-- Too long a body is told by the header alone. -/
lemma reading_oversized {ended : Bool} {header : Bytes} (hl : header.length = 4)
    (h : 4096 < littleEndian header) (more : Bytes) :
    reading ended (header ++ more) = (.error (.failed .messageTooLong), 4) := by
  rw [reading, List.take_left' hl, List.length_append, hl, if_neg (by omega), if_pos h]

/-- Fewer bytes than are wanted are taken all. -/
lemma reading_starved {ended : Bool} {bytes : Bytes}
    (h : bytes.length < 4 ∨ littleEndian (bytes.take 4) ≤ 4096 ∧
      bytes.length < 4 + littleEndian (bytes.take 4)) :
    reading ended bytes = (.error (starvation ended), bytes.length) := by
  rw [reading]
  obtain h | ⟨h, h'⟩ := h
  · rw [if_pos h]
  · rw [if_neg (Nat.not_lt.mpr h), if_pos h', ite_self]

/-- A frame is taken as a whole. -/
lemma reading_frame {ended : Bool} {body : Bytes} (hb : body.length ≤ 4096) (more : Bytes) :
    reading ended (frame body ++ more) = (.ok body, (frame body).length) := by
  rw [reading, Connection.littleEndian_frame_append hb, Connection.drop_frame_append,
    List.take_left' rfl, List.length_append, Connection.frame_length, if_neg (by omega),
    if_neg (by omega), if_neg (by omega)]

/-- Whether more bytes follow later makes no difference to a frame. -/
lemma reading_toOption (ended ended' : Bool) (bytes : Bytes) :
    (reading ended bytes).1.toOption = (reading ended' bytes).1.toOption := by
  simp only [reading]
  split_ifs <;> rfl

/-- The bytes that are on their way. -/
def Inlet.waiting (s : Inlet δ) : Bytes := (cargo s.arrivals).map Prod.fst

/-- The descriptors that come with some arrivals. -/
def carried (arrivals : List (Arrival δ)) : List δ := (cargo arrivals).flatMap Prod.snd

lemma carried_append (first second : List (Arrival δ)) :
    carried (first ++ second) = carried first ++ carried second := by
  rw [carried, cargo, List.flatMap_append, List.flatMap_append]
  rfl

/-! ### Receptions -/

/-- Not more descriptors than a receive has room for. -/
def Chunk.Light (c : Chunk δ) : Prop := c.descriptors.length ≤ descriptorLimit

lemma light_empty : ∀ c ∈ ([⟨[], []⟩] : List (Chunk δ)), c.Light :=
  List.forall_mem_singleton.mpr (Nat.zero_le _)

lemma admitted_of_light {pieces : List (Chunk δ)} (h : ∀ c ∈ pieces, c.Light) :
    pieces.flatMap Chunk.admitted = descriptorsOf pieces :=
  List.flatMap_congr fun c hc => List.take_of_length_le (h c hc)

/-- **A reception that is as it should be.** It has the outcome of `receiveFrame`. What it took is
the front of what there was, by one receive for each piece, and there were not more of these than
bytes taken and arrivals used up, and one more. With a frame it took that frame's bytes and no
others, returned the first descriptor that came with them and closed the others; without one it
closed all that it got. A receive with too many descriptors has it fail. Without such a receive the
outcome is what the reference reads in the bytes that were on their way. -/
structure Reception.Exact (s : Inlet δ) (v : Reception δ) : Prop where
  same : receiveFrame s = (v.result, v.inlet)
  ended : v.inlet.ended = s.ended
  drawn : Drawn v.pieces s.arrivals v.inlet.arrivals
  receives : v.pieces.length + v.inlet.arrivals.length ≤
    (bytesOf v.pieces).length + s.arrivals.length + 1
  returned : ∀ f, v.result = .ok f →
    bytesOf v.pieces = frame f.body ∧ f.body.length ≤ Wire.capacity ∧
      f.descriptor = (descriptorsOf v.pieces).head? ∧ v.closed = (descriptorsOf v.pieces).tail
  refused : ∀ fault, v.result = .error fault → v.closed.Perm (v.pieces.flatMap Chunk.admitted)
  overloaded : ∀ c ∈ v.pieces, ¬c.Light → v.result = .error (.failed .messageTooLong)
  read : (∀ c ∈ v.pieces, c.Light) →
    (v.result.map Frame.body, (bytesOf v.pieces).length) = reading s.ended s.waiting

namespace Receiver

/-! ### What is left for the loop to do -/

/-- The outcome after some bytes were filled in: a fault, or what comes next. -/
def follow (filled : Except FrameFault (Bytes × Option δ) × Inlet δ)
    (next : Bytes → Option δ → Inlet δ → Except FrameFault (Frame δ) × Inlet δ) :
    Except FrameFault (Frame δ) × Inlet δ :=
  match filled with
  | (.error fault, s) => (.error fault, s)
  | (.ok (bytes, fd), s) => next bytes fd s

/-- The frame that a body makes. -/
def deliver (body : Bytes) (fd : Option δ) (s : Inlet δ) :
    Except FrameFault (Frame δ) × Inlet δ := (.ok ⟨body, fd⟩, s)

/-- The outcome once the header is there. -/
def proceed (header : Bytes) (fd : Option δ) (s : Inlet δ) :
    Except FrameFault (Frame δ) × Inlet δ :=
  match Wire.bodyLength header with
  | .error _ => (.error (.failed .messageTooLong), s)
  | .ok length => follow (fill length fd s) deliver

lemma proceed_ok {header : Bytes} {length : ℕ} (h : Wire.bodyLength header = .ok length)
    (fd : Option δ) (s : Inlet δ) :
    proceed header fd s = follow (fill length fd s) deliver := by
  rw [proceed, h]

lemma proceed_error {header : Bytes} {fault : Wire.Fault}
    (h : Wire.bodyLength header = .error fault) (fd : Option δ) (s : Inlet δ) :
    proceed header fd s = (.error (.failed .messageTooLong), s) := by
  rw [proceed, h]

/-- The bytes that are in the buffer. -/
def got (r : Receiver δ) : Bytes := r.buffer.bytes.take r.filled

/-- The outcome that is left for the loop, in terms of filling: of the header, or of the body. -/
def remaining (r : Receiver δ) : Except FrameFault (Frame δ) × Inlet δ :=
  match r.expected with
  | none => follow (fillOn r.got (r.want - r.filled) r.descriptor r.inlet) proceed
  | some _ =>
    follow (fillOn (r.got.drop Wire.headerLength) (r.want - r.filled) r.descriptor r.inlet) deliver

lemma remaining_start (b : Buffer) (s : Inlet δ) : (start b s).remaining = receiveFrame s := by
  have hnil : (start b s).got = [] := rfl
  have hfill : (start b s).remaining = follow (fill Wire.headerLength none s) proceed := by
    rw [← fillOn_nil, ← hnil]
    rfl
  rw [hfill, receiveFrame]
  rcases fill Wire.headerLength none s with ⟨fault | ⟨header, fd⟩, s'⟩
  · rfl
  · dsimp only [follow, proceed]
    cases Wire.bodyLength header with
    | error => rfl
    | ok length =>
      dsimp only
      rcases fill length fd s' with ⟨fault | ⟨body, fd'⟩, s''⟩ <;> rfl

variable {r : Receiver δ} {rest : List (Arrival δ)}

lemma remaining_interrupted (hw : 0 < r.want - r.filled)
    (h : receiveFrom r.inlet.ended (r.want - r.filled) r.inlet.arrivals = (.interrupted, rest))
    (piece : Chunk δ) : (r.received piece rest).remaining = r.remaining := by
  simp only [remaining, fillOn_interrupted _ _ hw h]
  rfl

lemma remaining_starved (hw : 0 < r.want - r.filled)
    (h : receiveFrom r.inlet.ended (r.want - r.filled) r.inlet.arrivals =
      (if r.inlet.ended then .endOfStream else .failed .wouldBlock, rest)) :
    r.remaining = (.error (starvation r.inlet.ended), { r.inlet with arrivals := rest }) := by
  cases hended : r.inlet.ended with
  | true =>
    rw [hended, if_pos rfl, ← hended] at h
    simp only [remaining, fillOn_endOfStream _ _ hw h]
    split <;> rfl
  | false =>
    rw [hended, if_neg (by decide), ← hended] at h
    simp only [remaining, fillOn_failed _ _ hw h]
    split <;> rfl

lemma remaining_failed {errno : Errno} (hw : 0 < r.want - r.filled)
    (h : receiveFrom r.inlet.ended (r.want - r.filled) r.inlet.arrivals = (.failed errno, rest)) :
    r.remaining = (.error (.failed errno), { r.inlet with arrivals := rest }) := by
  simp only [remaining, fillOn_failed _ _ hw h]
  split <;> rfl

/-- After a receive that delivers something, less is left to do, with these bytes in the buffer. -/
lemma remaining_delivered {piece : Chunk δ} {buffer : Buffer} (hw : 0 < r.want - r.filled)
    (h : receiveFrom r.inlet.ended (r.want - r.filled) r.inlet.arrivals =
      (.delivered piece.bytes piece.descriptors, rest))
    (hheader : r.expected ≠ none → Wire.headerLength ≤ r.got.length)
    (hbuffer : buffer.bytes.take (r.filled + piece.bytes.length) = r.got ++ piece.bytes) :
    ((r.received piece rest).keep buffer piece.bytes piece.descriptors).remaining =
      r.remaining := by
  have hgot : ((r.received piece rest).keep buffer piece.bytes piece.descriptors).got =
      r.got ++ piece.bytes := hbuffer
  have hwant : r.want - (r.filled + piece.bytes.length) =
      r.want - r.filled - piece.bytes.length := Nat.sub_add_eq ..
  simp only [remaining, hgot, fillOn_delivered _ _ hw h]
  cases he : r.expected with
  | none =>
    rw [← hwant]
    simp only [keep, received, want, he]
  | some length =>
    have hlen := hheader (Option.ne_none_iff_exists'.mpr ⟨length, he⟩)
    rw [← hwant, ← List.drop_append_of_le_length hlen]
    simp only [keep, received, want, he]

/-! ### The invariant -/

/-- What holds between the turns of the loop. The buffer begins with the bytes of the pieces, as
many as there are to be or fewer; the header, once it was read, is in front of them; of the
descriptors the first is kept and the others are closed; and what is left to do is what
`receiveFrame` has left to do. -/
structure Holds (s : Inlet δ) (r : Receiver δ) : Prop where
  ended : r.inlet.ended = s.ended
  drawn : Drawn r.pieces s.arrivals r.inlet.arrivals
  receives : r.pieces.length + r.inlet.arrivals.length ≤
    (bytesOf r.pieces).length + s.arrivals.length
  got : r.got = bytesOf r.pieces
  filled : r.filled = (bytesOf r.pieces).length
  filled_le : r.filled ≤ r.want
  expected : ∀ length, r.expected = some length → length ≤ Wire.capacity ∧ 4 ≤ r.filled ∧
    littleEndian ((bytesOf r.pieces).take 4) = length
  descriptor : r.descriptor = (descriptorsOf r.pieces).head?
  closed : r.closed = (descriptorsOf r.pieces).tail
  light : ∀ c ∈ r.pieces, c.Light
  remaining : r.remaining = receiveFrame s

lemma start_holds (b : Buffer) (s : Inlet δ) : (start b s).Holds s where
  ended := rfl
  drawn := .refl s.arrivals
  receives := Nat.le_refl _
  got := rfl
  filled := rfl
  filled_le := Nat.zero_le _
  expected := by rintro _ ⟨⟩
  descriptor := rfl
  closed := rfl
  light := List.forall_mem_nil _
  remaining := remaining_start b s

namespace Holds

variable {s : Inlet δ}

/-- What is to be in the buffer has room in it. -/
lemma want_le (h : r.Holds s) : r.want ≤ frameRoom := by
  rw [want, frameRoom]
  cases he : r.expected with
  | none => simp
  | some length => simpa using (h.expected length he).1

/-- As long as the buffer is not filled, no frame is complete. -/
lemma incomplete (h : r.Holds s) (hne : r.filled ≠ r.want) :
    (bytesOf r.pieces).length < 4 ∨ littleEndian ((bytesOf r.pieces).take 4) ≤ 4096 ∧
      (bytesOf r.pieces).length < 4 + littleEndian ((bytesOf r.pieces).take 4) := by
  have hlt := lt_of_le_of_ne h.filled_le hne
  rw [want] at hlt
  rw [← h.filled]
  cases he : r.expected with
  | none =>
    rw [he] at hlt
    exact .inl hlt
  | some length =>
    obtain ⟨hcap, -, hn⟩ := h.expected length he
    rw [he] at hlt
    exact .inr ⟨hn ▸ hcap, hn ▸ hlt⟩

/-- The descriptors that are closed, and the one that is kept, are all that came. -/
lemma closed_perm (h : r.Holds s) :
    (r.closed ++ r.descriptor.toList).Perm (descriptorsOf r.pieces) := by
  rw [h.closed, h.descriptor]
  refine List.perm_append_comm.trans (.of_eq ?_)
  cases descriptorsOf r.pieces <;> rfl

/-- If a piece with too many descriptors ends the loop, those of it that got through are closed with
the others. -/
lemma closed_perm_of_heavy (h : r.Holds s) (piece : Chunk δ) :
    ((r.closed ++ piece.admitted) ++ r.descriptor.toList).Perm
      ((r.pieces ++ [piece]).flatMap Chunk.admitted) := by
  rw [List.flatMap_append, admitted_of_light h.light, List.flatMap_singleton]
  refine List.Perm.trans ?_ (h.closed_perm.append_right _)
  rw [List.append_assoc, List.append_assoc]
  exact List.perm_append_comm.append_left r.closed

/-- Going on after an interrupted receive. -/
lemma interrupted (h : r.Holds s) (same : cargo rest = cargo r.inlet.arrivals)
    (fewer : rest.length < r.inlet.arrivals.length)
    (hrem : (r.received ⟨[], []⟩ rest).remaining = r.remaining) :
    (r.received ⟨[], []⟩ rest).Holds s := by
  have hbytes := bytesOf_concat_empty r.pieces
  have hdescriptors := descriptorsOf_concat_empty r.pieces
  refine {
    ended := h.ended
    drawn := h.drawn.concat (.of_cargo_eq same)
    receives := ?_
    got := h.got.trans hbytes.symm
    filled := hbytes ▸ h.filled
    filled_le := h.filled_le
    expected := hbytes ▸ h.expected
    descriptor := hdescriptors ▸ h.descriptor
    closed := hdescriptors ▸ h.closed
    light := List.forall_mem_append.mpr ⟨h.light, light_empty⟩
    remaining := hrem.trans h.remaining }
  have := h.receives
  simp only [received, hbytes, List.length_append, List.length_singleton]
  omega

/-- Going on after a receive that delivered something. -/
lemma delivered (h : r.Holds s) {piece : Chunk δ} (light : piece.Light)
    (pos : 0 < piece.bytes.length) (short : piece.bytes.length ≤ r.want - r.filled)
    (drawn : Drawn [piece] r.inlet.arrivals rest) (left : rest.length ≤ r.inlet.arrivals.length)
    {buffer : Buffer}
    (hbuffer : buffer.bytes.take (r.filled + piece.bytes.length) = r.got ++ piece.bytes)
    (hrem : ((r.received piece rest).keep buffer piece.bytes piece.descriptors).remaining =
      r.remaining) :
    ((r.received piece rest).keep buffer piece.bytes piece.descriptors).Holds s := by
  set r' := (r.received piece rest).keep buffer piece.bytes piece.descriptors
  have hbytes : bytesOf r'.pieces = bytesOf r.pieces ++ piece.bytes := bytesOf_concat ..
  have hdescriptors : descriptorsOf r'.pieces = descriptorsOf r.pieces ++ piece.descriptors :=
    descriptorsOf_concat ..
  have hfilled : r'.filled = r.filled + piece.bytes.length := rfl
  refine {
    ended := h.ended
    drawn := h.drawn.concat drawn
    receives := ?_
    got := hbuffer.trans (by rw [hbytes, h.got])
    filled := by rw [hbytes, List.length_append, ← h.filled, hfilled]
    filled_le := ?_
    expected := ?_
    descriptor := ?_
    closed := ?_
    light := List.forall_mem_append.mpr ⟨h.light, List.forall_mem_singleton.mpr light⟩
    remaining := hrem.trans h.remaining }
  · have hpieces : r'.pieces.length = r.pieces.length + 1 := List.length_append ..
    have := h.receives
    rw [hbytes, hpieces, List.length_append]
    exact le_trans (Nat.add_le_add_left left _) (by omega)
  · have := h.filled_le
    have hwant : r'.want = r.want := rfl
    omega
  · intro length he
    obtain ⟨hcap, hheader, hn⟩ := h.expected length he
    refine ⟨hcap, Nat.le_add_right_of_le hheader, ?_⟩
    rw [hbytes, List.take_append_of_le_length (h.filled ▸ hheader), hn]
  · rw [hdescriptors, List.head?_append, ← h.descriptor]
    simp only [r', keep, received]
    cases r.descriptor <;> rfl
  · rw [hdescriptors]
    simp only [r', keep, received, h.closed, h.descriptor]
    cases descriptorsOf r.pieces <;> rfl

/-- The end because nothing more is there: all that there was has been taken. -/
lemma starved (h : r.Holds s) (hne : r.filled ≠ r.want) (nothing : cargo r.inlet.arrivals = [])
    (hrem : r.remaining =
      (.error (starvation r.inlet.ended), { r.inlet with arrivals := [] })) :
    ((r.received ⟨[], []⟩ []).fail (starvation r.inlet.ended)).Exact s := by
  have hbytes := bytesOf_concat_empty r.pieces
  have hlight : ∀ c ∈ r.pieces ++ [⟨[], []⟩], c.Light :=
    List.forall_mem_append.mpr ⟨h.light, light_empty⟩
  refine {
    same := h.remaining.symm.trans hrem
    ended := h.ended
    drawn := h.drawn.concat (.of_cargo_eq nothing.symm)
    receives := ?_
    returned := by rintro _ ⟨⟩
    refused := ?_
    overloaded := fun c hc hheavy => absurd (hlight c hc) hheavy
    read := fun _ => ?_ }
  · have := h.receives
    simp only [fail, received, hbytes, List.length_append, List.length_singleton, List.length_nil]
    omega
  · rintro _ -
    have hall := (admitted_of_light hlight).trans (descriptorsOf_concat_empty r.pieces)
    exact h.closed_perm.trans (.of_eq hall.symm)
  · have hwaiting : s.waiting = bytesOf r.pieces := by
      rw [Inlet.waiting, h.drawn.bytes_eq, nothing, List.map_nil, List.append_nil]
    rw [hwaiting, reading_starved (h.incomplete hne), ← h.ended]
    exact congrArg (fun bytes : Bytes => (_, bytes.length)) hbytes

/-- The end because a receive brings too many descriptors. -/
lemma overloaded (h : r.Holds s) {piece : Chunk δ} (heavy : ¬piece.Light)
    (drawn : Drawn [piece] r.inlet.arrivals rest) (left : rest.length ≤ r.inlet.arrivals.length)
    (hrem : r.remaining =
      (.error (.failed .messageTooLong), { r.inlet with arrivals := rest })) :
    (((r.received piece rest).reject piece).fail (.failed .messageTooLong)).Exact s where
  same := h.remaining.symm.trans hrem
  ended := h.ended
  drawn := h.drawn.concat drawn
  receives := by
    have := h.receives
    simp only [fail, reject, received, List.length_append, List.length_singleton, bytesOf_concat]
    omega
  returned := by rintro _ ⟨⟩
  refused := fun _ _ => h.closed_perm_of_heavy piece
  overloaded := fun _ _ _ => rfl
  read := fun hlight => absurd (hlight piece (List.mem_concat_self ..)) heavy

end Holds

/-! ### The turns keep it -/

variable {s : Inlet δ}

/-- Going on with the invariant, or ending as a reception should. -/
def Sound (s : Inlet δ) : Receiver δ ⊕ Reception δ → Prop := Sum.elim (Holds s) (Reception.Exact s)

lemma decode_holds (h : r.Holds s) (heq : r.filled = r.want) (he : r.expected = none) :
    ∃ y, r.decode = some y ∧ Sound s y := by
  have hfour : r.filled = 4 := by
    rw [heq, want, he]
    rfl
  have hread : r.buffer.read? 0 Wire.headerLength = some (bytesOf r.pieces) := by
    rw [Buffer.read?_eq _ (Nat.zero_le _) (by decide), ← h.got, Receiver.got, hfour]
    rfl
  have hlen : (bytesOf r.pieces).length = 4 := h.filled ▸ hfour
  have hrem : receiveFrame s = proceed (bytesOf r.pieces) r.descriptor r.inlet := by
    rw [← h.remaining, remaining, he, heq, Nat.sub_self, fillOn_zero, h.got]
    rfl
  rw [decode, hread, Option.map_some]
  refine ⟨_, rfl, ?_⟩
  by_cases hle : littleEndian (bytesOf r.pieces) ≤ 4096
  · have hbody := (Connection.bodyLength_eq hlen).trans (if_pos hle)
    rw [proceed_ok hbody] at hrem
    rw [hbody]
    refine { h with
      filled_le := ?_
      expected := ?_
      remaining := ?_ }
    · rw [want, hfour]
      exact Nat.le_add_right _ _
    · rintro _ ⟨⟩
      exact ⟨hle, hfour.ge, by rw [List.take_of_length_le hlen.le]⟩
    · -- nothing of the body is there yet
      have hnone : r.got.drop Wire.headerLength = [] := by
        rw [h.got, List.drop_eq_nil_iff]
        exact hlen.le
      have hwant : Wire.headerLength + littleEndian (bytesOf r.pieces) - r.filled =
          littleEndian (bytesOf r.pieces) := by
        rw [hfour]
        exact Nat.add_sub_cancel_left ..
      rw [hrem, ← fillOn_nil, ← hnone]
      exact congrArg (fun n => follow (fillOn _ n _ _) deliver) hwant
  · have hbody := (Connection.bodyLength_eq hlen).trans (if_neg hle)
    rw [proceed_error hbody] at hrem
    rw [hbody]
    refine {
      same := hrem
      ended := h.ended
      drawn := h.drawn
      receives := Nat.le_succ_of_le h.receives
      returned := by rintro _ ⟨⟩
      refused := fun _ _ => h.closed_perm.trans (.of_eq (admitted_of_light h.light).symm)
      overloaded := fun _ _ _ => rfl
      read := fun _ => ?_ }
    rw [Inlet.waiting, h.drawn.bytes_eq, reading_oversized hlen (by omega)]
    exact congrArg (Prod.mk _) hlen

lemma finish_holds {length : ℕ} (h : r.Holds s) (heq : r.filled = r.want)
    (he : r.expected = some length) : ∃ v, r.finish length = some v ∧ v.Exact s := by
  obtain ⟨hcap, -, hn⟩ := h.expected length he
  have hfilled : r.filled = 4 + length := by
    rw [heq, want, he]
    rfl
  have hlen : (bytesOf r.pieces).length = 4 + length := h.filled ▸ hfilled
  set body := (bytesOf r.pieces).drop 4
  have hbody : body.length = length := by
    rw [List.length_drop, hlen, Nat.add_sub_cancel_left]
  have hframe : bytesOf r.pieces = frame body := by
    have hheader : ((bytesOf r.pieces).take 4).length = 4 := by
      rw [List.length_take, hlen]
      omega
    rw [frame, hbody, ← hn, Connection.wordBytes_littleEndian hheader, List.take_append_drop]
  have hroom : Wire.headerLength + length ≤ frameRoom := Nat.add_le_add_left hcap _
  have hread : r.buffer.read? Wire.headerLength (Wire.headerLength + length) = some body := by
    have hgot : r.buffer.bytes.take (Wire.headerLength + length) = bytesOf r.pieces := by
      rw [← h.got, Receiver.got, hfilled]
      rfl
    rw [Buffer.read?_eq _ (Nat.le_add_right _ _) hroom, hgot]
    rfl
  obtain ⟨buffer, hwrite, htake⟩ := r.buffer.write?_take 0 body (by omega)
  have hback : buffer.read? 0 length = some body := by
    rw [Nat.zero_add, hbody] at htake
    rw [Buffer.read?_eq _ (Nat.zero_le _) (by omega), htake]
    rfl
  refine ⟨⟨.ok ⟨body, r.descriptor⟩, r.inlet, r.pieces, r.closed⟩, ?_, ?_⟩
  · simp only [finish, hread, hwrite, hback, Option.bind_some, Option.map_some]
  · have hrem : receiveFrame s = (.ok ⟨body, r.descriptor⟩, r.inlet) := by
      rw [← h.remaining, remaining, he, heq, Nat.sub_self]
      dsimp only
      rw [fillOn_zero, h.got]
      rfl
    refine {
      same := hrem
      ended := h.ended
      drawn := h.drawn
      receives := Nat.le_succ_of_le h.receives
      returned := ?_
      refused := by rintro _ ⟨⟩
      overloaded := fun c hc hheavy => absurd (h.light c hc) hheavy
      read := fun _ => ?_ }
    · rintro _ ⟨⟩
      exact ⟨hframe, hbody ▸ hcap, h.descriptor, h.closed⟩
    · rw [Inlet.waiting, h.drawn.bytes_eq, hframe, reading_frame (hbody ▸ hcap)]
      rfl

lemma take_holds (h : r.Holds s) (hne : r.filled ≠ r.want) : ∃ y, r.take = some y ∧ Sound s y := by
  have hle := h.filled_le
  have hw : 0 < r.want - r.filled := by omega
  have hroom := h.want_le
  have hwindow : ((r.buffer.bytes.take r.want).drop r.filled).length = r.want - r.filled := by
    have := r.buffer.length_eq
    rw [List.length_drop, List.length_take]
    omega
  rw [take, Buffer.read?_eq _ hle hroom, Option.bind_some, hwindow]
  have hr := receives r.inlet.ended hw r.inlet.arrivals
  generalize draw (r.want - r.filled) r.inlet.arrivals = piece at hr ⊢
  generalize hgot : receiveFrom r.inlet.ended (r.want - r.filled) r.inlet.arrivals = got at hr ⊢
  cases hr with
  | interrupted same fewer =>
    exact ⟨_, rfl, h.interrupted same fewer (remaining_interrupted hw hgot _)⟩
  | starved nothing =>
    refine ⟨.inr ((r.received ⟨[], []⟩ []).fail (starvation r.inlet.ended)), ?_,
      h.starved hne nothing (remaining_starved hw hgot)⟩
    cases r.inlet.ended <;> simp [starvation, reject, Chunk.admitted]
  | overloaded heavy short drawn left =>
    exact ⟨_, rfl, h.overloaded (Nat.not_le.mpr heavy) drawn left (remaining_failed hw hgot)⟩
  | delivered light pos short drawn left =>
    obtain ⟨buffer, hwrite, hbuffer⟩ := r.buffer.write?_take r.filled piece.bytes (by omega)
    have hheader : r.expected ≠ none → Wire.headerLength ≤ r.got.length := by
      intro he
      obtain ⟨length, he⟩ := Option.ne_none_iff_exists'.mp he
      rw [h.got, ← h.filled]
      exact (h.expected length he).2.1
    refine ⟨_, congrArg (Option.map _) hwrite, ?_⟩
    exact h.delivered light pos short drawn left hbuffer
      (remaining_delivered hw hgot hheader hbuffer)

/-- A turn stays in the buffer, and keeps the invariant or ends the reception as it should. -/
lemma turn_holds (r : Receiver δ) (h : r.Holds s) : ∃ y, r.turn = some y ∧ Sound s y := by
  rw [turn]
  by_cases heq : r.filled = r.want
  · rw [if_pos heq]
    cases he : r.expected with
    | none => exact decode_holds h heq he
    | some length =>
      obtain ⟨v, hv, hexact⟩ := finish_holds h heq he
      exact ⟨.inr v, by simp only [hv, Option.map_some], hexact⟩
  · rw [if_neg heq]
    exact take_holds h heq

end Receiver

/-- A reception stays in its buffer, comes to an end, and is as it should be. -/
lemma receive_exact (b : Buffer) (s : Inlet δ) : ∃ v, receive b s = some v ∧ v.Exact s :=
  Receiver.exists_run Receiver.turn_holds (Receiver.start_holds b s)

namespace Reception

variable {s s' : Inlet δ} {v v' : Reception δ}

/-- The body of the frame that was received. -/
def body? (v : Reception δ) : Option Bytes := v.result.toOption.map Frame.body

/-- The descriptors that were delivered to a reception. -/
def delivered (v : Reception δ) : List δ := descriptorsOf v.pieces

/-- The body is what the reference reads in the bytes. -/
lemma Exact.body?_eq (h : v.Exact s) (hlight : ∀ c ∈ v.pieces, c.Light) (ended : Bool) :
    v.body? = (reading ended s.waiting).1.toOption := by
  rw [reading_toOption ended s.ended, ← h.read hlight, body?]
  cases v.result <;> rfl

/-- Bytes that are cut into other chunks make the same body. -/
lemma Exact.body?_congr (h : v.Exact s) (h' : v'.Exact s') (hwaiting : s'.waiting = s.waiting)
    (hlight : ∀ c ∈ v.pieces, c.Light) (hlight' : ∀ c ∈ v'.pieces, c.Light) :
    v'.body? = v.body? := by
  rw [h.body?_eq hlight true, h'.body?_eq hlight' true, hwaiting]

/-- What was delivered comes before what is left. -/
lemma Exact.carried_eq (h : v.Exact s) :
    carried s.arrivals = v.delivered ++ carried v.inlet.arrivals := h.drawn.descriptors_eq

/-- No receive brings too many descriptors if there are not too many in all. -/
lemma Exact.light_of_carried (h : v.Exact s)
    (hfew : (carried s.arrivals).length ≤ descriptorLimit) : ∀ c ∈ v.pieces, c.Light := by
  intro c hc
  have hle : c.descriptors.length ≤ (descriptorsOf v.pieces).length :=
    (List.sublist_flatten_of_mem (List.mem_map_of_mem hc)).length_le
  rw [h.carried_eq, List.length_append, delivered] at hfew
  exact le_trans hle (by omega)

/-- A descriptor that is returned was delivered to the same reception. -/
lemma Exact.mem_delivered (h : v.Exact s) {f : Frame δ} (hf : v.result = .ok f) {d : δ}
    (hd : f.descriptor = some d) : d ∈ v.delivered := by
  obtain ⟨-, -, hfirst, -⟩ := h.returned f hf
  exact List.mem_of_mem_head? (hfirst.symm.trans hd)

end Reception

/-! ### Receptions one after another -/

/-- A reception that is to come: its buffer, what arrives before it, and whether nothing follows. -/
structure Visit (δ : Type) where
  buffer : Buffer
  arrivals : List (Arrival δ)
  ended : Bool

/-- Receptions one after another, unless one of them leaves its buffer. -/
def receptions : List (Visit δ) → Inlet δ → Option (List (Reception δ))
  | [], _ => some []
  | x :: xs, s =>
    (receive x.buffer ⟨s.arrivals ++ x.arrivals, x.ended⟩).bind fun v =>
      (receptions xs v.inlet).map (v :: ·)

/-- The descriptors that arrive before some receptions. -/
def arriving (visits : List (Visit δ)) : List δ := visits.flatMap fun x => carried x.arrivals

/-- Each reception gets the descriptors that follow those of the reception before it. -/
lemma receptions_spec (visits : List (Visit δ)) (s : Inlet δ) :
    ∃ vs, receptions visits s = some vs ∧
      vs.flatMap Reception.delivered <+: carried s.arrivals ++ arriving visits ∧
      ∀ w ∈ vs, ∃ s', w.Exact s' := by
  induction visits generalizing s with
  | nil => exact ⟨[], rfl, List.nil_prefix, List.forall_mem_nil _⟩
  | cons x visits ih =>
    obtain ⟨v, hv, hexact⟩ := receive_exact x.buffer ⟨s.arrivals ++ x.arrivals, x.ended⟩
    obtain ⟨vs, hvs, hprefix, hall⟩ := ih v.inlet
    refine ⟨v :: vs, ?_, ?_, List.forall_mem_cons.mpr ⟨⟨_, hexact⟩, hall⟩⟩
    · rw [receptions, hv, Option.bind_some, hvs, Option.map_some]
    · have harriving : arriving (x :: visits) = carried x.arrivals ++ arriving visits := rfl
      rw [harriving, ← List.append_assoc, ← carried_append, hexact.carried_eq, List.append_assoc,
        List.flatMap_cons]
      exact (List.prefix_append_right_inj _).mpr hprefix

/-- **A frame is received as its bytes say.** Whatever is on its way, from well-behaved senders or
others, and whatever the buffer held before, a reception stays within its buffer, comes to an end,
and is exact: it takes the bytes of one frame and returns its body, with the first descriptor that
came with them and the others closed; it takes four bytes if they announce too long a body; it fails
with the end of the stream if the frame is not complete by then, and when one receive brings more
descriptors than there is room for. However the same bytes are cut, the body is the same, as long as
no receive brings too many descriptors. The receptions after it get, in order, the descriptors that
it left and those that arrive later; so none of them returns one that was delivered to it, whether
it failed or not. -/
theorem frame_received (b : Buffer) (s : Inlet δ) (later : List (Visit δ)) :
    ∃ v, receive b s = some v ∧ v.Exact s ∧
      (∀ (b' : Buffer) (s' : Inlet δ) (v' : Reception δ), receive b' s' = some v' →
        s'.waiting = s.waiting → (∀ c ∈ v.pieces, c.Light) → (∀ c ∈ v'.pieces, c.Light) →
        v'.body? = v.body?) ∧
      ∃ vs, receptions later v.inlet = some vs ∧
        vs.flatMap Reception.delivered <+: carried v.inlet.arrivals ++ arriving later ∧
        ((carried s.arrivals ++ arriving later).Nodup →
          ∀ w ∈ vs, ∀ f, w.result = .ok f → ∀ d ∈ v.delivered, f.descriptor ≠ some d) := by
  obtain ⟨v, hv, hexact⟩ := receive_exact b s
  obtain ⟨vs, hvs, hprefix, hall⟩ := receptions_spec later v.inlet
  refine ⟨v, hv, hexact, ?_, vs, hvs, hprefix, ?_⟩
  · intro b' s' v' hv' hwaiting hlight hlight'
    obtain ⟨v'', hv'', hexact'⟩ := receive_exact b' s'
    obtain rfl := Option.some.inj (hv''.symm.trans hv')
    exact hexact.body?_congr hexact' hwaiting hlight hlight'
  · intro hnodup w hw f hf d hd hreturned
    obtain ⟨s', hw'⟩ := hall w hw
    have hlater : d ∈ carried v.inlet.arrivals ++ arriving later :=
      hprefix.subset (List.mem_flatMap.mpr ⟨w, hw, hw'.mem_delivered hf hreturned⟩)
    rw [hexact.carried_eq, List.append_assoc] at hnodup
    exact (List.nodup_append.mp hnodup).2.2 d hd d hlater rfl

/-- A header that announces too long a body, in two pieces with three descriptors, and a frame after
it that has another. -/
theorem frame_received_after_refusal :
    let b : Buffer := ⟨List.replicate frameRoom 0, List.length_replicate⟩
    let s : Inlet ℕ :=
      ⟨[.chunk ⟨[255, 255], [7, 8]⟩, .pause, .chunk ⟨[255, 255, 1, 0], [6]⟩], false⟩
    let later : List (Visit ℕ) := [⟨b, [.chunk ⟨[0, 0, 9], [5]⟩], true⟩, ⟨b, [], true⟩]
    ∃ v, receive b s = some v ∧ v.result = .error (.failed .messageTooLong) ∧
      (bytesOf v.pieces).length = 4 ∧ v.closed.Perm [7, 8, 6] ∧
      ∃ vs, receptions later v.inlet = some vs ∧
        ∀ w ∈ vs, ∀ f, w.result = .ok f → ∀ d ∈ [7, 8, 6], f.descriptor ≠ some d := by
  intro b s later
  obtain ⟨v, hv, hexact, -, vs, hvs, -, hnever⟩ := frame_received b s later
  have hlight := hexact.light_of_carried (by decide)
  have hreading : reading s.ended s.waiting = (.error (.failed .messageTooLong), 4) := by decide
  obtain ⟨hfault, hfour⟩ := Prod.mk.inj ((hexact.read hlight).trans hreading)
  have hresult : v.result = .error (.failed .messageTooLong) := by
    cases hr : v.result with
    | ok f => rw [hr] at hfault; cases hfault
    | error fault => rw [hr] at hfault; cases hfault; rfl
  have hdelivered : v.delivered = [7, 8, 6] := by
    obtain ⟨taken, hcargo, hbytes, hds⟩ := hexact.drawn
    have hlen : taken.length = 4 := by rw [← hfour, ← hbytes, List.length_map]
    have htaken : taken = (cargo s.arrivals).take 4 := by rw [hcargo, List.take_left' hlen]
    rw [Reception.delivered, ← hds, htaken]
    decide
  have hclosed := hexact.refused _ hresult
  rw [admitted_of_light hlight] at hclosed
  exact ⟨v, hv, hresult, hfour, hdelivered ▸ hclosed, vs, hvs, hdelivered ▸ hnever (by decide)⟩

end FileBroker.Stream
