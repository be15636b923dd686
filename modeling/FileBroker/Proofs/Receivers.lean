/-
A frame received into a buffer.

A receiver has one buffer, with room for a header and the longest body. A loop fills it from the
front: up to four bytes for the header, then, once the header tells a length, up to the end of the
body, which is moved to the front of the buffer in the end. Every access to the buffer is checked
against its bounds here, and a loop that leaves them has no outcome. Of the descriptors that come
the first is kept; the others are closed, and so is the first if the loop ends without a frame.

* `Stream.Buffer`, `Buffer.read?`, `Buffer.write?`: the buffer and the accesses to it.
* `Stream.draw`, `Stream.receives`: what a single receive takes, and how it ends.
* `Stream.Receiver`, `Receiver.turn`, `Receiver.run`: the loop, one turn of it, and all of it.
* `Receiver.exists_run`: what each turn keeps holds in the end, and there is an end.
* `Stream.fillOn`: what is left of filling, once some bytes are there.
-/
import FileBroker.Proofs.LateReplies

namespace FileBroker.Stream

variable {δ : Type}

/-! ### The buffer -/

/-- The room that a frame may need. -/
def frameRoom : ℕ := Wire.headerLength + Wire.capacity

/-- A buffer that frames are received into. What is in it at first may be anything. -/
structure Buffer where
  bytes : Bytes
  length_eq : bytes.length = frameRoom

namespace Buffer

/-- The bytes from one position up to another, if the buffer has them. -/
def read? (b : Buffer) (start stop : ℕ) : Option Bytes :=
  if start ≤ stop ∧ stop ≤ frameRoom then some ((b.bytes.take stop).drop start) else none

/-- The buffer with some bytes written from a position on, if they are within it. -/
def write? (b : Buffer) (start : ℕ) (bytes : Bytes) : Option Buffer :=
  if h : start + bytes.length ≤ frameRoom then
    some ⟨b.bytes.take start ++ bytes ++ b.bytes.drop (start + bytes.length), by
      have := b.length_eq
      simp only [List.length_append, List.length_take, List.length_drop]
      omega⟩
  else none

lemma read?_eq (b : Buffer) {start stop : ℕ} (h : start ≤ stop) (h' : stop ≤ frameRoom) :
    b.read? start stop = some ((b.bytes.take stop).drop start) := if_pos ⟨h, h'⟩

lemma read?_length {b : Buffer} {start stop : ℕ} {bytes : Bytes}
    (h : b.read? start stop = some bytes) : start ≤ stop ∧ bytes.length = stop - start := by
  rw [read?] at h
  split at h
  · next hb =>
    obtain rfl := Option.some.inj h
    have := b.length_eq
    rw [List.length_drop, List.length_take]
    omega
  · cases h

/-- Bytes that are written after some others follow them. -/
lemma write?_take (b : Buffer) (start : ℕ) (bytes : Bytes) (h : start + bytes.length ≤ frameRoom) :
    ∃ b', b.write? start bytes = some b' ∧
      b'.bytes.take (start + bytes.length) = b.bytes.take start ++ bytes := by
  refine ⟨_, dif_pos h, List.take_left' ?_⟩
  have := b.length_eq
  rw [List.length_append, List.length_take]
  omega

end Buffer

/-! ### A single receive -/

/-- What a receive takes of the arrivals: nothing if it is interrupted or finds nothing. -/
def draw (want : ℕ) (arrivals : List (Arrival δ)) : Chunk δ :=
  ⟨(gather want arrivals).bytes, (gather want arrivals).descriptors⟩

/-- The descriptors of a piece that get through to the receiver: those there is room for. -/
def Chunk.admitted (c : Chunk δ) : List δ := c.descriptors.take descriptorLimit

/-- Some pieces are what was taken between two points of a stream: their bytes and their descriptors
are those of the cargo between them. -/
def Drawn (pieces : List (Chunk δ)) (before after : List (Arrival δ)) : Prop :=
  ∃ taken, cargo before = taken ++ cargo after ∧ taken.map Prod.fst = bytesOf pieces ∧
    taken.flatMap Prod.snd = descriptorsOf pieces

lemma bytesOf_concat (pieces : List (Chunk δ)) (c : Chunk δ) :
    bytesOf (pieces ++ [c]) = bytesOf pieces ++ c.bytes := by
  simp [bytesOf]

lemma descriptorsOf_concat (pieces : List (Chunk δ)) (c : Chunk δ) :
    descriptorsOf (pieces ++ [c]) = descriptorsOf pieces ++ c.descriptors := by
  simp [descriptorsOf]

/-- A piece without bytes and descriptors adds nothing. -/
lemma bytesOf_concat_empty (pieces : List (Chunk δ)) :
    bytesOf (pieces ++ [⟨[], []⟩]) = bytesOf pieces := by
  rw [bytesOf_concat, List.append_nil]

lemma descriptorsOf_concat_empty (pieces : List (Chunk δ)) :
    descriptorsOf (pieces ++ [⟨[], []⟩]) = descriptorsOf pieces := by
  rw [descriptorsOf_concat, List.append_nil]

namespace Drawn

variable {pieces : List (Chunk δ)} {c : Chunk δ} {first second third : List (Arrival δ)}

lemma refl (arrivals : List (Arrival δ)) : Drawn [] arrivals arrivals := ⟨[], rfl, rfl, rfl⟩

lemma concat (h : Drawn pieces first second) (h' : Drawn [c] second third) :
    Drawn (pieces ++ [c]) first third := by
  obtain ⟨taken, hc, hb, hd⟩ := h
  obtain ⟨taken', hc', hb', hd'⟩ := h'
  refine ⟨taken ++ taken', ?_, ?_, ?_⟩
  · rw [hc, hc', List.append_assoc]
  · rw [List.map_append, hb, hb', bytesOf_concat]
    simp [bytesOf]
  · rw [List.flatMap_append, hd, hd', descriptorsOf_concat]
    simp [descriptorsOf]

/-- A receive that takes nothing leaves what there is. -/
lemma of_cargo_eq (h : cargo second = cargo first) : Drawn [⟨[], []⟩] first second :=
  ⟨[], h.symm, rfl, rfl⟩

lemma bytes_eq (h : Drawn pieces first second) :
    (cargo first).map Prod.fst = bytesOf pieces ++ (cargo second).map Prod.fst := by
  obtain ⟨taken, hc, hb, -⟩ := h
  rw [hc, List.map_append, hb]

lemma descriptors_eq (h : Drawn pieces first second) :
    (cargo first).flatMap Prod.snd = descriptorsOf pieces ++ (cargo second).flatMap Prod.snd := by
  obtain ⟨taken, hc, -, hd⟩ := h
  rw [hc, List.flatMap_append, hd]

end Drawn

/-- All that a receive can do, with the piece that it takes, how it ends and what it leaves. -/
inductive Receives (ended : Bool) (want : ℕ) (arrivals : List (Arrival δ)) :
    Chunk δ → Receipt δ × List (Arrival δ) → Prop
  | interrupted {rest : List (Arrival δ)} (same : cargo rest = cargo arrivals)
      (fewer : rest.length < arrivals.length) :
      Receives ended want arrivals ⟨[], []⟩ (.interrupted, rest)
  | starved (nothing : cargo arrivals = []) :
      Receives ended want arrivals ⟨[], []⟩
        (if ended then .endOfStream else .failed .wouldBlock, [])
  | overloaded {piece : Chunk δ} {rest : List (Arrival δ)}
      (heavy : descriptorLimit < piece.descriptors.length) (short : piece.bytes.length ≤ want)
      (drawn : Drawn [piece] arrivals rest) (left : rest.length ≤ arrivals.length) :
      Receives ended want arrivals piece (.failed .messageTooLong, rest)
  | delivered {piece : Chunk δ} {rest : List (Arrival δ)}
      (light : piece.descriptors.length ≤ descriptorLimit) (pos : 0 < piece.bytes.length)
      (short : piece.bytes.length ≤ want) (drawn : Drawn [piece] arrivals rest)
      (left : rest.length ≤ arrivals.length) :
      Receives ended want arrivals piece (.delivered piece.bytes piece.descriptors, rest)

lemma draw_drawn (want : ℕ) (arrivals : List (Arrival δ)) :
    Drawn [draw want arrivals] arrivals (gather want arrivals).rest := by
  obtain ⟨taken, hc, hb, hd⟩ := gather_cargo want arrivals
  exact ⟨taken, hc, by simp [bytesOf, draw, hb], by simp [descriptorsOf, draw, hd]⟩

/-- Chunks without bytes are passed over. -/
lemma draw_chunk_nil {want : ℕ} (hw : 0 < want) {c : Chunk δ} (hc : c.bytes = [])
    (rest : List (Arrival δ)) : draw want (.chunk c :: rest) = draw want rest := by
  rw [draw, gather, if_neg (by omega), if_pos hc]
  rfl

lemma receives (ended : Bool) {want : ℕ} (hw : 0 < want) (arrivals : List (Arrival δ)) :
    Receives ended want arrivals (draw want arrivals) (receiveFrom ended want arrivals) := by
  fun_induction receiveFrom ended want arrivals with
  | case1 => exact .starved rfl
  | case2 rest => exact .interrupted rfl (Nat.lt_succ_self _)
  | case3 c rest hc ih =>
    have hskip : cargo (.chunk c :: rest) = cargo rest := by
      rw [cargo_chunk, Chunk.cargo, hc]
      rfl
    have hdrawn {piece : Chunk δ} {left : List (Arrival δ)} (h : Drawn [piece] rest left) :
        Drawn [piece] (.chunk c :: rest) left := by
      rw [Drawn, hskip]
      exact h
    rw [draw_chunk_nil hw hc]
    generalize draw want rest = piece at ih ⊢
    generalize receiveFrom ended want rest = got at ih ⊢
    cases ih with
    | interrupted same fewer => exact .interrupted (same.trans hskip.symm) (Nat.lt_succ_of_lt fewer)
    | starved nothing => exact .starved (hskip.trans nothing)
    | overloaded heavy short drawn left =>
      exact .overloaded heavy short (hdrawn drawn) (Nat.le_succ_of_le left)
    | delivered light pos short drawn left =>
      exact .delivered light pos short (hdrawn drawn) (Nat.le_succ_of_le left)
  | case4 c rest hc t =>
    have hleft := gather_rest_length_le want (.chunk c :: rest)
    have hshort := gather_bytes_length_le want (.chunk c :: rest)
    split
    · next heavy => exact .overloaded heavy hshort (draw_drawn _ _) hleft
    · next light =>
      exact .delivered (Nat.le_of_not_lt light) (gather_bytes_length_pos hw hc rest) hshort
        (draw_drawn _ _) hleft

/-! ### The loop -/

/-- The state of the loop: the buffer and how much of it is filled, the length of the body if the
header has told it, the descriptor that is kept, and what is on its way. Beside it stand the piece
that each receive has taken and the descriptors that were closed. -/
structure Receiver (δ : Type) where
  buffer : Buffer
  filled : ℕ
  expected : Option ℕ
  descriptor : Option δ
  inlet : Inlet δ
  pieces : List (Chunk δ)
  closed : List δ

/-- What the loop ends with: its result, what is left on its way, the piece that each receive has
taken, and the descriptors that were closed. -/
structure Reception (δ : Type) where
  result : Except FrameFault (Frame δ)
  inlet : Inlet δ
  pieces : List (Chunk δ)
  closed : List δ

namespace Receiver

/-- The loop before its first turn. -/
def start (b : Buffer) (s : Inlet δ) : Receiver δ := ⟨b, 0, none, none, s, [], []⟩

/-- The number of bytes that are to be in the buffer before anything is done with them. -/
def want (r : Receiver δ) : ℕ := Wire.headerLength + r.expected.getD 0

/-- The end without a frame: the descriptor that was kept is closed. -/
def fail (r : Receiver δ) (fault : FrameFault) : Reception δ :=
  ⟨.error fault, r.inlet, r.pieces, r.closed ++ r.descriptor.toList⟩

/-- The header is there: it tells how much is to come. -/
def decode (r : Receiver δ) : Option (Receiver δ ⊕ Reception δ) :=
  (r.buffer.read? 0 Wire.headerLength).map fun header =>
    match Wire.bodyLength header with
    | .error _ => .inr (r.fail (.failed .messageTooLong))
    | .ok length => .inl { r with expected := some length }

/-- The body is there: it is moved to the front of the buffer and read from there. -/
def finish (r : Receiver δ) (length : ℕ) : Option (Reception δ) :=
  (r.buffer.read? Wire.headerLength (Wire.headerLength + length)).bind fun moved =>
    (r.buffer.write? 0 moved).bind fun buffer =>
      (buffer.read? 0 length).map fun body =>
        ⟨.ok ⟨body, r.descriptor⟩, r.inlet, r.pieces, r.closed⟩

/-- The loop after a receive that took a piece and left some arrivals. -/
def received (r : Receiver δ) (piece : Chunk δ) (rest : List (Arrival δ)) : Receiver δ :=
  { r with
    inlet := { r.inlet with arrivals := rest }
    pieces := r.pieces ++ [piece] }

/-- The loop with more bytes in its buffer. Of the descriptors that came with them the first is kept
if there was none before; the others are closed. -/
def keep (r : Receiver δ) (buffer : Buffer) (bytes : Bytes) (descriptors : List δ) : Receiver δ :=
  { r with
    buffer := buffer
    filled := r.filled + bytes.length
    descriptor := r.descriptor <|> descriptors.head?
    closed := r.closed ++ if r.descriptor.isSome then descriptors else descriptors.tail }

/-- The loop with the descriptors of a piece closed, so far as they got through. -/
def reject (r : Receiver δ) (piece : Chunk δ) : Receiver δ :=
  { r with closed := r.closed ++ piece.admitted }

/-- One receive into the part of the buffer that is to be filled. -/
def take (r : Receiver δ) : Option (Receiver δ ⊕ Reception δ) :=
  (r.buffer.read? r.filled r.want).bind fun window =>
    let piece := draw window.length r.inlet.arrivals
    let got := receiveFrom r.inlet.ended window.length r.inlet.arrivals
    let r' := r.received piece got.2
    match got.1 with
    | .interrupted => some (.inl r')
    | .endOfStream => some (.inr (r'.fail .endOfStream))
    | .failed errno => some (.inr ((r'.reject piece).fail (.failed errno)))
    | .delivered bytes descriptors =>
      (r.buffer.write? r.filled bytes).map fun buffer => .inl (r'.keep buffer bytes descriptors)

/-- One turn of the loop: it goes on or comes to an end, unless it leaves the buffer. -/
def turn (r : Receiver δ) : Option (Receiver δ ⊕ Reception δ) :=
  if r.filled = r.want then
    match r.expected with
    | none => r.decode
    | some length => (r.finish length).map .inr
  else r.take

/-- How far the loop is from its end: a header may announce so many bytes, and every receive takes
some of these or is interrupted by an arrival. -/
def distance (r : Receiver δ) : ℕ :=
  r.expected.elim (Wire.capacity + 1) (fun _ => 0) + (r.want - r.filled) + r.inlet.arrivals.length

lemma bodyLength_le {header : Bytes} {length : ℕ} (h : Wire.bodyLength header = .ok length) :
    length ≤ Wire.capacity := by
  simp only [Wire.bodyLength] at h
  grind

lemma take_distance_lt {r r' : Receiver δ} (hne : r.filled ≠ r.want)
    (h : r.take = some (.inl r')) : r'.distance < r.distance := by
  obtain ⟨window, hwindow, h⟩ := Option.bind_eq_some_iff.mp h
  obtain ⟨hle, hlen⟩ := Buffer.read?_length hwindow
  have hr := receives r.inlet.ended (by omega : 0 < window.length) r.inlet.arrivals
  dsimp only at h
  generalize draw window.length r.inlet.arrivals = piece at hr h
  generalize receiveFrom r.inlet.ended window.length r.inlet.arrivals = got at hr h
  cases hr with
  | interrupted same fewer =>
    obtain rfl := Sum.inl.inj (Option.some.inj h)
    simp only [distance, want, received]
    omega
  | starved =>
    cases hended : r.inlet.ended <;> simp [hended] at h
  | overloaded => simp at h
  | delivered light pos short drawn left =>
    obtain ⟨y, hy, rfl⟩ := Option.map_eq_some_iff.mp (by simpa using h)
    simp only [distance, want, received, keep] at *
    omega

lemma turn_distance_lt {r r' : Receiver δ} (h : r.turn = some (.inl r')) :
    r'.distance < r.distance := by
  rw [turn] at h
  split at h
  · next heq =>
    split at h
    · next hexpected =>
      obtain ⟨header, -, h⟩ := Option.map_eq_some_iff.mp h
      split at h
      · cases h
      · next length hlength =>
        have := bodyLength_le hlength
        obtain rfl := Sum.inl.inj h
        simp only [distance, want, hexpected, Option.elim_none, Option.elim_some,
          Option.getD_none, Option.getD_some] at *
        omega
    · simp at h
  · next hne => exact take_distance_lt hne h

/-- The loop from some state on, unless it leaves the buffer. -/
def run (r : Receiver δ) : Option (Reception δ) :=
  match h : r.turn with
  | none => none
  | some (.inr v) => some v
  | some (.inl r') =>
    have := turn_distance_lt h
    r'.run
termination_by r.distance

/-- What holds at first and is kept by every turn leads to an end, and to what the last turn makes
of it. -/
lemma exists_run {Inv : Receiver δ → Prop} {End : Reception δ → Prop}
    (hturn : ∀ r, Inv r → ∃ y, r.turn = some y ∧ Sum.elim Inv End y) {r : Receiver δ} (h : Inv r) :
    ∃ v, r.run = some v ∧ End v := by
  fun_induction run r with
  | case1 r hr =>
    obtain ⟨y, hy, -⟩ := hturn r h
    cases hr.symm.trans hy
  | case2 r v hr =>
    obtain ⟨y, hy, hend⟩ := hturn r h
    obtain rfl := Option.some.inj (hr.symm.trans hy)
    exact ⟨v, rfl, hend⟩
  | case3 r r' hr _ ih =>
    obtain ⟨y, hy, hinv⟩ := hturn r h
    obtain rfl := Option.some.inj (hr.symm.trans hy)
    exact ih hinv

end Receiver

/-- A frame received into a buffer, unless the loop leaves the buffer. -/
def receive (b : Buffer) (s : Inlet δ) : Option (Reception δ) := (Receiver.start b s).run

/-! ### What is left of filling -/

variable {want : ℕ} {fd : Option δ} {s : Inlet δ} {rest : List (Arrival δ)}

/-- Exactly so many bytes more after some that are there already. -/
def fillOn (got : Bytes) (want : ℕ) (fd : Option δ) (s : Inlet δ) :
    Except FrameFault (Bytes × Option δ) × Inlet δ :=
  match fill want fd s with
  | (.ok (more, fd'), s') => (.ok (got ++ more, fd'), s')
  | (.error fault, s') => (.error fault, s')

/-- Filling is a receive, and filling what this has left. -/
lemma fill_eq (fd : Option δ) (s : Inlet δ) (hw : 0 < want) :
    fill want fd s =
      match receiveFrom s.ended want s.arrivals with
      | (.interrupted, rest) => fill want fd { s with arrivals := rest }
      | (.endOfStream, rest) => (.error .endOfStream, { s with arrivals := rest })
      | (.failed errno, rest) => (.error (.failed errno), { s with arrivals := rest })
      | (.delivered bytes descriptors, rest) =>
        fillOn bytes (want - bytes.length) (fd <|> descriptors.head?)
          { s with arrivals := rest } := by
  rw [fill, dif_neg (by omega)]
  split
  · next h => simp only [h]
  · next h => simp only [h]
  · next h => simp only [h]
  · next h =>
    simp only [h]
    rfl

lemma fillOn_nil (want : ℕ) (fd : Option δ) (s : Inlet δ) :
    fillOn [] want fd s = fill want fd s := by
  rw [fillOn]
  split <;> next h => exact h.symm

lemma fillOn_zero (got : Bytes) (fd : Option δ) (s : Inlet δ) :
    fillOn got 0 fd s = (.ok (got, fd), s) := by
  rw [fillOn, fill, dif_pos rfl]
  simp

/-- An interrupted receive is repeated. -/
lemma fillOn_interrupted (got : Bytes) (fd : Option δ) (hw : 0 < want)
    (h : receiveFrom s.ended want s.arrivals = (.interrupted, rest)) :
    fillOn got want fd s = fillOn got want fd { s with arrivals := rest } := by
  rw [fillOn, fill_eq fd s hw, h]
  rfl

lemma fillOn_endOfStream (got : Bytes) (fd : Option δ) (hw : 0 < want)
    (h : receiveFrom s.ended want s.arrivals = (.endOfStream, rest)) :
    fillOn got want fd s = (.error .endOfStream, { s with arrivals := rest }) := by
  rw [fillOn, fill_eq fd s hw, h]

lemma fillOn_failed {errno : Errno} (got : Bytes) (fd : Option δ) (hw : 0 < want)
    (h : receiveFrom s.ended want s.arrivals = (.failed errno, rest)) :
    fillOn got want fd s = (.error (.failed errno), { s with arrivals := rest }) := by
  rw [fillOn, fill_eq fd s hw, h]

/-- A receive that delivers something leaves the rest to be filled. -/
lemma fillOn_delivered {bytes : Bytes} {descriptors : List δ} (got : Bytes) (fd : Option δ)
    (hw : 0 < want)
    (h : receiveFrom s.ended want s.arrivals = (.delivered bytes descriptors, rest)) :
    fillOn got want fd s = fillOn (got ++ bytes) (want - bytes.length) (fd <|> descriptors.head?)
      { s with arrivals := rest } := by
  rw [fillOn, fill_eq fd s hw, h, fillOn]
  dsimp only [fillOn]
  rcases fill (want - bytes.length) (fd <|> descriptors.head?) { s with arrivals := rest } with
    ⟨fault | ⟨more, fd'⟩, s'⟩
  · rfl
  · simp only [List.append_assoc]

end FileBroker.Stream
