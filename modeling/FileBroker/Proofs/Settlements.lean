/-
How a call ends.

A client receives the reply to its call into a buffer, reads the reply where it stands, moves its
payload to the front of the buffer and copies from there what the caller gets. Here all accesses to
the buffers are checked against their bounds and the sign of a return code is changed with a check,
and a call that fails a check has no outcome. Open files are held with the mark that closes them
when another program is run. Beside this stands what a reply means, as a relation that says nothing
of buffers.

* `Client.settlement?`, `Client.call?`: the end of a call, and a whole call, with every check.
* `Client.Gives`, `Client.Told`: what a reply that reports success gives, and what a call comes to.
* `Client.settlement?_told`, `Client.Told.unique`: a call comes to what is told of it alone.
* `Client.Told.answer_eq`: which is what it gives.
* `Client.Settles`, `Client.call_settles`: every call whose request was sent comes to an end.
-/
import FileBroker.Handle
import FileBroker.Proofs.Cursors
import FileBroker.Proofs.Receptions

namespace FileBroker

open FileBroker.Connection (frame littleEndian)
open FileBroker.Stream (Buffer Chunk Frame FrameFault Inlet Outlet Reception receive receiveFrame
  starvation)

variable {ε : Type}

/-! ### Buffers -/

namespace Stream.Buffer

/-- Some bytes stand at the front of the buffer. -/
def Begins (b : Buffer) (bytes : Bytes) : Prop := b.read? 0 bytes.length = some bytes

lemma begins_iff {b : Buffer} {bytes : Bytes} :
    b.Begins bytes ↔ bytes.length ≤ frameRoom ∧ b.bytes.take bytes.length = bytes := by
  rw [Begins, read?]
  split
  · next h => simp [h.2]
  · next h => simp_all

/-- What is written to the front stands there. -/
lemma write?_begins (b : Buffer) {bytes : Bytes} (h : bytes.length ≤ frameRoom) :
    ∃ b', b.write? 0 bytes = some b' ∧ b'.Begins bytes := by
  obtain ⟨b', hb, htake⟩ := b.write?_take 0 bytes (by omega)
  refine ⟨b', hb, begins_iff.mpr ⟨h, ?_⟩⟩
  rwa [Nat.zero_add, List.take_zero, List.nil_append] at htake

/-- A part of what stands at the front is read at its place. -/
lemma Begins.read?_slice {b : Buffer} {bytes : Bytes} (h : b.Begins bytes) {s : Wire.Slice}
    (hs : s.Of bytes) : b.read? s.start (s.start + s.bytes.length) = some s.bytes := by
  obtain ⟨hroom, htake⟩ := begins_iff.mp h
  rw [Wire.Slice.Of, Wire.slice?] at hs
  split at hs
  · next hle =>
    rw [read?_eq b hle.1 (hle.2.trans hroom), ← hs, ← htake, List.take_take,
      Nat.min_eq_left hle.2]
  · cases hs

/-- Fewer bytes than stand at the front stand there too. -/
lemma Begins.read?_take {b : Buffer} {bytes : Bytes} (h : b.Begins bytes) {n : ℕ}
    (hn : n ≤ bytes.length) : b.read? 0 n = some (bytes.take n) := by
  obtain ⟨hroom, htake⟩ := begins_iff.mp h
  rw [read?_eq b (Nat.zero_le _) (hn.trans hroom), List.drop_zero, ← htake, List.take_take,
    Nat.min_eq_left hn]

end Stream.Buffer

namespace Client

/-- The answer without the marks that the files had for their sender. -/
def Answer.plain : Answer (Handle ε) → Answer ε
  | .done => .done
  | .opened h closeOnExec => .opened h.file closeOnExec
  | .link length buffer => .link length buffer
  | .status bytes => .status bytes

/-! ### The end of a call, with every check -/

/-- What a successful call gives: nothing, an open file, the number of bytes written to the caller's
buffer and that buffer, or a status structure. -/
inductive Settled (ε : Type) where
  | done
  | opened (h : Handle ε)
  | link (length : ℕ) (buffer : Bytes)
  | status (bytes : Bytes)

/-- What was given, with the mark told beside the file. -/
def Settled.answer : Settled ε → Answer ε
  | done => .done
  | opened h => .opened h.file h.closeOnExec
  | link length buffer => .link length buffer
  | status bytes => .status bytes

/-- A reply that was read: its return code, the length of its payload, and the buffer that holds the
payload at its front. -/
structure Unpacked where
  code : Word
  length : ℕ
  buffer : Buffer

/-- Moving the payload of a reply to the front of the buffer, once it is known where it is. -/
def carry? (b : Buffer) : Except Wire.Fault (Word × Option Wire.Slice) →
    Option (Except Errno Unpacked)
  | .error _ => some (.error .inputOutput)
  | .ok (code, none) => some (.ok ⟨code, 0, b⟩)
  | .ok (code, some s) =>
    (b.read? s.start (s.start + s.bytes.length)).bind fun moved =>
      (b.write? 0 moved).map fun b' => .ok ⟨code, s.bytes.length, b'⟩

/-- Reading a reply of some length that stands at the front of a buffer. -/
def unpack? (b : Buffer) (length : ℕ) : Option (Except Errno Unpacked) :=
  (b.read? 0 length).bind fun body =>
    (Reply.locate body 0).bind fun located => carry? b located.1

/-- The caller's buffer after the first `n` bytes of another one were copied to its front. -/
def copy? (buffer : Bytes) (b : Buffer) (n : ℕ) : Option Bytes :=
  (b.read? 0 n).bind fun bytes =>
    if bytes.length ≤ buffer.length then some (bytes ++ buffer.drop bytes.length) else none

/-- What a reply that reports success gives to a call. -/
def grant? (q : Query) (u : Unpacked) (fd : Option (Handle ε)) :
    Option (Except Errno (Settled ε)) :=
  match q.request with
  | .access .. => some (.ok .done)
  | .openFile _ flags =>
    match fd with
    | some h =>
      some (.ok (.opened (if flags.overlaps OpenFlags.closeOnExec then h else h.unmarked)))
    | none => some (.error .inputOutput)
  | .readlink _ =>
    (copy? q.buffer u.buffer (min u.length q.buffer.length)).map fun buffer =>
      .ok (.link (min u.length q.buffer.length) buffer)
  | .rename .. => some (.ok .done)
  | .stat .. =>
    (u.buffer.read? 0 u.length).map fun bytes =>
      if bytes.length = Status.length then .ok (.status bytes) else .error .inputOutput

/-- The word of the other sign, which the least word does not have. -/
def negated? (code : Word) : Option Word := if code = Int32.minValue then none else some (-code)

/-- The error that is told where no frame could be received. -/
def errnoOf : FrameFault → Errno
  | .endOfStream => .inputOutput
  | .failed errno => errno

/-- What a call comes to once its reply was read. -/
def conclude? (q : Query) (fd : Option (Handle ε)) :
    Except Errno Unpacked → Option (Except Errno (Settled ε))
  | .error errno => some (.error errno)
  | .ok u =>
    if u.code < 0 then (negated? u.code).map fun code => .error ⟨code⟩
    else grant? q u fd

/-- The end of a call after its reply was received. The buffer holds the body of the reply at its
front, and behind it what another buffer has. -/
def settlement? (behind : Buffer) (q : Query) (result : Except FrameFault (Frame (Handle ε))) :
    Option (Except Errno (Settled ε)) :=
  match result with
  | .error fault => some (.error (errnoOf fault))
  | .ok f =>
    (behind.write? 0 f.body).bind fun b =>
      (unpack? b f.body.length).bind (conclude? q (f.descriptor.map Handle.installed))

/-- What became of a call: its result, what it sent, and the connection after it. -/
structure Settlement (ε : Type) where
  result : Except Errno (Settled ε)
  sent : List (Chunk (Handle ε))
  line : Line (Handle ε)

/-- A call with every check. What is in the buffer at first and behind the reply may be anything. -/
def call? (c : Client) (q : Query) (b behind : Buffer) (line : Line (Handle ε)) :
    Option (Settlement ε) :=
  match c.prepare q.request with
  | .error errno => some ⟨.error errno, [], line⟩
  | .ok message =>
    match line.outlet.send .interrupted message.frame none with
    | (.error errno, sent, outlet) => some ⟨.error errno, sent, { line with outlet }⟩
    | (.ok (), sent, outlet) =>
      (receive b line.inlet).bind fun v =>
        (settlement? behind q v.result).map fun result => ⟨result, sent, ⟨v.inlet, outlet⟩⟩

/-! ### What a reply means -/

/-- What a reply that reports success gives to a call, by its payload and the file that came with
it. -/
inductive Gives (q : Query) (payload : Bytes) (fd : Option (Handle ε)) :
    Except Errno (Settled ε) → Prop
  | access {path : Path} {mode : Word} (hq : q.request = .access path mode) :
    Gives q payload fd (.ok .done)
  | rename {old new : Path} (hq : q.request = .rename old new) : Gives q payload fd (.ok .done)
  | opened {path : Path} {flags : Word} {h : Handle ε} (hq : q.request = .openFile path flags)
    (hfd : fd = some h) :
    Gives q payload fd (.ok (.opened ⟨h.file, flags.bit OpenFlags.closeOnExecBit⟩))
  | unopened {path : Path} {flags : Word} (hq : q.request = .openFile path flags)
    (hfd : fd = none) : Gives q payload fd (.error .inputOutput)
  | link {path : Path} {n : ℕ} (hq : q.request = .readlink path)
    (hn : n = min payload.length q.buffer.length) :
    Gives q payload fd (.ok (.link n (payload.take n ++ q.buffer.drop n)))
  | status {path : Path} {follow large : Bool} (hq : q.request = .stat path follow large)
    (hl : payload.length = 144) : Gives q payload fd (.ok (.status payload))
  | misfit {path : Path} {follow large : Bool} (hq : q.request = .stat path follow large)
    (hl : payload.length ≠ 144) : Gives q payload fd (.error .inputOutput)

/-- What a call comes to, by what was received for it. -/
inductive Told (q : Query) :
    Except FrameFault (Frame (Handle ε)) → Except Errno (Settled ε) → Prop
  | endOfStream : Told q (.error .endOfStream) (.error .inputOutput)
  | failed {errno : Errno} : Told q (.error (.failed errno)) (.error errno)
  | unreadable {f : Frame (Handle ε)} (hbody : ∀ r : Reply, f.body ≠ r.bytes) :
    Told q (.ok f) (.error .inputOutput)
  | refused {f : Frame (Handle ε)} {r : Reply} {errno : Errno} (hbody : f.body = r.bytes)
    (negative : r.returnCode.toInt < 0) (told : errno.code.toInt = -r.returnCode.toInt) :
    Told q (.ok f) (.error errno)
  | granted {f : Frame (Handle ε)} {r : Reply} {w : Except Errno (Settled ε)}
    (hbody : f.body = r.bytes) (positive : 0 ≤ r.returnCode.toInt)
    (gives : Gives q (r.payload.getD []) f.descriptor w) : Told q (.ok f) w

/-! ### A call comes to what is told of it -/

variable {q : Query} {f : Frame (Handle ε)} {result : Except FrameFault (Frame (Handle ε))}
  {w w' : Except Errno (Settled ε)}

lemma negated?_eq {code : Word} (h : code ≠ Int32.minValue) :
    negated? code = some (-code) ∧ (-code).toInt = -code.toInt := by
  refine ⟨if_neg h, ?_⟩
  have hlow := code.le_toInt
  have hhigh := code.toInt_lt
  have hne : code.toInt ≠ -2 ^ 31 := fun heq =>
    h (Int32.toInt_inj.mp (heq.trans Int32.toInt_minValue.symm))
  rw [Int32.toInt_neg, Int.bmod_eq_of_le (by omega) (by omega)]

/-- Unpacking tells what the reply holds, and leaves its payload at the front of the buffer. -/
lemma unpack?_spec {b : Buffer} {body : Bytes} (hb : b.Begins body) :
    (∃ fault, Reply.decode body = .error fault ∧
        unpack? b body.length = some (.error .inputOutput)) ∨
      ∃ r u, Reply.decode body = .ok r ∧ unpack? b body.length = some (.ok u) ∧
        u.code = r.returnCode ∧ u.length = (r.payload.getD []).length ∧
        u.buffer.Begins (r.payload.getD []) := by
  obtain ⟨value, position, hlocate, hvalue⟩ := Reply.locate_spec body
  have hunpack : unpack? b body.length = carry? b value := by
    rw [unpack?, hb, Option.bind_some, hlocate, Option.bind_some]
  obtain ⟨fault, rfl, hd⟩ | ⟨⟨code, place⟩, r, rfl, hd, hlocated⟩ := hvalue
  · exact .inl ⟨fault, hd, hunpack⟩
  refine .inr ⟨r, ?_⟩
  have hcode : code = r.returnCode := hlocated.returnCode
  have hpayload : place.map Wire.Slice.bytes = r.payload := hlocated.payload
  rcases place with _ | s
  · refine ⟨⟨code, 0, b⟩, hd, hunpack, hcode, ?_, ?_⟩
    · rw [← hpayload]
      rfl
    · rw [← hpayload]
      exact Stream.Buffer.begins_iff.mpr ⟨Nat.zero_le _, rfl⟩
  · have hs : s.Of body := hlocated.place s rfl
    have hread := hb.read?_slice hs
    have hroom : s.bytes.length ≤ Stream.frameRoom := by
      rw [Stream.Buffer.read?] at hread
      split at hread
      · next hle => omega
      · cases hread
    obtain ⟨b', hwrite, hbegins⟩ := b.write?_begins hroom
    refine ⟨⟨code, s.bytes.length, b'⟩, hd, ?_, hcode, ?_, ?_⟩
    · rw [hunpack, carry?, hread, Option.bind_some, hwrite, Option.map_some]
    · rw [← hpayload]
      rfl
    · rw [← hpayload]
      exact hbegins

/-- What is given is what the reply means. -/
lemma grant?_gives (q : Query) {u : Unpacked} {payload : Bytes} (hl : u.length = payload.length)
    (hb : u.buffer.Begins payload) (fd : Option (Handle ε)) :
    ∃ w, grant? q u (fd.map Handle.installed) = some w ∧ Gives q payload fd w := by
  unfold grant?
  split
  · next path mode hq => exact ⟨_, rfl, .access hq⟩
  · next path flags hq =>
    rcases fd with _ | h
    · exact ⟨_, rfl, .unopened hq rfl⟩
    · have hmark : (if flags.overlaps OpenFlags.closeOnExec then h.installed
          else h.installed.unmarked) = ⟨h.file, flags.bit OpenFlags.closeOnExecBit⟩ := by
        rw [OpenFlags.overlaps_closeOnExec]
        cases flags.bit OpenFlags.closeOnExecBit <;> rfl
      refine ⟨_, rfl, ?_⟩
      rw [hmark]
      exact .opened hq rfl
  · next path hq =>
    set n := min payload.length q.buffer.length
    have hn : (payload.take n).length = n := by
      rw [List.length_take]
      omega
    have hcopy : copy? q.buffer u.buffer n = some (payload.take n ++ q.buffer.drop n) := by
      rw [copy?, hb.read?_take (Nat.min_le_left ..), Option.bind_some, hn,
        if_pos (Nat.min_le_right ..)]
    rw [hl, hcopy]
    exact ⟨_, rfl, .link hq rfl⟩
  · next old new hq => exact ⟨_, rfl, .rename hq⟩
  · next path follow large hq =>
    rw [hl, hb, Option.map_some]
    refine ⟨_, rfl, ?_⟩
    split_ifs with hs
    · exact .status hq hs
    · exact .misfit hq hs

/-- No reply that is received has the return code whose sign cannot be changed. -/
def Negatable (result : Except FrameFault (Frame (Handle ε))) : Prop :=
  ∀ f r, result = .ok f → f.body = Reply.bytes r → r.returnCode ≠ Int32.minValue

lemma negatable_reply {r : Reply} (hl : r.bytes.length ≤ Wire.capacity)
    (hr : r.returnCode ≠ Int32.minValue) (fd : Option (Handle ε)) :
    Negatable (.ok ⟨r.bytes, fd⟩) := by
  intro f r' hf hr'
  obtain rfl := Except.ok.inj hf
  have hd : Reply.decode r.bytes = .ok r' := (Reply.decode_eq_ok_iff hl).mpr hr'
  obtain rfl := Except.ok.inj ((Reply.decode_bytes hl).symm.trans hd)
  exact hr

/-- What is received fits the room for a body. -/
def Bounded (result : Except FrameFault (Frame (Handle ε))) : Prop :=
  ∀ f, result = .ok f → f.body.length ≤ Wire.capacity

/-- No check fails at the end of a call, and it comes to what is told of it. -/
lemma settlement?_told (behind : Buffer) (q : Query) (hbound : Bounded result)
    (hcode : Negatable result) :
    ∃ w, settlement? behind q result = some w ∧ Told q result w := by
  rcases result with (_ | errno) | f
  · exact ⟨_, rfl, .endOfStream⟩
  · exact ⟨_, rfl, .failed⟩
  have hlength := hbound f rfl
  have hroom : f.body.length ≤ Stream.frameRoom := hlength.trans (Nat.le_add_left ..)
  obtain ⟨b, hwrite, hb⟩ := behind.write?_begins hroom
  rw [settlement?, hwrite, Option.bind_some]
  obtain ⟨fault, hd, hunpack⟩ | ⟨r, u, hd, hunpack, hu, hl, hbegins⟩ := unpack?_spec hb
  · refine ⟨.error .inputOutput, by rw [hunpack, Option.bind_some, conclude?], .unreadable ?_⟩
    intro r hr
    rw [(Reply.decode_eq_ok_iff hlength).mpr hr] at hd
    cases hd
  have hr : f.body = r.bytes := (Reply.decode_eq_ok_iff hlength).mp hd
  rw [hunpack, Option.bind_some, conclude?]
  by_cases hneg : u.code < 0
  · obtain ⟨hnegated, hint⟩ := negated?_eq (hu ▸ hcode f r rfl hr)
    rw [if_pos hneg, hnegated]
    refine ⟨_, rfl, .refused hr ?_ ?_⟩
    · rw [← hu]
      exact Int32.lt_iff_toInt_lt.mp hneg
    · rw [← hu]
      exact hint
  · obtain ⟨w, hw, hgives⟩ := grant?_gives q hl hbegins f.descriptor
    rw [if_neg hneg, hw]
    refine ⟨w, rfl, .granted hr ?_ hgives⟩
    rw [← hu]
    exact Int.not_lt.mp fun h => hneg (Int32.lt_iff_toInt_lt.mpr h)

/-- The return code whose sign cannot be changed leaves a call without an outcome. -/
lemma settlement?_of_least (behind : Buffer) (q : Query) {r : Reply}
    (hlength : f.body.length ≤ Wire.capacity) (hr : f.body = r.bytes)
    (hleast : r.returnCode = Int32.minValue) : settlement? behind q (.ok f) = none := by
  obtain ⟨b, hwrite, hb⟩ := behind.write?_begins (hlength.trans (Nat.le_add_left ..))
  rw [settlement?, hwrite, Option.bind_some]
  have hd := (Reply.decode_eq_ok_iff hlength).mpr hr
  obtain ⟨fault, hd', -⟩ | ⟨r', u, hd', hunpack, hu, -⟩ := unpack?_spec hb
  · cases hd.symm.trans hd'
  · obtain rfl := Except.ok.inj (hd.symm.trans hd')
    rw [hunpack, Option.bind_some, conclude?, hu, hleast, if_pos (by decide), negated?, if_pos rfl,
      Option.map_none]

lemma Gives.unique {payload : Bytes} {fd : Option (Handle ε)} (h : Gives q payload fd w)
    (h' : Gives q payload fd w') : w' = w := by
  cases h <;> cases h' <;> simp_all

/-- Only one thing is told of a call. -/
lemma Told.unique (hbound : Bounded result) (h : Told q result w) (h' : Told q result w') :
    w' = w := by
  have hsame {f : Frame (Handle ε)} {r r' : Reply} (hf : result = .ok f) (hr : f.body = r.bytes)
      (hr' : f.body = r'.bytes) : r' = r := by
    have hlength := hbound f hf
    have hd := (Reply.decode_eq_ok_iff hlength).mpr hr
    exact Except.ok.inj (((Reply.decode_eq_ok_iff hlength).mpr hr').symm.trans hd)
  cases h with
  | endOfStream => cases h'; rfl
  | failed => cases h'; rfl
  | unreadable hbody =>
    cases h' with
    | unreadable => rfl
    | refused hr => exact absurd hr (hbody _)
    | granted hr => exact absurd hr (hbody _)
  | refused hr hneg htold =>
    cases h' with
    | unreadable hbody => exact absurd hr (hbody _)
    | @refused _ _ errno' hr' _ htold' =>
      obtain rfl := hsame rfl hr hr'
      have hcode : errno'.code = _ := Int32.toInt_inj.mp (htold'.trans htold.symm)
      exact congrArg (fun code => Except.error (Errno.mk code)) hcode
    | granted hr' hpos =>
      obtain rfl := hsame rfl hr hr'
      omega
  | granted hr hpos hgives =>
    cases h' with
    | unreadable hbody => exact absurd hr (hbody _)
    | refused hr' hneg =>
      obtain rfl := hsame rfl hr hr'
      omega
    | granted hr' _ hgives' =>
      obtain rfl := hsame rfl hr hr'
      exact hgives.unique hgives'

/-- The end of a call passes its checks exactly if the sign of the return code can be changed, and
what it comes to is what is told of it. -/
lemma settlement?_eq_some_iff (behind : Buffer) (q : Query) (hbound : Bounded result) :
    settlement? behind q result = some w ↔ Negatable result ∧ Told q result w := by
  constructor
  · intro h
    have hcode : Negatable result := by
      rintro f r rfl hr hleast
      rw [settlement?_of_least behind q (hbound f rfl) hr hleast] at h
      cases h
    obtain ⟨w', hw', htold⟩ := settlement?_told behind q hbound hcode
    obtain rfl := Option.some.inj (h.symm.trans hw')
    exact ⟨hcode, htold⟩
  · rintro ⟨hcode, htold⟩
    obtain ⟨w', hw', htold'⟩ := settlement?_told behind q hbound hcode
    rw [hw', htold.unique hbound htold']

/-- As many bytes are overwritten as there are of both. -/
lemma overwrite_eq (buffer data : Bytes) :
    overwrite buffer data = data.take (min data.length buffer.length) ++
      buffer.drop (min data.length buffer.length) := by
  rw [overwrite]
  rcases Nat.le_total data.length buffer.length with hle | hle
  · rw [Nat.min_eq_left hle, List.take_of_length_le hle, List.take_length]
  · rw [Nat.min_eq_right hle, List.drop_of_length_le hle, List.drop_length]

lemma Gives.answer_eq {payload : Bytes} {fd : Option (Handle ε)} (h : Gives q payload fd w) :
    (accept q.request q.buffer payload fd).map Answer.plain = w.map Settled.answer := by
  cases h with
  | access hq => rw [hq]; rfl
  | rename hq => rw [hq]; rfl
  | opened hq hfd =>
    rw [hq, hfd, accept, OpenFlags.overlaps_closeOnExec]
    rfl
  | unopened hq hfd => rw [hq, hfd]; rfl
  | link hq hn =>
    rw [hq, accept, overwrite_eq, ← hn]
    rfl
  | status hq hl =>
    have hs : payload.length = Status.length := hl
    rw [hq, accept, if_pos hs]
    rfl
  | misfit hq hl =>
    have hs : payload.length ≠ Status.length := hl
    rw [hq, accept, if_neg hs]
    rfl

/-- What is told of a call is what it gives. -/
lemma Told.answer_eq (hbound : Bounded result) (h : Told q result w)
    {inlet inlet' : Inlet (Handle ε)} (hr : receiveFrame inlet = (result, inlet')) :
    ((conclude q.request q.buffer inlet).1.map Answer.plain,
      (conclude q.request q.buffer inlet).2) = (w.map Settled.answer, inlet') := by
  rw [conclude, hr]
  cases h with
  | endOfStream => rfl
  | failed => rfl
  | @unreadable f hbody =>
    rcases hd : Reply.decode f.body with fault | r
    · simp only [interpret, hd]
      rfl
    · exact absurd ((Reply.decode_eq_ok_iff (hbound f rfl)).mp hd) (hbody r)
  | @refused f r errno hbody hneg htold =>
    have hd := (Reply.decode_eq_ok_iff (hbound f rfl)).mpr hbody
    have hneg' : r.returnCode < 0 := Int32.lt_iff_toInt_lt.mpr hneg
    -- the error number is a word, so the sign of the return code can be changed
    have hne : r.returnCode ≠ Int32.minValue := by
      intro hmin
      have hlt := errno.code.toInt_lt
      rw [hmin, Int32.toInt_minValue] at htold
      omega
    have hcode : -r.returnCode = errno.code :=
      Int32.toInt_inj.mp ((negated?_eq hne).2.trans htold.symm)
    simp only [interpret, hd, if_pos hneg', hcode]
    rfl
  | @granted f r w hbody hpos hgives =>
    have hd := (Reply.decode_eq_ok_iff (hbound f rfl)).mpr hbody
    have hpos' : ¬ r.returnCode < 0 := fun hneg =>
      Int.not_lt.mpr hpos (Int32.lt_iff_toInt_lt.mp hneg)
    simp only [interpret, hd, if_neg hpos', hgives.answer_eq]

/-! ### Whole calls -/

/-- **What is said of the end of a call.** It is what is told of the call, and nothing else is. A
header that announces too long a body is told as such, and a stream that ends within a frame as a
failure of input, unless a receive fails before. A call that succeeds has taken one frame and no
byte behind it. -/
structure Settles (q : Query) (inlet : Inlet (Handle ε)) (v : Reception (Handle ε))
    (w : Except Errno (Settled ε)) : Prop where
  told : Told q v.result w
  only : ∀ w', Told q v.result w' → w' = w
  oversized : 4 ≤ inlet.waiting.length → 4096 < littleEndian (inlet.waiting.take 4) →
    w = .error .messageTooLong
  starved : inlet.ended = true →
    inlet.waiting.length < 4 ∨ littleEndian (inlet.waiting.take 4) ≤ 4096 ∧
      inlet.waiting.length < 4 + littleEndian (inlet.waiting.take 4) →
    (∀ c ∈ v.pieces, c.Light) → w = .error .inputOutput
  consumed : ∀ a, w = .ok a → ∃ f, v.result = .ok f ∧
    inlet.waiting = frame f.body ++ v.inlet.waiting

variable {inlet : Inlet (Handle ε)} {v : Reception (Handle ε)}

lemma bounded_of_exact (hv : v.Exact inlet) : Bounded v.result :=
  fun f hf => (hv.returned f hf).2.1

lemma Told.failed_eq {errno : Errno} (h : Told q (.error (.failed errno)) w) :
    w = .error errno := by
  cases h
  rfl

lemma Told.ended_eq (h : Told q (.error .endOfStream) w) : w = .error .inputOutput := by
  cases h
  rfl

/-- Only a frame lets a call succeed. -/
lemma Told.frame_of_ok {a : Settled ε} (h : Told q result (.ok a)) : ∃ f, result = .ok f := by
  cases h
  exact ⟨_, rfl⟩

/-- Where the reference reads no frame, no frame is received. -/
lemma fault_of_reading {fault : FrameFault} (hv : v.Exact inlet) (hlight : ∀ c ∈ v.pieces, c.Light)
    (h : (Stream.reading inlet.ended inlet.waiting).1 = .error fault) :
    v.result = .error fault := by
  have hread : v.result.map Frame.body = .error fault :=
    (congrArg Prod.fst (hv.read hlight)).trans h
  rcases hr : v.result with fault' | f
  · rw [hr] at hread
    exact congrArg _ (Except.error.inj hread)
  · rw [hr] at hread
    cases hread

lemma settles_of_told (hv : v.Exact inlet) (h : Told q v.result w) : Settles q inlet v w where
  told := h
  only _ h' := h.unique (bounded_of_exact hv) h'
  oversized hl hlong := by
    have hfault : v.result = .error (.failed .messageTooLong) := by
      by_cases hlight : ∀ c ∈ v.pieces, c.Light
      · refine fault_of_reading hv hlight ?_
        rw [Stream.reading, if_neg (Nat.not_lt.mpr hl), if_pos hlong]
      · push Not at hlight
        obtain ⟨c, hc, hheavy⟩ := hlight
        exact hv.overloaded c hc hheavy
    rw [hfault] at h
    exact h.failed_eq
  starved hended hshort hlight := by
    have hfault : v.result = .error .endOfStream := by
      refine fault_of_reading hv hlight ?_
      rw [Stream.reading_starved hshort, starvation, if_pos hended]
    rw [hfault] at h
    exact h.ended_eq
  consumed a ha := by
    obtain ⟨f, hf⟩ := (ha ▸ h).frame_of_ok
    refine ⟨f, hf, ?_⟩
    rw [← (hv.returned f hf).1]
    exact hv.drawn.bytes_eq

/-- A call whose request was sent comes to what is told of it. -/
lemma call?_of_told {c : Client} {b : Buffer} (behind : Buffer) {line : Line (Handle ε)}
    {message : Wire.Message} {sent : List (Chunk (Handle ε))} {outlet : Outlet}
    (hp : c.prepare q.request = .ok message)
    (hs : line.outlet.send .interrupted message.frame none = (.ok (), sent, outlet))
    (hreceive : receive b line.inlet = some v) (hv : v.Exact line.inlet)
    (hcode : Negatable v.result) (htold : Told q v.result w) :
    c.call? q b behind line = some ⟨w, sent, ⟨v.inlet, outlet⟩⟩ := by
  have hw := (settlement?_eq_some_iff behind q (bounded_of_exact hv)).mpr ⟨hcode, htold⟩
  simp only [call?, hp, hs, hreceive, Option.bind_some, hw, Option.map_some]

/-- **Every call whose request was sent comes to an end**, whatever arrives, if no reply has the
return code whose sign cannot be changed: none of its checks fails, it takes the reception that the
buffer allows, it comes to the one thing that this reception means, and that is what the call
gives. -/
theorem call_settles (c : Client) (q : Query) (b behind : Buffer) {line : Line (Handle ε)}
    {message : Wire.Message} {sent : List (Chunk (Handle ε))} {outlet : Outlet}
    (hp : c.prepare q.request = .ok message)
    (hs : line.outlet.send .interrupted message.frame none = (.ok (), sent, outlet))
    (hcode : Negatable (receiveFrame line.inlet).1) :
    ∃ v w, receive b line.inlet = some v ∧ v.Exact line.inlet ∧
      c.call? q b behind line = some ⟨w, sent, ⟨v.inlet, outlet⟩⟩ ∧
      Settles q line.inlet v w ∧
      (c.call q.request q.buffer line).result.map Answer.plain = w.map Settled.answer ∧
      (c.call q.request q.buffer line).sent = sent ∧
      (c.call q.request q.buffer line).line = ⟨v.inlet, outlet⟩ := by
  obtain ⟨v, hreceive, hv⟩ := Stream.receive_exact b line.inlet
  rw [hv.same] at hcode
  obtain ⟨w, -, htold⟩ := settlement?_told behind q (bounded_of_exact hv) hcode
  obtain ⟨hresult, hinlet⟩ := Prod.mk.inj (htold.answer_eq (bounded_of_exact hv) hv.same)
  have hcall : c.call q.request q.buffer line =
      ⟨(conclude q.request q.buffer line.inlet).1, sent,
        ⟨(conclude q.request q.buffer line.inlet).2, outlet⟩⟩ := by
    simp only [call, hp, hs]
  refine ⟨v, w, hreceive, hv, call?_of_told behind hp hs hreceive hv hcode htold,
    settles_of_told hv htold, ?_, ?_, ?_⟩
  · rw [hcall, hresult]
  · rw [hcall]
  · rw [hcall, hinlet]

/-- A link whose target has two bytes, read into five bytes. The broker attaches a descriptor that
nobody asked for, and a byte follows the reply. -/
theorem call_settles_with_two_bytes :
    let b : Buffer := ⟨List.replicate Stream.frameRoom 0, List.length_replicate⟩
    let c : Client := ⟨⟨.all, .notPermitted, []⟩, false⟩
    let q : Query := ⟨.readlink ⟨[47, 97], by decide⟩, [1, 2, 3, 4, 5]⟩
    let r : Reply := ⟨2, some [98, 99]⟩
    let line : Line (Handle ℕ) :=
      ⟨⟨[.chunk ⟨frame r.bytes ++ [7], [⟨8, false⟩]⟩], false⟩, {}⟩
    ∃ message sent outlet v, c.prepare q.request = .ok message ∧
      line.outlet.send .interrupted message.frame none = (.ok (), sent, outlet) ∧
      Negatable (receiveFrame line.inlet).1 ∧
      c.call? q b b line = some ⟨.ok (.link 2 [98, 99, 3, 4, 5]), sent, ⟨v, outlet⟩⟩ ∧
      v.waiting = [7] := by
  intro b c q r line
  have hp : c.prepare q.request = .ok ⟨(q.request.encode .empty).2.body, by decide⟩ := by cbv
  have hframe : (receiveFrame line.inlet).1 = .ok ⟨r.bytes, some ⟨8, false⟩⟩ := by cbv
  have hcode : Negatable (receiveFrame line.inlet).1 := by
    rw [hframe]
    exact negatable_reply (by decide) (by decide) _
  obtain ⟨v, w, -, hv, hcall, hsettles, -⟩ := call_settles c q b b hp rfl hcode
  have hresult : v.result = .ok ⟨r.bytes, some ⟨8, false⟩⟩ :=
    (congrArg Prod.fst hv.same).symm.trans hframe
  have hw : (.ok (.link 2 [98, 99, 3, 4, 5]) : Except Errno (Settled ℕ)) = w := by
    refine hsettles.only _ ?_
    rw [hresult]
    exact .granted rfl (by decide) (.link rfl rfl)
  obtain ⟨f, hf, hwaiting⟩ := hsettles.consumed _ hw.symm
  obtain rfl := Except.ok.inj (hresult.symm.trans hf)
  have hline : line.inlet.waiting = frame r.bytes ++ [7] := by decide
  rw [← hw] at hcall
  exact ⟨_, _, _, _, hp, rfl, hcode, hcall,
    (List.append_cancel_left (hline.symm.trans hwaiting)).symm⟩

end Client

end FileBroker
