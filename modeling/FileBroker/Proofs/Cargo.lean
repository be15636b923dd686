/-
Bytes on a stream, and the descriptors that come with them.

A sender cuts a frame where its writes end, and a receiver takes what its receives give, so the two
need not agree on chunks. What they agree on is the cargo: the bytes in order, each with the
descriptors that come with it. Writes put a descriptor on the first byte of its frame, receives that
never go past a frame find it there, and so every frame arrives with its own descriptor.

* `Stream.laden`, `Stream.cargo`: the cargo of a byte string with descriptors, and of arrivals.
* `Stream.transmit_cargo`: what writes put on a stream, however short they are.
* `Stream.receiveFrom_cases`: all that a receive can do.
* `Stream.fill_cargo`, `Stream.receiveFrame_own`: what receives take from a stream.
* `Stream.Parcel`, `Stream.receiveFrames`: frames on their way, and receiving several of them.
* `Stream.parcels_arrive`: frames arrive as they were sent, each with its own descriptor.
-/
import FileBroker.Proofs.Requests
import FileBroker.Stream.Frame

namespace FileBroker.Stream

variable {δ : Type}

/-! ### Cargo -/

/-- The bytes of a byte string, each with the descriptors that come with it: with the first byte all
that are given, with the others none. -/
def laden (bytes : Bytes) (descriptors : List δ) : List (UInt8 × List δ) :=
  match bytes with
  | [] => []
  | b :: rest => (b, descriptors) :: rest.map (·, [])

/-- The bytes of a chunk, each with the descriptors that come with it. -/
def Chunk.cargo (c : Chunk δ) : List (UInt8 × List δ) := laden c.bytes c.descriptors

/-- The bytes that some arrivals bring, each with the descriptors that come with it. Arrivals with
the same cargo differ in where receives end: at pauses, and after chunks with descriptors. -/
def cargo (arrivals : List (Arrival δ)) : List (UInt8 × List δ) :=
  arrivals.flatMap fun
    | .chunk c => c.cargo
    | .pause => []

@[simp]
lemma cargo_nil : cargo ([] : List (Arrival δ)) = [] := rfl

@[simp]
lemma cargo_chunk (c : Chunk δ) (arrivals : List (Arrival δ)) :
    cargo (.chunk c :: arrivals) = c.cargo ++ cargo arrivals := rfl

@[simp]
lemma cargo_pause (arrivals : List (Arrival δ)) : cargo (.pause :: arrivals) = cargo arrivals := rfl

lemma laden_append {bytes : Bytes} (h : bytes ≠ []) (more : Bytes) (descriptors : List δ) :
    laden (bytes ++ more) descriptors = laden bytes descriptors ++ laden more [] := by
  obtain ⟨b, rest, rfl⟩ := List.exists_cons_of_ne_nil h
  cases more with
  | nil => simp [laden]
  | cons b' more => simp [laden]

lemma laden_bytes (bytes : Bytes) (descriptors : List δ) :
    (laden bytes descriptors).map Prod.fst = bytes := by
  cases bytes with
  | nil => rfl
  | cons b rest => simp [laden, Function.comp_def]

lemma laden_descriptors {bytes : Bytes} (h : bytes ≠ []) (descriptors : List δ) :
    (laden bytes descriptors).flatMap Prod.snd = descriptors := by
  obtain ⟨b, rest, rfl⟩ := List.exists_cons_of_ne_nil h
  simp [laden, List.flatMap_map]

lemma laden_length (bytes : Bytes) (descriptors : List δ) :
    (laden bytes descriptors).length = bytes.length := by
  rw [← List.length_map (f := Prod.fst), laden_bytes]

/-! ### Sending -/

/-- What goes out has the descriptor with its first byte. -/
lemma transmit_cargo (again : Errno) (attempts : List Attempt) (bytes : Bytes) (fd : Option δ) :
    let sent := transmit again attempts bytes fd
    sent.chunks.flatMap Chunk.cargo = laden (bytesOf sent.chunks) fd.toList := by
  fun_induction transmit again attempts bytes fd with
  | case1 bytes fd =>
    by_cases hb : bytes = []
    · simp [hb, bytesOf, laden]
    · simp [hb, bytesOf, Chunk.cargo]
  | case2 => simp [bytesOf, laden]
  | case3 more rest bytes fd hb sent ih =>
    have hfirst : bytes.take (more + 1) ≠ [] := by simp [List.take_eq_nil_iff, hb]
    have hbytes : bytesOf ((⟨bytes.take (more + 1), fd.toList⟩ : Chunk δ) :: sent.chunks) =
        bytes.take (more + 1) ++ bytesOf sent.chunks := rfl
    -- the writes after this one are made without the descriptor
    have hnone : (none : Option δ).toList = [] := rfl
    dsimp only at ih ⊢
    rw [hbytes, laden_append hfirst, List.flatMap_cons, ih, hnone]
    rfl
  | case4 => simp [bytesOf, laden]
  | case5 rest bytes fd hb ih => exact ih
  | case6 => simp [bytesOf, laden]

/-! ### Receiving -/

/-- What a receive takes comes from the front of the cargo. -/
lemma gather_cargo (want : ℕ) (arrivals : List (Arrival δ)) :
    let t := gather want arrivals
    ∃ taken, cargo arrivals = taken ++ cargo t.rest ∧ t.bytes = taken.map Prod.fst ∧
      t.descriptors = taken.flatMap Prod.snd := by
  fun_induction gather want arrivals with
  | case1 => exact ⟨[], rfl, rfl, rfl⟩
  | case2 want rest =>
    refine ⟨[], ?_, rfl, rfl⟩
    split <;> rfl
  | case3 => exact ⟨[], rfl, rfl, rfl⟩
  | case4 want c rest hw hc ih =>
    obtain ⟨taken, hcargo, hb, hd⟩ := ih
    refine ⟨taken, ?_, hb, hd⟩
    rw [cargo_chunk, Chunk.cargo, hc, hcargo]
    rfl
  | case5 want c rest hw hc b left hd =>
    have hne : c.bytes.take want ≠ [] := by simp [List.take_eq_nil_iff, hw, hc]
    refine ⟨laden (c.bytes.take want) c.descriptors, ?_, (laden_bytes _ _).symm,
      (laden_descriptors hne _).symm⟩
    rw [cargo_chunk, cargo_chunk, ← List.append_assoc]
    congr 1
    rw [Chunk.cargo, Chunk.cargo, ← laden_append hne, ← hd, List.take_append_drop]
  | case6 want c rest hw hc hd hnone more ih =>
    obtain ⟨taken, hcargo, hb, hds⟩ := ih
    refine ⟨laden c.bytes [] ++ taken, ?_, ?_, ?_⟩
    · rw [cargo_chunk, Chunk.cargo, hnone, hcargo, List.append_assoc]
    · rw [List.map_append, laden_bytes, hb]
    · rw [List.flatMap_append, laden_descriptors hc, hds]
      rfl
  | case7 want c rest hw hc hd hsome =>
    exact ⟨laden c.bytes c.descriptors, rfl, (laden_bytes _ _).symm,
      (laden_descriptors hc _).symm⟩

/-- All that a receive can do: it is interrupted, finds that nothing is left, or takes something
from the front of the cargo, which is lost if too many descriptors come with it. -/
lemma receiveFrom_cases (ended : Bool) {want : ℕ} (hw : 0 < want) (arrivals : List (Arrival δ)) :
    (∃ rest, receiveFrom ended want arrivals = (.interrupted, rest) ∧
      cargo rest = cargo arrivals) ∨
    (receiveFrom ended want arrivals = (if ended then .endOfStream else .failed .wouldBlock, []) ∧
      cargo arrivals = []) ∨
    ∃ taken rest, taken ≠ [] ∧ taken.length ≤ want ∧ cargo arrivals = taken ++ cargo rest ∧
      receiveFrom ended want arrivals =
        (if descriptorLimit < (taken.flatMap Prod.snd).length then .failed .messageTooLong
          else .delivered (taken.map Prod.fst) (taken.flatMap Prod.snd), rest) := by
  fun_induction receiveFrom ended want arrivals with
  | case1 => exact .inr (.inl ⟨rfl, rfl⟩)
  | case2 rest => exact .inl ⟨rest, rfl, rfl⟩
  | case3 c rest hc ih =>
    have hskip : cargo (.chunk c :: rest) = cargo rest := by
      rw [cargo_chunk, Chunk.cargo, hc]
      rfl
    rw [hskip]
    exact ih
  | case4 c rest hc t =>
    obtain ⟨taken, hcargo, hb, hd⟩ := gather_cargo want (.chunk c :: rest)
    have hlen : taken.length = (gather want (.chunk c :: rest)).bytes.length := by
      rw [hb, List.length_map]
    have hpos := gather_bytes_length_pos hw hc rest
    have hle := gather_bytes_length_le want (.chunk c :: rest)
    refine .inr (.inr ⟨taken, t.rest, ?_, by omega, hcargo, ?_⟩)
    · rintro rfl
      simp only [List.length_nil] at hlen
      omega
    · rw [← hb, ← hd]

/-- A receive of no more bytes than come without too many descriptors is interrupted, or takes some
of them. -/
lemma receiveFrom_of_cargo (ended : Bool) {arrivals : List (Arrival δ)}
    {pre post : List (UInt8 × List δ)} (hs : cargo arrivals = pre ++ post) (hpos : 0 < pre.length)
    (hd : (pre.flatMap Prod.snd).length ≤ descriptorLimit) :
    (∃ rest, receiveFrom ended pre.length arrivals = (.interrupted, rest) ∧
      cargo rest = pre ++ post) ∨
    ∃ taken left rest, pre = taken ++ left ∧ cargo rest = left ++ post ∧
      receiveFrom ended pre.length arrivals =
        (.delivered (taken.map Prod.fst) (taken.flatMap Prod.snd), rest) := by
  obtain ⟨rest, hr, hc⟩ | ⟨-, hc⟩ | ⟨taken, rest, -, hle, hc, hr⟩ :=
    receiveFrom_cases ended hpos arrivals
  · exact .inl ⟨rest, hr, hc.trans hs⟩
  · -- there is something left to receive
    have := congrArg List.length (hs.symm.trans hc)
    simp only [List.length_append, List.length_nil] at this
    omega
  · obtain ⟨left, rfl⟩ : taken <+: pre :=
      List.prefix_of_prefix_length_le ⟨cargo rest, hc.symm⟩ ⟨post, hs.symm⟩ hle
    rw [List.flatMap_append, List.length_append] at hd
    refine .inr ⟨taken, left, rest, rfl, ?_, ?_⟩
    · rw [hs, List.append_assoc] at hc
      exact (List.append_cancel_left hc).symm
    · rw [hr, if_neg (by omega)]

/-- Exactly so many bytes are taken from the front of the cargo if there are as many and not too
many descriptors come with them. Of the descriptors the first is kept, unless there is one
already. -/
lemma fill_cargo (want : ℕ) (fd : Option δ) {s : Inlet δ} {pre post : List (UInt8 × List δ)}
    (hs : cargo s.arrivals = pre ++ post) (hlen : pre.length = want)
    (hd : (pre.flatMap Prod.snd).length ≤ descriptorLimit) :
    ∃ rest, fill want fd s =
        (.ok (pre.map Prod.fst, fd <|> (pre.flatMap Prod.snd).head?), ⟨rest, s.ended⟩) ∧
      cargo rest = post := by
  fun_induction fill want fd s generalizing pre with
  | case1 fd s =>
    obtain rfl := List.eq_nil_of_length_eq_zero hlen
    exact ⟨s.arrivals, by simp, hs⟩
  | case2 want fd s hw rest h _ ih =>
    subst hlen
    obtain ⟨rest', hr, hc⟩ | ⟨_, _, _, -, -, hr⟩ := receiveFrom_of_cargo s.ended hs (by omega) hd
    · rw [hr] at h
      cases h
      exact ih hc rfl hd
    · rw [hr] at h
      cases h
  | case3 want fd s hw rest h =>
    subst hlen
    obtain ⟨_, hr, -⟩ | ⟨_, _, _, -, -, hr⟩ := receiveFrom_of_cargo s.ended hs (by omega) hd
    · simp [hr] at h
    · simp [hr] at h
  | case4 want fd s hw errno rest h =>
    subst hlen
    obtain ⟨_, hr, -⟩ | ⟨_, _, _, -, -, hr⟩ := receiveFrom_of_cargo s.ended hs (by omega) hd
    · simp [hr] at h
    · simp [hr] at h
  | case5 want fd s hw bytes descriptors rest h _ _ more fd' s' hf ih =>
    subst hlen
    obtain ⟨_, hr, -⟩ | ⟨taken, left, rest', rfl, hc, hr⟩ :=
      receiveFrom_of_cargo s.ended hs (by omega) hd
    · simp [hr] at h
    rw [hr] at h
    cases h
    rw [List.flatMap_append, List.length_append] at hd
    obtain ⟨rest'', hfill, hpost⟩ := ih hc (by simp) (by omega)
    rw [hf] at hfill
    cases hfill
    refine ⟨rest'', ?_, hpost⟩
    rw [List.map_append, List.flatMap_append, List.head?_append]
    cases fd <;> cases (taken.flatMap Prod.snd).head? <;> rfl
  | case6 want fd s hw bytes descriptors rest h _ _ fault s' hf ih =>
    subst hlen
    obtain ⟨_, hr, -⟩ | ⟨taken, left, rest', rfl, hc, hr⟩ :=
      receiveFrom_of_cargo s.ended hs (by omega) hd
    · simp [hr] at h
    rw [hr] at h
    cases h
    rw [List.flatMap_append, List.length_append] at hd
    obtain ⟨rest'', hfill, -⟩ := ih hc (by simp) (by omega)
    rw [hf] at hfill
    cases hfill

/-- A frame at the front of the cargo is received, with the first of its descriptors. -/
lemma receiveFrame_cargo {s : Inlet δ} {body : Bytes} {descriptors : List δ}
    {post : List (UInt8 × List δ)} (hb : body.length ≤ Wire.capacity)
    (hd : descriptors.length ≤ descriptorLimit)
    (hs : cargo s.arrivals = laden (Connection.frame body) descriptors ++ post) :
    ∃ rest, receiveFrame s = (.ok ⟨body, descriptors.head?⟩, ⟨rest, s.ended⟩) ∧
      cargo rest = post := by
  set header := Wire.wordBytes (UInt32.ofNat body.length)
  have hh : header ≠ [] := nofun
  have hsplit : laden (Connection.frame body) descriptors =
      laden header descriptors ++ laden body [] := laden_append hh body descriptors
  have hnone : (laden body ([] : List δ)).flatMap Prod.snd = [] := by
    cases hbody : body with
    | nil => rfl
    | cons b rest => exact laden_descriptors (by simp) []
  rw [hsplit, List.append_assoc] at hs
  obtain ⟨rest, hheader, hrest⟩ := fill_cargo Wire.headerLength none hs
    (laden_length _ _) (by rw [laden_descriptors hh]; exact hd)
  obtain ⟨rest', hbody, hrest'⟩ := fill_cargo body.length descriptors.head?
    (s := ⟨rest, s.ended⟩) hrest (laden_length _ _) (by rw [hnone]; simp)
  refine ⟨rest', ?_, hrest'⟩
  rw [laden_bytes, laden_descriptors hh] at hheader
  rw [laden_bytes, hnone] at hbody
  have hkept : (none <|> descriptors.head? : Option δ) = descriptors.head? := rfl
  have hfirst : (descriptors.head? <|> ([] : List δ).head?) = descriptors.head? := by
    cases descriptors <;> rfl
  rw [hkept] at hheader
  rw [hfirst] at hbody
  simp only [receiveFrame, hheader, header, Wire.bodyLength_wordBytes hb, hbody]

/-- A frame at the front of the cargo is received, with its own descriptor or none. -/
lemma receiveFrame_own {s : Inlet δ} {body : Bytes} {fd : Option δ}
    {post : List (UInt8 × List δ)} (hb : body.length ≤ Wire.capacity)
    (hs : cargo s.arrivals = laden (Connection.frame body) fd.toList ++ post) :
    ∃ rest, receiveFrame s = (.ok ⟨body, fd⟩, ⟨rest, s.ended⟩) ∧ cargo rest = post := by
  have hd : fd.toList.length ≤ descriptorLimit := by
    cases fd <;> simp [descriptorLimit]
  have hfirst : fd.toList.head? = fd := by
    cases fd <;> rfl
  obtain ⟨rest, hframe, hrest⟩ := receiveFrame_cargo hb hd hs
  rw [hfirst] at hframe
  exact ⟨rest, hframe, hrest⟩

/-! ### Frames on their way -/

/-- The two sides that send frames: the client, whose writes may be interrupted, and the broker,
whose writes may come before there is room. -/
inductive Sender where
  | client
  | broker
  deriving DecidableEq, Repr

/-- The failure after which a side tries its write again. -/
def Sender.again : Sender → Errno
  | client => .interrupted
  | broker => .wouldBlock

/-- A frame on its way: the message, the descriptor that is sent with it, the side that sends it,
and the writes that this takes, which fail only to be tried again. -/
structure Parcel (δ : Type) where
  message : Wire.Message
  descriptor : Option δ
  sender : Sender
  attempts : List Attempt
  retried : ∀ errno, .fails errno ∈ attempts → errno = sender.again

namespace Parcel

/-- What becomes of the frame. -/
def sent (p : Parcel δ) : Sent δ :=
  transmit p.sender.again p.attempts p.message.frame p.descriptor

/-- The frame as it is to be received. -/
def frame (p : Parcel δ) : Frame δ := ⟨p.message.body, p.descriptor⟩

/-- The bytes of the frame, the first of which comes with the descriptor. -/
def cargo (p : Parcel δ) : List (UInt8 × List δ) := laden p.message.frame p.descriptor.toList

/-- All of the frame goes out, and the descriptor once, with the first byte. -/
lemma sent_whole (p : Parcel δ) :
    p.sent.result = .ok () ∧ bytesOf p.sent.chunks = p.message.frame ∧
      descriptorsOf p.sent.chunks = p.descriptor.toList ∧
      p.sent.chunks.flatMap Chunk.cargo = p.cargo := by
  have hok : p.sent.result = .ok () := transmit_of_retried p.retried _ _
  obtain ⟨-, hall, hd, -⟩ := transmit_spec p.sender.again p.attempts p.message.frame p.descriptor
  have hbytes : bytesOf p.sent.chunks = p.message.frame := hall hok
  have hcargo : p.sent.chunks.flatMap Chunk.cargo =
      laden (bytesOf p.sent.chunks) p.descriptor.toList := transmit_cargo ..
  refine ⟨hok, hbytes, ?_, ?_⟩
  · have hne : bytesOf p.sent.chunks ≠ [] := by
      rw [hbytes]
      exact Connection.frame_ne_nil _
    exact hd.trans (if_neg hne)
  · rw [hcargo, hbytes]
    rfl

end Parcel

/-- The next frames, one after another. -/
def receiveFrames : ℕ → Inlet δ → List (Except FrameFault (Frame δ)) × Inlet δ
  | 0, s => ([], s)
  | n + 1, s =>
    let first := receiveFrame s
    let others := receiveFrames n first.2
    (first.1 :: others.1, others.2)

/-- Frames at the front of the cargo are received one after another. -/
lemma receiveFrames_cargo {parcels : List (Parcel δ)} {s : Inlet δ} {post : List (UInt8 × List δ)}
    (hs : cargo s.arrivals = parcels.flatMap Parcel.cargo ++ post) :
    ∃ rest, receiveFrames parcels.length s =
        (parcels.map fun p => .ok p.frame, ⟨rest, s.ended⟩) ∧ cargo rest = post := by
  induction parcels generalizing s with
  | nil => exact ⟨s.arrivals, rfl, hs⟩
  | cons p parcels ih =>
    rw [List.flatMap_cons, List.append_assoc] at hs
    obtain ⟨rest, hfirst, hrest⟩ := receiveFrame_own p.message.body_length_le hs
    obtain ⟨rest', hothers, hrest'⟩ := ih (s := ⟨rest, s.ended⟩) hrest
    refine ⟨rest', ?_, hrest'⟩
    rw [List.length_cons, receiveFrames, hfirst, hothers]
    rfl

/-- **Frames arrive as they were sent.** Whatever each write takes and however often it has to be
tried again, what goes out is the frames in order, nothing lost and nothing twice, and each
descriptor once, with the first byte of its own frame. However the receives are cut short or
interrupted, the next frames that are received are the ones that were sent, each with its own
descriptor or none, and what follows them is left. -/
theorem parcels_arrive {parcels : List (Parcel δ)} {s : Inlet δ} {post : List (UInt8 × List δ)}
    (hs : cargo s.arrivals = (parcels.flatMap (·.sent.chunks)).flatMap Chunk.cargo ++ post) :
    (∀ p ∈ parcels, p.sent.result = .ok () ∧ bytesOf p.sent.chunks = p.message.frame ∧
      descriptorsOf p.sent.chunks = p.descriptor.toList ∧
      p.sent.chunks.flatMap Chunk.cargo = laden p.message.frame p.descriptor.toList) ∧
    ∃ rest, receiveFrames parcels.length s =
        (parcels.map fun p => .ok ⟨p.message.body, p.descriptor⟩, ⟨rest, s.ended⟩) ∧
      cargo rest = post := by
  have hall : (parcels.flatMap (·.sent.chunks)).flatMap Chunk.cargo =
      parcels.flatMap Parcel.cargo := by
    rw [List.flatMap_assoc]
    exact List.flatMap_congr fun p _ => p.sent_whole.2.2.2
  exact ⟨fun p _ => p.sent_whole, receiveFrames_cargo (hall ▸ hs)⟩

/-- Three frames, the second without a body and without a descriptor. The writes are short and are
tried again; the bytes arrive in other pieces, with pauses between them. -/
theorem parcels_arrive_in_pieces :
    let parcels : List (Parcel ℕ) :=
      [⟨⟨[9, 8], by decide⟩, some 7, .broker,
          [.fails .wouldBlock, .takes 0, .fails .wouldBlock, .takes 2], by simp [Sender.again]⟩,
        ⟨.empty, none, .client, [.fails .interrupted, .takes 1], by simp [Sender.again]⟩,
        ⟨⟨[5], by decide⟩, some 6, .broker, [], by simp⟩]
    let s : Inlet ℕ :=
      ⟨[.pause, .chunk ⟨[2, 0], [7]⟩, .chunk ⟨[0], []⟩, .pause, .chunk ⟨[0, 9, 8, 0, 0], []⟩,
        .chunk ⟨[0, 0], []⟩, .chunk ⟨[1], [6]⟩, .pause, .pause, .chunk ⟨[0, 0, 0, 5], []⟩], false⟩
    cargo s.arrivals = (parcels.flatMap (·.sent.chunks)).flatMap Chunk.cargo ∧
      ∃ rest, receiveFrames 3 s =
          ([.ok ⟨[9, 8], some 7⟩, .ok ⟨[], none⟩, .ok ⟨[5], some 6⟩], ⟨rest, false⟩) ∧
        cargo rest = [] := by
  intro parcels s
  have hs : cargo s.arrivals = (parcels.flatMap (·.sent.chunks)).flatMap Chunk.cargo := by decide
  have hs' : cargo s.arrivals = (parcels.flatMap (·.sent.chunks)).flatMap Chunk.cargo ++ [] := by
    rw [hs, List.append_nil]
  exact ⟨hs, (parcels_arrive hs').2⟩

end FileBroker.Stream
