/-
Replies as byte strings.

A reply is built in a message that held another one before, and it goes out by writes that may be
short. Neither leaves a trace: a reply is the bytes of its entries, these are read as they were
written, and what goes out is a beginning of them, or all of them.

* `Wire.Message.extend_eq`: entries that fit are added as they are.
* `Reply.bytes`, `Reply.encode_eq`: the bytes of a reply, whatever the message held before.
* `Reply.decode_bytes`: the bytes of a reply hold the reply.
* `Kernel.Fits`, `Broker.serve_fits`: the replies of a broker fit a message.
* `Stream.transmit_spec`: the chunks that go out.
* `Stream.Outlet.Patient`, `Stream.Outlet.send_of_patient`: an outlet that lets everything out.
* `Stream.Outlet.Reliable`, `Stream.Outlet.send_of_reliable`: the same for the broker's.
-/
import FileBroker.FileTree.Calls
import FileBroker.Proofs.Calls
import FileBroker.Proofs.Frames

namespace FileBroker

variable {σ δ : Type}

/-! ### Entries written and read -/

namespace Wire

/-- Entries that fit are added as they are. -/
lemma Message.extend_eq (m : Message) (entries : List Entry)
    (h : (m.body ++ entries.flatMap Entry.encode).length ≤ capacity) :
    m.extend entries = (.ok (), ⟨m.body ++ entries.flatMap Entry.encode, h⟩) := by
  induction entries generalizing m with
  | nil =>
    rw [extend]
    congr
    simp
  | cons e entries ih =>
    rw [List.flatMap_cons, ← List.append_assoc] at h
    have he : (m.body ++ e.encode).length ≤ capacity := by
      rw [List.length_append] at h
      omega
    simp only [extend, add, dif_pos he]
    rw [ih ⟨m.body ++ e.encode, he⟩ h]
    simp

/-- An integer that was written is read. -/
lemma int_encode (n : Word) (position : ℕ) (rest : Bytes) :
    int ⟨position, (Entry.int n).encode ++ rest⟩ = (.ok n, ⟨position + 1 + 4, rest⟩) := by
  have hw : word ⟨position + 1, wordBytes n.toUInt32 ++ rest⟩ =
      (.ok n.toUInt32, ⟨position + 1 + 4, rest⟩) := by
    simp only [word, wordBytes, List.cons_append, wordOfBytes_wordBytes]
    rfl
  have ht : tag intTag ⟨position, (Entry.int n).encode ++ rest⟩ =
      (.ok (), ⟨position + 1, wordBytes n.toUInt32 ++ rest⟩) := rfl
  simp only [int, bind, ht, hw]
  rfl

/-- Data that was written is read. -/
lemma data_encode {bytes : Bytes} (hb : bytes.length < 4294967296) (position : ℕ) (rest : Bytes) :
    data ⟨position, (Entry.data bytes).encode ++ rest⟩ =
      (.ok bytes, ⟨position + 1 + 4 + bytes.length, rest⟩) := by
  have hn : (UInt32.ofNat bytes.length).toNat = bytes.length := by
    rw [UInt32.toNat_ofNat']
    omega
  have hw : word ⟨position + 1, wordBytes (UInt32.ofNat bytes.length) ++ (bytes ++ rest)⟩ =
      (.ok (UInt32.ofNat bytes.length), ⟨position + 1 + 4, bytes ++ rest⟩) := by
    simp only [word, wordBytes, List.cons_append, wordOfBytes_wordBytes]
    rfl
  have ht : tag dataTag ⟨position, (Entry.data bytes).encode ++ rest⟩ =
      (.ok (), ⟨position + 1, wordBytes (UInt32.ofNat bytes.length) ++ (bytes ++ rest)⟩) := by
    simp [tag, Entry.encode, Reader.advance]
  have hk : take bytes.length ⟨position + 1 + 4, bytes ++ rest⟩ =
      (.ok bytes, ⟨position + 1 + 4 + bytes.length, rest⟩) := by
    simp [take, Reader.advance]
  simp only [data, bind, ht, hw, hn, hk]

end Wire

/-! ### Replies -/

namespace Reply

/-- The bytes of a reply. -/
def bytes (r : Reply) : Bytes := r.entries.flatMap Wire.Entry.encode

lemma bytes_length (r : Reply) :
    r.bytes.length = 5 + (r.payload.elim 0 fun payload => 5 + payload.length) := by
  obtain ⟨code, _ | payload⟩ := r
  · rfl
  · simp [bytes, entries, Wire.Entry.encode, Wire.wordBytes_length]
    omega

/-- A reply that fits is written in place of whatever the message held. -/
lemma encode_eq {r : Reply} (h : r.bytes.length ≤ Wire.capacity) (m : Wire.Message) :
    r.encode m = (.ok (), ⟨r.bytes, h⟩) :=
  Wire.Message.extend_eq Wire.Message.empty r.entries h

lemma bytes_none (code : Word) : bytes ⟨code, none⟩ = (Wire.Entry.int code).encode := by
  simp [bytes, entries]

lemma bytes_some (code : Word) (payload : Bytes) :
    bytes ⟨code, some payload⟩ =
      (Wire.Entry.int code).encode ++ (Wire.Entry.data payload).encode := by
  simp [bytes, entries]

/-- The length of the payload, if there is one, can be written. -/
def Writable (r : Reply) : Prop := ∀ payload ∈ r.payload, payload.length < 4294967296

lemma writable_none (code : Word) : Writable ⟨code, none⟩ := by simp [Writable]

/-- The bytes of a reply hold the reply, also where they are too many for a message. -/
lemma decode_bytes_of_writable {r : Reply} (h : r.Writable) : decode r.bytes = .ok r := by
  obtain ⟨code, _ | payload⟩ := r
  · have hi := Wire.int_encode code 0 []
    rw [List.append_nil] at hi
    rw [decode, bytes_none, Wire.Reader.ofBytes, hi]
    rfl
  · have hd := Wire.data_encode (h payload rfl) (0 + 1 + 4) []
    rw [List.append_nil] at hd
    have hne : (Wire.Entry.data payload).encode.isEmpty = false := rfl
    simp only [decode, bytes_some, Wire.Reader.ofBytes, Wire.int_encode, Wire.Reader.exhausted,
      hne, hd]
    rfl

/-- The bytes of a reply that fits hold the reply. -/
lemma decode_bytes {r : Reply} (h : r.bytes.length ≤ Wire.capacity) :
    decode r.bytes = .ok r := by
  refine decode_bytes_of_writable fun payload hp => ?_
  rw [bytes_length, Option.mem_def.mp hp, Option.elim_some, Wire.capacity] at h
  omega

end Reply

/-- A kernel that does not tell more of a link's target than there is room for. -/
def Kernel.Fits (k : Kernel σ δ) : Prop :=
  ∀ (path : Path) (room : ℕ) (s : σ) (target : Bytes),
    (k.answer (.readlink path room) s).1 = .ok target → target.length ≤ room

/-- The kernel of a file tree tells as much of a link's target as there is room for. -/
lemma FileTree.kernel_fits : FileTree.kernel.Fits := by
  intro path room t target h
  have hr : t.readlink path room = .ok target := h
  rw [FileTree.readlink] at hr
  split at hr
  · cases hr
  · obtain rfl := Except.ok.inj hr
    exact List.length_take_le ..
  · cases hr

namespace Approval

lemma unlinkOpened_payload (k : Kernel σ δ) (path : Path) (fd : δ) (s : σ) :
    (unlinkOpened k path fd s).1.payload = none := by
  rw [unlinkOpened]
  split <;> rfl

/-- What an approval gives to send leaves room for the return code, the tags and the length. -/
lemma payload_length_le {k : Kernel σ δ} (hk : k.Fits) (a : Approval) (s : σ)
    {outcome : Outcome δ} (h : (a.perform k s).1 = .ok outcome) {payload : Bytes}
    (hp : outcome.payload = some payload) : payload.length ≤ linkRoom := by
  cases a with
  | access path mode =>
    rw [perform] at h
    split at h
    · cases h
      cases hp
    · cases h
  | openFile path flags unlink =>
    rw [perform] at h
    split at h
    · next fd s' _ =>
      cases unlink with
      | false =>
        cases h
        cases hp
      | true =>
        obtain rfl := Except.ok.inj h
        exact absurd (hp.symm.trans (unlinkOpened_payload k path fd s')) (by simp)
    · cases h
  | readlink path =>
    rw [perform] at h
    split at h
    · next target s' ht =>
      cases h
      cases hp
      exact hk path linkRoom s payload (by rw [ht])
    · cases h
  | rename old new =>
    rw [perform] at h
    split at h
    · cases h
      cases hp
    · cases h
  | stat path follow large =>
    rw [perform] at h
    split at h
    · next image s' _ =>
      cases h
      cases hp
      rw [image.bytes_length]
      decide
    · cases h

end Approval

namespace Broker

lemma refuse_fits (entry : Audit.Entry) :
    (refuse entry : Served δ).reply.bytes.length ≤ Wire.capacity := by
  simp [Reply.bytes_length, refuse, Served.reply, Wire.capacity]

/-- The reply fits a message, whatever came of an approval. -/
lemma fulfil_fits {k : Kernel σ δ} (hk : k.Fits) (request : Request) (a : Approval) (s : σ) :
    (fulfil request (a.perform k s).1).reply.bytes.length ≤ Wire.capacity := by
  rw [Reply.bytes_length]
  cases ho : (a.perform k s).1 with
  | error errno =>
    simp only [fulfil, Served.reply, Option.elim_none, Wire.capacity]
    omega
  | ok outcome =>
    cases hp : outcome.payload with
    | none =>
      simp only [fulfil, Served.reply, hp, Option.elim_none, Wire.capacity]
      omega
    | some payload =>
      have := a.payload_length_le hk s ho hp
      simp only [fulfil, Served.reply, hp, Option.elim_some]
      simp only [linkRoom, Wire.capacity] at this ⊢
      omega

/-- Every reply of a broker fits a message. -/
lemma serve_fits {k : Kernel σ δ} (hk : k.Fits) (g : Gate) (body : Bytes) (s : σ) :
    (serve g k body s).1.reply.bytes.length ≤ Wire.capacity := by
  obtain ⟨reason, hr⟩ | ⟨request, a, hd, he⟩ := refused_or_approved g body
  · rw [serve_of_refused hr]
    exact refuse_fits _
  · rw [serve_of_approved hd he]
    exact fulfil_fits hk request a s

end Broker

/-! ### Sending -/

namespace Stream

/-- The bytes of some chunks. -/
def bytesOf (chunks : List (Chunk δ)) : Bytes := chunks.flatMap (·.bytes)

/-- The descriptors of some chunks. -/
def descriptorsOf (chunks : List (Chunk δ)) : List δ := chunks.flatMap (·.descriptors)

/-- What goes out is a beginning of the bytes, or all of them if no write failed; the descriptor
goes out with the first byte. Attempts are used up from the front. -/
lemma transmit_spec (again : Errno) (attempts : List Attempt) (bytes : Bytes) (fd : Option δ) :
    let sent := transmit again attempts bytes fd
    bytesOf sent.chunks <+: bytes ∧
      (sent.result = .ok () → bytesOf sent.chunks = bytes) ∧
      descriptorsOf sent.chunks = (if bytesOf sent.chunks = [] then [] else fd.toList) ∧
      sent.attempts <:+ attempts := by
  fun_induction transmit again attempts bytes fd with
  | case1 bytes fd =>
    by_cases hb : bytes = []
    · simp [hb, bytesOf, descriptorsOf]
    · simp [hb, bytesOf, descriptorsOf]
  | case2 => simp [bytesOf, descriptorsOf]
  | case3 more rest bytes fd hb sent ih =>
    obtain ⟨hp, hok, hd, hs⟩ := ih
    have hc : bytesOf ((⟨bytes.take (more + 1), fd.toList⟩ : Chunk δ) :: sent.chunks) =
        bytes.take (more + 1) ++ bytesOf sent.chunks := rfl
    have hne : bytes.take (more + 1) ≠ [] := by simp [List.take_eq_nil_iff, hb]
    -- the descriptor goes out with this write, and the others are made without one
    have hn : descriptorsOf sent.chunks = [] := by
      rw [hd]
      split <;> rfl
    dsimp only
    rw [hc]
    refine ⟨?_, fun h => ?_, ?_, hs.trans (List.suffix_cons ..)⟩
    · conv_rhs => rw [← List.take_append_drop (more + 1) bytes]
      exact (List.prefix_append_right_inj _).mpr hp
    · rw [hok h, List.take_append_drop]
    · rw [if_neg (by simp [hne])]
      simpa [descriptorsOf] using hn
  | case4 => simp [bytesOf, descriptorsOf]
  | case5 rest bytes fd hb ih =>
    obtain ⟨hp, hok, hd, hs⟩ := ih
    exact ⟨hp, hok, hd, hs.trans (List.suffix_cons ..)⟩
  | case6 => simp [bytesOf, descriptorsOf]

/-- A write that fails is tried again if the failure is the one that the sender expects. -/
lemma transmit_of_retried {again : Errno} {attempts : List Attempt}
    (h : ∀ errno, .fails errno ∈ attempts → errno = again) (bytes : Bytes) (fd : Option δ) :
    (transmit again attempts bytes fd).result = .ok () := by
  fun_induction transmit again attempts bytes fd with
  | case1 => rfl
  | case2 => rfl
  | case3 more rest bytes fd hb sent ih =>
    exact ih fun errno he => h errno (List.mem_cons_of_mem _ he)
  | case4 => rfl
  | case5 rest bytes fd hb ih => exact ih fun errno he => h errno (List.mem_cons_of_mem _ he)
  | case6 errno rest bytes fd hb he => exact absurd (h errno List.mem_cons_self) he

/-- The other end is there, and no write fails but with the failure that the sender expects. -/
structure Outlet.Patient (o : Outlet) (again : Errno) : Prop where
  present : o.gone = false
  retried : ∀ errno, .fails errno ∈ o.attempts → errno = again

/-- A patient outlet lets everything out, and stays patient. -/
lemma Outlet.send_of_patient {o : Outlet} {again : Errno} (ho : o.Patient again) {bytes : Bytes}
    (hb : bytes ≠ []) (fd : Option δ) :
    ∃ chunks o', o.send again bytes fd = (.ok (), chunks, o') ∧ o'.Patient again ∧
      bytesOf chunks = bytes ∧ descriptorsOf chunks = fd.toList := by
  obtain ⟨-, hbytes, hfd, hs⟩ := transmit_spec again o.attempts bytes fd
  have hok := transmit_of_retried ho.retried bytes fd
  have hall := hbytes hok
  rw [hall, if_neg hb] at hfd
  refine ⟨_, { o with attempts := (transmit again o.attempts bytes fd).attempts }, ?_,
    ⟨ho.present, fun errno he => ho.retried errno (hs.subset he)⟩, hall, hfd⟩
  simp only [send, ho.present, hok]
  rfl

/-- The other end is there, and no write fails but to be tried again. Since a sender uses no more
attempts than it needs, these are the outlets on which no reply fails. -/
structure Outlet.Reliable (o : Outlet) : Prop where
  present : o.gone = false
  retried : ∀ errno, .fails errno ∈ o.attempts → errno = .wouldBlock

/-- A reliable outlet lets everything out, and stays reliable. -/
lemma Outlet.send_of_reliable {o : Outlet} (ho : o.Reliable) {bytes : Bytes} (hb : bytes ≠ [])
    (fd : Option δ) :
    ∃ chunks o', o.send .wouldBlock bytes fd = (.ok (), chunks, o') ∧ o'.Reliable ∧
      bytesOf chunks = bytes ∧ descriptorsOf chunks = fd.toList := by
  have hp : o.Patient .wouldBlock := ⟨ho.present, ho.retried⟩
  obtain ⟨chunks, o', hsend, ho', hall, hfd⟩ := send_of_patient hp hb fd
  exact ⟨chunks, o', hsend, ⟨ho'.present, ho'.retried⟩, hall, hfd⟩

/-- Where sending without a descriptor fails, a beginning of the bytes has gone out. -/
lemma Outlet.send_prefix {o o' : Outlet} {again : Errno} {bytes : Bytes}
    {result : Except Errno Unit} {chunks : List (Chunk δ)}
    (h : o.send again bytes none = (result, chunks, o')) :
    bytesOf chunks <+: bytes ∧ (result = .ok () → bytesOf chunks = bytes) ∧
      descriptorsOf chunks = [] := by
  rw [send] at h
  split at h
  · cases h
    exact ⟨List.nil_prefix, nofun, rfl⟩
  · obtain ⟨hp, hall, hfd, -⟩ := transmit_spec again o.attempts bytes (none : Option δ)
    cases h
    refine ⟨hp, hall, hfd.trans ?_⟩
    split <;> rfl

end Stream

end FileBroker
