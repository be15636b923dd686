/-
Requests as byte strings.

A request is written entry by entry into a message of limited size and read back entry by entry;
the two sides know nothing of each other but the order of the arguments. What fits is written, and
what is written is read as it was, whatever the message held before.

* `Wire.Message.extend_full`: entries that do not fit are refused.
* `Wire.text_encode`: a path that was written is read.
* `Request.bytes`, `Request.wireSize`: the bytes of a request, and their number.
* `Request.encode_eq`, `Request.decode_bytes`: the bytes of a request are written and read.
* `Request.encode_exact`: a request is written exactly if it fits, and read as it was written.
-/
import FileBroker.Proofs.Replies

namespace FileBroker

/-! ### Entries -/

namespace Wire

/-- A message never refuses an entry for another reason than that it is full. -/
lemma Message.extend_full (m : Message) (entries : List Entry)
    (h : capacity < (m.body ++ entries.flatMap Entry.encode).length) :
    (m.extend entries).1 = .error .full := by
  induction entries generalizing m with
  | nil =>
    have := m.body_length_le
    simp only [List.flatMap_nil, List.append_nil] at h
    omega
  | cons e entries ih =>
    rw [List.flatMap_cons, ← List.append_assoc] at h
    by_cases he : (m.body ++ e.encode).length ≤ capacity
    · simp only [extend, add, dif_pos he]
      exact ih ⟨m.body ++ e.encode, he⟩ h
    · simp only [extend, add, dif_neg he]

lemma Entry.int_encode_length (n : Word) : (Entry.int n).encode.length = 5 := rfl

lemma Entry.text_encode_length (p : Path) : (Entry.text p).encode.length = 6 + p.bytes.length := by
  simp only [text, encode, Path.terminated, List.cons_append, List.length_cons, List.length_append,
    wordBytes_length, List.length_nil]
  omega

/-- Reading goes on from where the first value ended. -/
lemma Reading.bind_ok {α β : Type} {x : Reading α} {f : α → Reading β} {a : α} {r r' : Reader}
    (h : x r = (.ok a, r')) : (x >>= f) r = f a r' := by
  simp only [bind, h]

/-- Reading ends where the first value is faulty. -/
lemma Reading.bind_error {α β : Type} {x : Reading α} {f : α → Reading β} {fault : Fault}
    {r r' : Reader} (h : x r = (.error fault, r')) : (x >>= f) r = (.error fault, r') := by
  simp only [bind, h]

/-- What a path is written as spells the path. -/
lemma ofTerminated?_terminated (p : Path) : Path.ofTerminated? p.terminated = some p := by
  rw [Path.ofTerminated?, Path.terminated, if_pos List.getLast?_concat, List.dropLast_concat,
    Path.ofBytes?, dif_pos p.nul_free]

/-- A path that was written is read. -/
lemma text_encode {p : Path} (hp : p.terminated.length < 4294967296) (position : ℕ)
    (rest : Bytes) :
    text ⟨position, (Entry.text p).encode ++ rest⟩ =
      (.ok p, ⟨position + 1 + 4 + p.terminated.length, rest⟩) := by
  rw [text, Entry.text, Reading.bind_ok (data_encode hp position rest),
    ofTerminated?_terminated]
  rfl

/-- A header that was written announces the body behind it. -/
lemma bodyLength_wordBytes {n : ℕ} (h : n ≤ capacity) :
    bodyLength (wordBytes (UInt32.ofNat n)) = .ok n := by
  have hn : Connection.littleEndian (wordBytes (UInt32.ofNat n)) = n := by
    rw [Connection.littleEndian_wordBytes, UInt32.toNat_ofNat', Nat.mod_eq_of_lt]
    simp only [capacity] at h
    omega
  exact (Connection.bodyLength_eq (wordBytes_length _)).trans (by rw [hn]; exact if_pos h)

end Wire

/-! ### Requests -/

namespace Request

/-- The bytes of a request. -/
def bytes (r : Request) : Bytes := r.entries.flatMap Wire.Entry.encode

/-- The number of integers among the arguments. -/
def integers : Request → ℕ
  | access .. => 1
  | openFile .. => 1
  | readlink _ => 0
  | rename .. => 0
  | stat .. => 1

/-- The number of bytes that a request takes: five for its command, for each path six and its
length, and five for each integer. -/
def wireSize (r : Request) : ℕ :=
  5 + (r.paths.map fun p => 6 + p.bytes.length).sum + 5 * r.integers

lemma bytes_length (r : Request) : r.bytes.length = r.wireSize := by
  cases r <;>
    simp [bytes, entries, arguments, wireSize, paths, integers, Wire.Entry.int_encode_length,
      Wire.Entry.text_encode_length] <;> omega

/-- The command of a request is read as it was written. -/
lemma ofCode?_command (r : Request) : Command.ofCode? r.command.code = some r.command := by
  cases r with
  | stat path follow large => cases large <;> rfl
  | _ => rfl

/-- A request that fits is written in place of whatever the message held. -/
lemma encode_eq {r : Request} (h : r.bytes.length ≤ Wire.capacity) (m : Wire.Message) :
    r.encode m = (.ok (), ⟨r.bytes, h⟩) :=
  Wire.Message.extend_eq Wire.Message.empty r.entries h

/-- A request that does not fit is refused. -/
lemma encode_full {r : Request} (h : Wire.capacity < r.bytes.length) (m : Wire.Message) :
    (r.encode m).1 = .error .full :=
  Wire.Message.extend_full Wire.Message.empty r.entries h

/-- The arguments of a request are read as they were written, and nothing is left. -/
lemma readArguments_encode {r : Request} (h : ∀ p ∈ r.paths, p.terminated.length < 4294967296)
    (position : ℕ) :
    let read := readArguments r.command ⟨position, r.arguments.flatMap Wire.Entry.encode⟩
    read.1 = .ok r ∧ read.2.rest = [] := by
  cases r with
  | access path mode =>
    have ht := Wire.text_encode (h path (by simp [paths])) position
      ((Wire.Entry.int mode).encode ++ [])
    simp only [arguments, List.flatMap_cons, List.flatMap_nil, command, readArguments]
    rw [Wire.Reading.bind_ok ht, Wire.Reading.bind_ok (Wire.int_encode _ _ _)]
    exact ⟨rfl, rfl⟩
  | openFile path flags =>
    have ht := Wire.text_encode (h path (by simp [paths])) position
      ((Wire.Entry.int flags).encode ++ [])
    simp only [arguments, List.flatMap_cons, List.flatMap_nil, command, readArguments]
    rw [Wire.Reading.bind_ok ht, Wire.Reading.bind_ok (Wire.int_encode _ _ _)]
    exact ⟨rfl, rfl⟩
  | readlink path =>
    have ht := Wire.text_encode (h path (by simp [paths])) position []
    simp only [arguments, List.flatMap_cons, List.flatMap_nil, command, readArguments]
    rw [Wire.Reading.bind_ok ht]
    exact ⟨rfl, rfl⟩
  | rename old new =>
    have ho := Wire.text_encode (h old (by simp [paths])) position
      ((Wire.Entry.text new).encode ++ [])
    have hn := Wire.text_encode (h new (by simp [paths]))
      (position + 1 + 4 + old.terminated.length) []
    simp only [arguments, List.flatMap_cons, List.flatMap_nil, command, readArguments]
    rw [Wire.Reading.bind_ok ho, Wire.Reading.bind_ok hn]
    exact ⟨rfl, rfl⟩
  | stat path follow large =>
    have ht := Wire.text_encode (h path (by simp [paths])) position
      ((Wire.Entry.int (wordOfBool follow)).encode ++ [])
    -- any truth value is written as zero or one
    have hf : (wordOfBool follow != 0) = follow := by cases follow <;> rfl
    simp only [arguments, List.flatMap_cons, List.flatMap_nil]
    cases large with
    | false =>
      simp only [command, Bool.false_eq_true, if_false, readArguments]
      rw [Wire.Reading.bind_ok ht, Wire.Reading.bind_ok (Wire.int_encode _ _ _), hf]
      exact ⟨rfl, rfl⟩
    | true =>
      simp only [command, if_true, readArguments]
      rw [Wire.Reading.bind_ok ht, Wire.Reading.bind_ok (Wire.int_encode _ _ _), hf]
      exact ⟨rfl, rfl⟩

/-- The bytes of a request that fits hold the request. -/
lemma decode_bytes {r : Request} (h : r.bytes.length ≤ Wire.capacity) :
    decode r.bytes = .ok r := by
  have hp : ∀ p ∈ r.paths, p.terminated.length < 4294967296 := by
    intro p hp
    have hle := List.single_le_sum (by simp) _ (List.mem_map_of_mem (f := fun p : Path =>
      6 + p.bytes.length) hp)
    rw [bytes_length, wireSize, Wire.capacity] at h
    simp only [Path.terminated, List.length_append, List.length_singleton]
    omega
  obtain ⟨hr, hrest⟩ := readArguments_encode hp (0 + 1 + 4)
  have hread : read (.ofBytes r.bytes) =
      readArguments r.command ⟨0 + 1 + 4, r.arguments.flatMap Wire.Entry.encode⟩ := by
    have hb : r.bytes = (Wire.Entry.int r.command.code).encode ++
        r.arguments.flatMap Wire.Entry.encode := List.flatMap_cons
    rw [hb, Wire.Reader.ofBytes, read, Wire.Reading.bind_ok (Wire.int_encode _ _ _),
      ofCode?_command]
  rw [← hread] at hr hrest
  rw [decode, if_neg (by omega)]
  split
  · next request rest heq =>
    rw [heq] at hr hrest
    obtain rfl := Except.ok.inj hr
    have he : rest.exhausted = true := by
      simp only at hrest
      rw [Wire.Reader.exhausted, hrest]
      rfl
    rw [if_pos he]
  · next fault rest heq =>
    rw [heq] at hr
    cases hr

/-- **A request is written exactly if it fits, and read as it was written.** Whatever the message
held before, writing succeeds if there is room for the request and otherwise tells that the message
is full; what is written is a body that the request alone determines, behind a header that announces
its length, and the body holds the request and nothing else. -/
theorem encode_exact (r : Request) :
    (∀ m : Wire.Message,
      (r.encode m).1 = if r.wireSize ≤ Wire.capacity then .ok () else .error .full) ∧
    (r.wireSize ≤ Wire.capacity → ∃ header body : Bytes, header.length = Wire.headerLength ∧
      Wire.bodyLength header = .ok body.length ∧ body.length = r.wireSize ∧
      decode body = .ok r ∧
      ∀ m : Wire.Message, (r.encode m).2.body = body ∧ (r.encode m).2.frame = header ++ body) := by
  rw [← bytes_length]
  refine ⟨fun m => ?_, fun h => ?_⟩
  · by_cases h : r.bytes.length ≤ Wire.capacity
    · rw [encode_eq h, if_pos h]
    · rw [encode_full (by omega), if_neg h]
  · refine ⟨Wire.wordBytes (UInt32.ofNat r.bytes.length), r.bytes, Wire.wordBytes_length _,
      Wire.bodyLength_wordBytes h, rfl, decode_bytes h, fun m => ?_⟩
    rw [encode_eq h]
    exact ⟨rfl, rfl⟩

/-- A renaming of `/tmp/a` to `/tmp/b`, which takes 29 bytes. -/
theorem encode_exact_rename :
    let r : Request := .rename ⟨[47, 116, 109, 112, 47, 97], by decide⟩
      ⟨[47, 116, 109, 112, 47, 98], by decide⟩
    r.wireSize = 29 ∧ r.wireSize ≤ Wire.capacity ∧ ∃ header body : Bytes,
      header.length = Wire.headerLength ∧ Wire.bodyLength header = .ok 29 ∧
      decode body = .ok r ∧ ∀ m : Wire.Message, (r.encode m).2.frame = header ++ body := by
  intro r
  have hs : r.wireSize = 29 := by rfl
  have hfit : r.wireSize ≤ Wire.capacity := by decide
  obtain ⟨header, body, hh, hb, hl, hd, hm⟩ := (encode_exact r).2 hfit
  rw [hl, hs] at hb
  exact ⟨hs, hfit, header, body, hh, hb, hd, fun m => (hm m).2⟩

end Request

end FileBroker
