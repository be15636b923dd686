/-
Messages built in place.

A message is built in a buffer of fixed size, behind the room for a header. The buffer is never
wiped: a message that is cleared only forgets how many bytes of the buffer are its body, and whoever
writes several entries may be refused in the middle of them. Every access to the buffer is checked
against its bounds here, and building that leaves them has no outcome. Still a message is what was
written since it was cleared last, and nothing that stood in the buffer before shows.

* `Wire.Item`: what is added at once, an integer, data or a path.
* `Wire.Builder`, `Wire.Build`: the buffer and the length of the body; what is done with them.
* `Builder.reserve`, `Builder.add`, `Builder.frame`: building, with every check.
* `Builder.Operation`, `Builder.run`: all that is done with a message, one thing after another.
* `Builder.fitting`, `Builder.held`, `Builder.outcomes`: what a message holds after operations and
  how each of them ends, in terms of sizes alone.
* `Builder.Holds`, `Builder.Holds.run`: building in place does to the body in the buffer what the
  same operations do to a message.
* `Builder.Accounts`: what can be said of a builder that holds some items.
* `Builder.body_since_cleared`: what a message is after any operations.
-/
import FileBroker.Proofs.Receivers

namespace FileBroker

/-! ### Items -/

namespace Wire

/-- What is added to a message at once. A path is written as data, with a NUL at its end. -/
inductive Item where
  | int (n : Word)
  | data (bytes : Bytes)
  | text (path : Path)
  deriving DecidableEq, Repr

namespace Item

/-- The entry that an item is written as. -/
def entry : Item → Entry
  | int n => .int n
  | data bytes => .data bytes
  | text path => .text path

/-- The bytes that an item is written as. -/
def bytes (i : Item) : Bytes := i.entry.encode

/-- The number of bytes that an item takes: five, and its data. -/
def size : Item → ℕ
  | int _ => 5
  | data bytes => 5 + bytes.length
  | text path => 5 + path.terminated.length

lemma size_pos (i : Item) : 0 < i.size := by
  cases i <;> simp [size]

lemma bytes_length (i : Item) : i.bytes.length = i.size := by
  have hdata (bytes : Bytes) : (Entry.data bytes).encode.length = 5 + bytes.length := by
    rw [Entry.encode, List.length_append, List.length_cons, wordBytes_length]
  cases i with
  | int n => rfl
  | data bytes => exact hdata bytes
  | text path => exact hdata path.terminated

/-- The number of bytes that some items take together. -/
def total (items : List Item) : ℕ := (items.map size).sum

lemma total_cons (i : Item) (items : List Item) : total (i :: items) = i.size + total items := by
  rw [total, total, List.map_cons, List.sum_cons]

lemma flatMap_bytes_length (items : List Item) : (items.flatMap bytes).length = total items := by
  simp only [List.length_flatMap, bytes_length, total]

/-- The items that fit into some room one after another, up to the first that does not. -/
def fitting (room : ℕ) : List Item → List Item
  | [] => []
  | i :: items => if i.size ≤ room then i :: fitting (room - i.size) items else []

end Item

end Wire

/-- The items of a request: the number of its command, then its arguments. -/
def Request.items (r : Request) : List Wire.Item :=
  .int r.command.code :: match r with
    | access path mode => [.text path, .int mode]
    | openFile path flags => [.text path, .int flags]
    | readlink path => [.text path]
    | rename old new => [.text old, .text new]
    | stat path follow _ => [.text path, .int (wordOfBool follow)]

lemma Request.entries_eq (r : Request) : r.entries = r.items.map Wire.Item.entry := by
  cases r <;> rfl

/-- The items of a reply: its return code, then its payload if it has one. -/
def Reply.items (r : Reply) : List Wire.Item :=
  .int r.returnCode :: (r.payload.map Wire.Item.data).toList

lemma Reply.entries_eq (r : Reply) : r.entries = r.items.map Wire.Item.entry := by
  obtain ⟨code, _ | payload⟩ := r <;> rfl

namespace Wire

open FileBroker.Connection (littleEndian littleEndian_wordBytes)
open FileBroker.Stream (Buffer frameRoom)

/-! ### Building with every check -/

/-- A message under construction: a buffer that holds the body behind the room for a header, and the
length of the body. What else is in the buffer may be anything. -/
structure Builder where
  buffer : Buffer
  length : ℕ

/-- Something that is done with a builder, unless an access leaves the buffer. -/
def Build (α : Type) : Type := Builder → Option (Except Fault α × Builder)

instance : Monad Build where
  pure a := fun b => some (.ok a, b)
  bind x f := fun b =>
    match x b with
    | none => none
    | some (.error fault, b') => some (.error fault, b')
    | some (.ok a, b') => f a b'

namespace Builder

/-- Building that fails and changes nothing. -/
def fail {α : Type} (fault : Fault) : Build α := fun b => some (.error fault, b)

/-- A part of the buffer that was taken for an entry. -/
structure Slot where
  start : ℕ
  length : ℕ

/-- The builder of an empty message in a buffer of zeros. -/
def new : Builder := ⟨⟨List.replicate frameRoom 0, List.length_replicate⟩, 0⟩

/-- The message is empty from now on; the buffer stays as it is. -/
def clear : Build Unit := fun b => some (.ok (), { b with length := 0 })

/-- The body, where it stands in the buffer. -/
def body (b : Builder) : Option Bytes := b.buffer.read? headerLength (headerLength + b.length)

/-- The header is written in front of the body, and both are what is sent. -/
def frame : Build Bytes := fun b =>
  (b.buffer.write? 0 (wordBytes (UInt32.ofNat b.length))).bind fun buffer =>
    (buffer.read? 0 (headerLength + b.length)).map fun bytes => (.ok bytes, { b with buffer })

/-- The next `n` bytes of the buffer become part of the body, if there is room. The body must not be
longer than a body can be when the room is computed, and the bytes must lie in the buffer. -/
def reserve (n : ℕ) : Build Slot := fun b =>
  if capacity < b.length then none
  else if capacity - b.length < n then some (.error .full, b)
  else if headerLength + b.length + n ≤ frameRoom then
    some (.ok ⟨headerLength + b.length, n⟩, { b with length := b.length + n })
  else none

/-- Some bytes are written from one place of a slot up to another. The places must lie in the slot,
and the bytes must be as many as there are between them. -/
def fill (s : Slot) (i j : ℕ) (bytes : Bytes) : Build Unit := fun b =>
  if i ≤ j ∧ j ≤ s.length ∧ bytes.length = j - i then
    (b.buffer.write? (s.start + i) bytes).map fun buffer => (.ok (), { b with buffer })
  else none

/-- An integer is added. -/
def addInt (n : Word) : Build Unit := do
  let s ← reserve (1 + 4)
  fill s 0 1 [intTag]
  fill s 1 s.length (wordBytes n.toUInt32)

/-- Data is added. What is too long for any message is refused before anything is computed from its
length. -/
def addData (bytes : Bytes) : Build Unit :=
  if capacity < bytes.length then fail .full
  else do
    let s ← reserve (1 + 4 + bytes.length)
    fill s 0 1 [dataTag]
    fill s 1 5 (wordBytes (UInt32.ofNat bytes.length))
    fill s 5 s.length bytes

/-- A path is added. -/
def addText (path : Path) : Build Unit := addData path.terminated

/-- An item is added. -/
def add : Item → Build Unit
  | .int n => addInt n
  | .data bytes => addData bytes
  | .text path => addText path

/-- A request takes the place of whatever the message held. -/
def encodeRequest (r : Request) : Build Unit := do
  clear
  addInt r.command.code
  match r with
  | .access path mode => do
    addText path
    addInt mode
  | .openFile path flags => do
    addText path
    addInt flags
  | .readlink path => addText path
  | .rename old new => do
    addText old
    addText new
  | .stat path follow _ => do
    addText path
    addInt (wordOfBool follow)

/-- A reply takes the place of whatever the message held. -/
def encodeReply (r : Reply) : Build Unit := do
  clear
  addInt r.returnCode
  match r.payload with
  | some payload => addData payload
  | none => return ()

/-! ### Operations -/

/-- What may be done with a message. -/
inductive Operation where
  | add (item : Item)
  | request (r : Request)
  | reply (r : Reply)
  | clear
  | frame
  deriving DecidableEq, Repr

namespace Operation

/-- The operation on a builder. -/
def build : Operation → Build Unit
  | add item => Builder.add item
  | request r => encodeRequest r
  | reply r => encodeReply r
  | clear => Builder.clear
  | frame => do
    let _ ← Builder.frame
    return ()

/-- The operation on a message. -/
def apply : Operation → Message → Except Fault Unit × Message
  | add item => (·.add item.entry)
  | request r => r.encode
  | reply r => r.encode
  | clear => fun m => (.ok (), m.clear)
  | frame => fun m => (.ok (), m)

/-- Whether the operation begins by clearing the message. -/
def clears : Operation → Bool
  | request _ | reply _ | clear => true
  | add _ | frame => false

/-- The items that the operation adds, as far as they fit. -/
def items : Operation → List Item
  | add item => [item]
  | request r => r.items
  | reply r => r.items
  | clear | frame => []

/-- What a message that holds some items still holds when the operation begins to add. -/
def kept (op : Operation) (held : List Item) : List Item := if op.clears then [] else held

/-- How the operation on a message that holds some items ends: well if all that it adds fits. -/
def outcome (op : Operation) (held : List Item) : Except Fault Unit :=
  if Item.total op.items ≤ capacity - Item.total (op.kept held) then .ok () else .error .full

/-- What a message that held some items holds after the operation: nothing of before if it was
cleared, and what was added, up to the first item for which there was no room. -/
def leaves (held : List Item) (op : Operation) : List Item :=
  op.kept held ++ Item.fitting (capacity - Item.total (op.kept held)) op.items

end Operation

/-- Operations on a builder one after another, whether they succeed or not, with their outcomes. -/
def run : List Operation → Builder → Option (List (Except Fault Unit) × Builder)
  | [], b => some ([], b)
  | op :: ops, b =>
    (op.build b).bind fun first =>
      (run ops first.2).map fun later => (first.1 :: later.1, later.2)

/-- The same operations on a message. -/
def perform : List Operation → Message → List (Except Fault Unit) × Message
  | [], m => ([], m)
  | op :: ops, m =>
    let first := op.apply m
    let later := perform ops first.2
    (first.1 :: later.1, later.2)

/-- What a message holds after some operations: what was added since it was cleared last. -/
def held (ops : List Operation) : List Item := ops.foldl Operation.leaves []

/-- How some operations end, the first of them on a message that holds some items. -/
def outcomes : List Item → List Operation → List (Except Fault Unit)
  | _, [] => []
  | items, op :: ops => op.outcome items :: outcomes (op.leaves items) ops

/-! ### Filling a slot -/

section Fills

variable {α β : Type} {b b' : Builder}

lemma bind_of_ok {x : Build α} {f : α → Build β} {a : α} (h : x b = some (.ok a, b')) :
    (x >>= f) b = f a b' := by
  simp only [bind, h]

lemma bind_of_error {x : Build α} {f : α → Build β} {fault : Fault}
    (h : x b = some (.error fault, b')) : (x >>= f) b = some (.error fault, b') := by
  simp only [bind, h]

/-- From one place of a slot up to another some bytes are written; what stands before them stays. -/
def Fills (x : Build Unit) (s : Slot) (i j : ℕ) (bytes : Bytes) : Prop :=
  ∀ b, ∃ b', x b = some (.ok (), b') ∧ b'.length = b.length ∧
    b'.buffer.bytes.take (s.start + j) = b.buffer.bytes.take (s.start + i) ++ bytes

lemma fills_fill {s : Slot} (hs : s.start + s.length ≤ frameRoom) {i j : ℕ} {bytes : Bytes}
    (hj : j ≤ s.length) (hn : i + bytes.length = j) : Fills (fill s i j bytes) s i j bytes := by
  intro b
  obtain ⟨buffer, hwrite, htake⟩ := b.buffer.write?_take (s.start + i) bytes (by omega)
  refine ⟨{ b with buffer }, ?_, rfl, ?_⟩
  · rw [fill, if_pos ⟨by omega, hj, by omega⟩, hwrite, Option.map_some]
  · rwa [Nat.add_assoc, hn] at htake

lemma Fills.seq {x y : Build Unit} {s : Slot} {i j k : ℕ} {bytes more : Bytes}
    (hx : Fills x s i j bytes) (hy : Fills y s j k more) :
    Fills (x >>= fun _ => y) s i k (bytes ++ more) := by
  intro b
  obtain ⟨b₁, hb₁, hlength₁, htake₁⟩ := hx b
  obtain ⟨b₂, hb₂, hlength₂, htake₂⟩ := hy b₁
  refine ⟨b₂, (bind_of_ok hb₁).trans hb₂, hlength₂.trans hlength₁, ?_⟩
  rw [htake₂, htake₁, List.append_assoc]

/-- What is reserved where there is room is filled from its first byte to its last. -/
lemma reserve_fills {n : ℕ} {f : Slot → Build Unit} {bytes : Bytes} (hb : b.length ≤ capacity)
    (hn : n ≤ capacity - b.length)
    (hf : ∀ s : Slot, s.length = n → s.start + s.length ≤ frameRoom → Fills (f s) s 0 n bytes) :
    ∃ b', (reserve n >>= f) b = some (.ok (), b') ∧ b'.length = b.length + n ∧
      b'.buffer.bytes.take (headerLength + b'.length) =
        b.buffer.bytes.take (headerLength + b.length) ++ bytes := by
  have hroom : headerLength + b.length + n ≤ frameRoom := by
    rw [frameRoom]
    omega
  have hreserve : reserve n b =
      some (.ok ⟨headerLength + b.length, n⟩, { b with length := b.length + n }) := by
    rw [reserve, if_neg (by omega), if_neg (by omega), if_pos hroom]
  obtain ⟨b', hb', hlength, htake⟩ :=
    hf ⟨headerLength + b.length, n⟩ rfl hroom { b with length := b.length + n }
  refine ⟨b', (bind_of_ok hreserve).trans hb', hlength, ?_⟩
  rw [hlength, ← Nat.add_assoc]
  exact htake

/-- Where there is no room nothing is reserved. -/
lemma reserve_full {n : ℕ} {f : Slot → Build Unit} (hb : b.length ≤ capacity)
    (hn : capacity - b.length < n) : (reserve n >>= f) b = some (.error .full, b) := by
  refine bind_of_error ?_
  rw [reserve, if_neg (by omega), if_pos hn]

lemma addInt_fills (n : Word) (s : Slot) (hlength : s.length = 5)
    (hs : s.start + s.length ≤ frameRoom) :
    Fills (fill s 0 1 [intTag] >>= fun _ => fill s 1 s.length (wordBytes n.toUInt32)) s 0 5
      (Entry.int n).encode := by
  have hword := wordBytes_length n.toUInt32
  have hfirst : Fills (fill s 0 1 [intTag]) s 0 1 [intTag] := fills_fill hs (by omega) rfl
  refine hfirst.seq ?_
  rw [hlength]
  exact fills_fill hs (by omega) (by omega)

lemma addData_fills (bytes : Bytes) (s : Slot) (hlength : s.length = 1 + 4 + bytes.length)
    (hs : s.start + s.length ≤ frameRoom) :
    Fills (fill s 0 1 [dataTag] >>= fun _ =>
        fill s 1 5 (wordBytes (UInt32.ofNat bytes.length)) >>= fun _ => fill s 5 s.length bytes)
      s 0 (1 + 4 + bytes.length) (Entry.data bytes).encode := by
  have hword := wordBytes_length (UInt32.ofNat bytes.length)
  have hfirst : Fills (fill s 0 1 [dataTag]) s 0 1 [dataTag] := fills_fill hs (by omega) rfl
  have hsecond : Fills (fill s 1 5 (wordBytes (UInt32.ofNat bytes.length))) s 1 5
      (wordBytes (UInt32.ofNat bytes.length)) := fills_fill hs (by omega) (by omega)
  refine hfirst.seq (hsecond.seq ?_)
  rw [hlength]
  exact fills_fill hs (by omega) (by omega)

end Fills

/-! ### Adding an item -/

section Adds

variable {b : Builder}

lemma addData_of_room {bytes : Bytes} (hb : b.length ≤ capacity)
    (hroom : 5 + bytes.length ≤ capacity - b.length) :
    ∃ b', addData bytes b = some (.ok (), b') ∧ b'.length = b.length + (5 + bytes.length) ∧
      b'.buffer.bytes.take (headerLength + b'.length) =
        b.buffer.bytes.take (headerLength + b.length) ++ (Entry.data bytes).encode := by
  rw [addData, if_neg (by omega)]
  exact reserve_fills hb hroom (addData_fills bytes)

lemma addData_full {bytes : Bytes} (hb : b.length ≤ capacity)
    (hroom : capacity - b.length < 5 + bytes.length) :
    addData bytes b = some (.error .full, b) := by
  rw [addData]
  split
  · rfl
  · exact reserve_full hb hroom

/-- An item for which there is room is added behind what there is. -/
lemma add_of_room {i : Item} (hb : b.length ≤ capacity) (hi : i.size ≤ capacity - b.length) :
    ∃ b', add i b = some (.ok (), b') ∧ b'.length = b.length + i.size ∧
      b'.buffer.bytes.take (headerLength + b'.length) =
        b.buffer.bytes.take (headerLength + b.length) ++ i.bytes := by
  cases i with
  | int n => exact reserve_fills hb hi (addInt_fills n)
  | data bytes => exact addData_of_room hb hi
  | text path => exact addData_of_room hb hi

/-- An item for which there is no room is refused, and nothing changes. -/
lemma add_full {i : Item} (hb : b.length ≤ capacity) (hi : capacity - b.length < i.size) :
    add i b = some (.error .full, b) := by
  cases i with
  | int n => exact reserve_full hb hi
  | data bytes => exact addData_full hb hi
  | text path => exact addData_full hb hi

end Adds

/-! ### Builders and messages -/

/-- The body of a message stands in the buffer of a builder, behind the room for a header. -/
structure Holds (b : Builder) (m : Message) : Prop where
  length_eq : b.length = m.body.length
  body_eq : (b.buffer.bytes.take (headerLength + b.length)).drop headerLength = m.body

section Messages

variable {b : Builder} {m : Message}

/-- A builder without a body holds the empty message, whatever is in its buffer. -/
lemma holds_empty (h : b.length = 0) : b.Holds Message.empty where
  length_eq := h
  body_eq := by
    rw [h, Nat.add_zero]
    exact List.drop_eq_nil_iff.mpr (List.length_take_le ..)

lemma Holds.length_le (h : b.Holds m) : b.length ≤ capacity := h.length_eq ▸ m.body_length_le

lemma Holds.within (h : b.Holds m) : headerLength + b.length ≤ frameRoom :=
  Nat.add_le_add_left h.length_le headerLength

/-- The body is found where it stands. -/
lemma Holds.body (h : b.Holds m) : b.body = some m.body := by
  rw [Builder.body, Buffer.read?_eq _ (Nat.le_add_right ..) h.within, h.body_eq]

/-- The frame of the message goes out, and the builder holds the message as before. -/
lemma Holds.frame (h : b.Holds m) :
    ∃ b', Builder.frame b = some (.ok m.frame, b') ∧ b'.Holds m := by
  have hheader := wordBytes_length (UInt32.ofNat b.length)
  have hfour : headerLength = 4 := rfl
  have hroom : 0 + (wordBytes (UInt32.ofNat b.length)).length ≤ frameRoom := by
    rw [hheader, frameRoom]
    omega
  obtain ⟨buffer, hwrite⟩ : ∃ buffer, b.buffer.write? 0 (wordBytes (UInt32.ofNat b.length)) =
      some buffer := ⟨_, dif_pos hroom⟩
  -- the header is the first four bytes, and what was behind them is there still
  have hbytes : buffer.bytes =
      wordBytes (UInt32.ofNat b.length) ++ b.buffer.bytes.drop headerLength := by
    rw [Buffer.write?, dif_pos hroom] at hwrite
    obtain rfl := Option.some.inj hwrite
    simp only [List.take_zero, List.nil_append, hheader, Nat.zero_add, hfour]
  have htake : buffer.bytes.take (headerLength + b.length) = m.frame := by
    have hbody : (b.buffer.bytes.drop headerLength).take b.length = m.body := by
      rw [← h.body_eq, List.drop_take, Nat.add_sub_cancel_left]
    rw [hbytes, hfour, ← hheader, List.take_length_add_append, hheader, ← hfour, hbody,
      Message.frame, h.length_eq]
  have hread : buffer.read? 0 (headerLength + b.length) = some m.frame := by
    rw [Buffer.read?_eq _ (Nat.zero_le _) h.within, htake, List.drop_zero]
  refine ⟨{ b with buffer }, ?_, h.length_eq, ?_⟩
  · rw [Builder.frame, hwrite, Option.bind_some, hread, Option.map_some]
  · rw [htake, Message.frame]
    exact List.drop_left' (wordBytes_length _)

/-- An item that fits makes both longer by its bytes. -/
lemma Holds.add_of_room (h : b.Holds m) {i : Item} (hi : i.size ≤ capacity - b.length) :
    ∃ b' m', add i b = some (.ok (), b') ∧ m.add i.entry = (.ok (), m') ∧
      m'.body = m.body ++ i.bytes ∧ b'.Holds m' := by
  obtain ⟨b', hb', hlength, htake⟩ := Builder.add_of_room h.length_le hi
  have hle := h.length_le
  have hfits : (m.body ++ i.entry.encode).length ≤ capacity := by
    rw [List.length_append, ← h.length_eq, ← Item.bytes, Item.bytes_length]
    omega
  have hfront : headerLength ≤ (b.buffer.bytes.take (headerLength + b.length)).length := by
    have hwithin := h.within
    rw [List.length_take, b.buffer.length_eq]
    omega
  refine ⟨b', ⟨_, hfits⟩, hb', dif_pos hfits, rfl, ?_, ?_⟩
  · rw [hlength, h.length_eq, ← Item.bytes_length, ← List.length_append]
    rfl
  · rw [htake, List.drop_append_of_le_length hfront, h.body_eq]
    rfl

/-- An item that does not fit is refused by both. -/
lemma Holds.add_full (h : b.Holds m) {i : Item} (hi : capacity - b.length < i.size) :
    add i b = some (.error .full, b) ∧ m.add i.entry = (.error .full, m) := by
  have hle := h.length_le
  have hlong : ¬ (m.body ++ i.entry.encode).length ≤ capacity := by
    rw [List.length_append, ← h.length_eq, ← Item.bytes, Item.bytes_length]
    omega
  exact ⟨Builder.add_full hle hi, dif_neg hlong⟩

/-- Adding an item ends for the builder as it does for the message, and does to both the same. -/
lemma Holds.add (h : b.Holds m) (i : Item) :
    ∃ b', Builder.add i b = some ((m.add i.entry).1, b') ∧ b'.Holds (m.add i.entry).2 := by
  by_cases hi : i.size ≤ capacity - b.length
  · obtain ⟨b', m', hb', hm', -, h'⟩ := h.add_of_room hi
    rw [hm']
    exact ⟨b', hb', h'⟩
  · obtain ⟨hb, hm⟩ := h.add_full (Nat.lt_of_not_le hi)
    rw [hm]
    exact ⟨b, hb, h⟩

end Messages

/-- Building in place adds some items, up to the first that does not fit, to the body that stands in
the buffer. -/
def Appends (x : Build Unit) (items : List Item) : Prop :=
  ∀ b m, b.Holds m → ∃ b', x b = some ((m.extend (items.map Item.entry)).1, b') ∧
    b'.Holds (m.extend (items.map Item.entry)).2

lemma extend_singleton (m : Message) (e : Entry) : m.extend [e] = m.add e := by
  rw [Message.extend]
  rcases m.add e with ⟨fault | ⟨⟩, m'⟩ <;> rfl

lemma appends_nil : Appends (pure ()) [] := fun b _ h => ⟨b, rfl, h⟩

/-- One item, and what is added after it if it fits. -/
lemma Appends.cons {x : Build Unit} {items : List Item} (hx : Appends x items) (i : Item) :
    Appends (add i >>= fun _ => x) (i :: items) := by
  intro b m h
  obtain ⟨b', hb', h'⟩ := h.add i
  rw [List.map_cons, Message.extend]
  rcases hm : m.add i.entry with ⟨fault | ⟨⟩, m'⟩
  · rw [hm] at hb' h'
    exact ⟨b', bind_of_error hb', h'⟩
  · rw [hm] at hb' h'
    obtain ⟨b'', hb'', h''⟩ := hx b' m' h'
    exact ⟨b'', (bind_of_ok hb').trans hb'', h''⟩

lemma appends_one (i : Item) : Appends (add i) [i] := by
  intro b m h
  rw [List.map_singleton, extend_singleton]
  exact h.add i

/-- What is added after clearing does not depend on what there was. -/
lemma cleared {x : Build Unit} {items : List Item} (hx : Appends x items) (b : Builder) :
    ∃ b', (clear >>= fun _ => x) b =
        some ((Message.empty.extend (items.map Item.entry)).1, b') ∧
      b'.Holds (Message.empty.extend (items.map Item.entry)).2 :=
  hx { b with length := 0 } Message.empty (holds_empty rfl)

lemma encodeRequest_spec (r : Request) (b : Builder) :
    ∃ b', encodeRequest r b = some ((Message.empty.extend r.entries).1, b') ∧
      b'.Holds (Message.empty.extend r.entries).2 := by
  rw [r.entries_eq]
  cases r with
  | access path mode =>
    exact cleared (((appends_one (.int mode)).cons (.text path)).cons (.int _)) b
  | openFile path flags =>
    exact cleared (((appends_one (.int flags)).cons (.text path)).cons (.int _)) b
  | readlink path => exact cleared ((appends_one (.text path)).cons (.int _)) b
  | rename old new =>
    exact cleared (((appends_one (.text new)).cons (.text old)).cons (.int _)) b
  | stat path follow large =>
    exact cleared (((appends_one (.int _)).cons (.text path)).cons (.int _)) b

lemma encodeReply_spec (r : Reply) (b : Builder) :
    ∃ b', encodeReply r b = some ((Message.empty.extend r.entries).1, b') ∧
      b'.Holds (Message.empty.extend r.entries).2 := by
  rw [r.entries_eq]
  obtain ⟨code, _ | payload⟩ := r
  · exact cleared (appends_nil.cons (.int code)) b
  · exact cleared ((appends_one (.data payload)).cons (.int code)) b

/-- An operation in place does to the body that stands in the buffer what it does to a message. -/
lemma Holds.build {b : Builder} {m : Message} (h : b.Holds m) (op : Operation) :
    ∃ b', op.build b = some ((op.apply m).1, b') ∧ b'.Holds (op.apply m).2 := by
  cases op with
  | add item => exact h.add item
  | request r => exact encodeRequest_spec r b
  | reply r => exact encodeReply_spec r b
  | clear => exact ⟨_, rfl, holds_empty rfl⟩
  | frame =>
    obtain ⟨b', hb', h'⟩ := h.frame
    exact ⟨b', bind_of_ok hb', h'⟩

/-- So do operations one after another. -/
lemma Holds.run {b : Builder} {m : Message} (h : b.Holds m) (ops : List Operation) :
    ∃ b', run ops b = some ((perform ops m).1, b') ∧ b'.Holds (perform ops m).2 := by
  induction ops generalizing b m with
  | nil => exact ⟨b, rfl, h⟩
  | cons op ops ih =>
    obtain ⟨b', hb', h'⟩ := h.build op
    obtain ⟨b'', hb'', h''⟩ := ih h'
    refine ⟨b'', ?_, h''⟩
    rw [Builder.run, hb', Option.bind_some, hb'', Option.map_some]
    rfl

/-- An operation that begins by clearing does the same to every builder, however it was left. -/
lemma build_of_clears {op : Operation} (hop : op.clears = true) (b : Builder) :
    op.build b = op.build { b with length := 0 } := by
  cases op with
  | add item => cases hop
  | frame => cases hop
  | _ => rfl

/-! ### What messages hold -/

/-- Items are added up to the first that does not fit, and it is told if there is one. -/
lemma extend_items (m : Message) (items : List Item) :
    (m.extend (items.map Item.entry)).1 =
        (if Item.total items ≤ capacity - m.body.length then .ok () else .error .full) ∧
      (m.extend (items.map Item.entry)).2.body =
        m.body ++ (Item.fitting (capacity - m.body.length) items).flatMap Item.bytes := by
  induction items generalizing m with
  | nil => exact ⟨(if_pos (Nat.zero_le _)).symm, (List.append_nil _).symm⟩
  | cons i items ih =>
    have hle := m.body_length_le
    have hlength : (m.body ++ i.entry.encode).length = m.body.length + i.size := by
      rw [List.length_append, ← Item.bytes, Item.bytes_length]
    rw [List.map_cons, Message.extend, Item.total_cons, Item.fitting]
    by_cases hi : i.size ≤ capacity - m.body.length
    · have hadd : (m.body ++ i.entry.encode).length ≤ capacity := by omega
      obtain ⟨hresult, hbody⟩ := ih ⟨m.body ++ i.entry.encode, hadd⟩
      simp only [hlength] at hresult hbody
      rw [Message.add, dif_pos hadd, if_pos hi]
      refine ⟨hresult.trans (if_congr (by omega) rfl rfl), hbody.trans ?_⟩
      rw [List.append_assoc, Nat.sub_sub, List.flatMap_cons, Item.bytes]
    · rw [Message.add, dif_neg (by omega), if_neg hi, if_neg (by omega)]
      exact ⟨rfl, (List.append_nil _).symm⟩

/-- Every operation adds its items, after clearing the message if it is one that does. -/
lemma apply_eq (op : Operation) (m : Message) :
    op.apply m = (if op.clears then Message.empty else m).extend (op.items.map Item.entry) := by
  cases op with
  | add item => exact (extend_singleton m item.entry).symm
  | request r => exact congrArg Message.empty.extend r.entries_eq
  | reply r => exact congrArg Message.empty.extend r.entries_eq
  | clear => rfl
  | frame => rfl

/-- How an operation ends and what is held then, told by what was held. -/
lemma apply_held {m : Message} {items : List Item} (h : m.body = items.flatMap Item.bytes)
    (op : Operation) :
    (op.apply m).1 = op.outcome items ∧
      (op.apply m).2.body = (op.leaves items).flatMap Item.bytes := by
  have hkept : (if op.clears then Message.empty else m).body =
      (op.kept items).flatMap Item.bytes := by
    rw [Operation.kept]
    split
    · rfl
    · exact h
  -- the room is told by what is kept
  have hlength := (congrArg List.length hkept).trans (Item.flatMap_bytes_length _)
  obtain ⟨hresult, hbody⟩ := extend_items (if op.clears then Message.empty else m) op.items
  rw [hlength] at hresult hbody
  rw [apply_eq]
  refine ⟨hresult, hbody.trans ?_⟩
  rw [hkept, Operation.leaves, List.flatMap_append]

lemma perform_held {m : Message} {items : List Item} (h : m.body = items.flatMap Item.bytes)
    (ops : List Operation) :
    (perform ops m).1 = outcomes items ops ∧
      (perform ops m).2.body = (ops.foldl Operation.leaves items).flatMap Item.bytes := by
  induction ops generalizing m items with
  | nil => exact ⟨rfl, h⟩
  | cons op ops ih =>
    -- whatever came of the first operation, the next begins where it has left the message
    obtain ⟨hfirst, hbody⟩ := apply_held h op
    obtain ⟨hlater, hlast⟩ := ih hbody
    exact ⟨congrArg₂ List.cons hfirst hlater, hlast⟩

/-- After any operations a builder that had no body holds what the same operations make of a
message, which is told by the sizes of the items. -/
lemma run_of_length_eq_zero {b : Builder} (hb : b.length = 0) (ops : List Operation) :
    ∃ b' m, run ops b = some (outcomes [] ops, b') ∧ perform ops .empty = (outcomes [] ops, m) ∧
      b'.Holds m ∧ m.body = (held ops).flatMap Item.bytes := by
  have hempty : Message.empty.body = List.flatMap Item.bytes [] := rfl
  obtain ⟨hresults, hbody⟩ := perform_held hempty ops
  obtain ⟨b', hb', h⟩ := (holds_empty hb).run ops
  rw [hresults] at hb'
  exact ⟨b', _, hb', Prod.ext hresults rfl, h, hbody⟩

/-- What can be said of a builder that holds some items. No body is too long; the body and the frame
are found where they stand, and the header is accepted; one more item is added exactly if there is
room for it, and otherwise is refused without a change. -/
structure Accounts (b : Builder) (items : List Item) : Prop where
  length_le : b.length ≤ capacity
  body : b.body = some (items.flatMap Item.bytes)
  frame : ∃ header b', Builder.frame b = some (.ok (header ++ items.flatMap Item.bytes), b') ∧
    header.length = headerLength ∧ littleEndian header = (items.flatMap Item.bytes).length ∧
    bodyLength header = .ok (items.flatMap Item.bytes).length
  room : ∀ i : Item, i.size ≤ capacity - b.length →
    ∃ b', add i b = some (.ok (), b') ∧ b'.body = some (items.flatMap Item.bytes ++ i.bytes)
  full : ∀ i : Item, capacity - b.length < i.size → add i b = some (.error .full, b)

lemma Holds.accounts {b : Builder} {m : Message} (h : b.Holds m) {items : List Item}
    (hm : m.body = items.flatMap Item.bytes) : b.Accounts items where
  length_le := h.length_le
  body := hm ▸ h.body
  frame := by
    obtain ⟨b', hb', -⟩ := h.frame
    have hlt : m.body.length < 4294967296 := m.body_length_le.trans_lt (by decide)
    have hheader : littleEndian (wordBytes (UInt32.ofNat m.body.length)) = m.body.length := by
      rw [littleEndian_wordBytes, UInt32.toNat_ofNat', Nat.mod_eq_of_lt hlt]
    rw [← hm]
    exact ⟨_, b', hb', wordBytes_length _, hheader, bodyLength_wordBytes m.body_length_le⟩
  room := by
    intro i hi
    obtain ⟨b', m', hb', -, hbody, h'⟩ := h.add_of_room hi
    refine ⟨b', hb', ?_⟩
    rw [h'.body, hbody, hm]
  full := fun _ hi => (h.add_full hi).1

/-- **A message is what was written since it was cleared last.** Whatever is done with a message and
whatever is refused, no room is computed from a body that is too long and no access leaves the
buffer. Each operation ends as the room tells; the body is the items that were added since the
message was cleared, whether on its own or to write a request or a reply, and the frame is the body
behind its length; and this is what the same operations make of a message that is not built in
place. An operation that clears begins anew on any builder, so nothing that was written before
matters. -/
theorem body_since_cleared (ops : List Operation) :
    (∃ b m, run ops new = some (outcomes [] ops, b) ∧ b.Accounts (held ops) ∧
      perform ops .empty = (outcomes [] ops, m) ∧ b.body = some m.body ∧
      ∃ b', frame b = some (.ok m.frame, b')) ∧
    ∀ op : Operation, op.clears = true → ∀ left : Builder, ∃ b,
      run (op :: ops) left = some (outcomes [] (op :: ops), b) ∧
      b.Accounts (held (op :: ops)) := by
  refine ⟨?_, fun op hop left => ?_⟩
  · have hnew : new.length = 0 := rfl
    obtain ⟨b, m, hb, hm, h, hbody⟩ := run_of_length_eq_zero hnew ops
    obtain ⟨b', hb', -⟩ := h.frame
    exact ⟨b, m, hb, h.accounts hbody, hm, h.body, b', hb'⟩
  · have hleft : ({ left with length := 0 } : Builder).length = 0 := rfl
    obtain ⟨b, m, hb, -, h, hbody⟩ := run_of_length_eq_zero hleft (op :: ops)
    rw [run, ← build_of_clears hop left, ← run] at hb
    exact ⟨b, hb, h.accounts hbody⟩

/-- Data that is too long by one byte, data that leaves room for an integer, two integers, of which
the second finds no room, and then a reply with a payload that does not fit: its return code is all
that is left of it. -/
theorem body_since_cleared_full :
    let filling : List Operation := [.add (.data (List.replicate 4092 97)),
      .add (.data (List.replicate 4086 97)), .add (.int 7), .add (.int 8)]
    let reply : Operation := .reply ⟨-13, some (List.replicate 4087 97)⟩
    reply.clears = true ∧ ∃ b b',
      run filling new = some ([.error .full, .ok (), .ok (), .error .full], b) ∧
      b.body = some ((Item.data (List.replicate 4086 97)).bytes ++ [1, 7, 0, 0, 0]) ∧
      run [reply] b = some ([.error .full], b') ∧ b'.body = some [1, 243, 255, 255, 255] := by
  intro filling reply
  have hfilling : outcomes [] filling = [.error .full, .ok (), .ok (), .error .full] ∧
      held filling = [.data (List.replicate 4086 97), .int 7] := by
    simp [-List.reduceReplicate, filling, outcomes, held, Operation.outcome, Operation.leaves,
      Operation.kept, Operation.clears, Operation.items, Item.total, Item.fitting, Item.size,
      capacity]
  have hreply : outcomes [] [reply] = [.error .full] ∧ held [reply] = [.int (-13)] := by
    simp [-List.reduceReplicate, reply, outcomes, held, Operation.outcome, Operation.leaves,
      Operation.kept, Operation.clears, Operation.items, Reply.items, Item.total, Item.fitting,
      Item.size, capacity]
  have hclears : reply.clears = true := rfl
  obtain ⟨⟨b, -, hb, hb_body, -⟩, -⟩ := body_since_cleared filling
  obtain ⟨-, hanew⟩ := body_since_cleared []
  obtain ⟨b', hb', hb'_body⟩ := hanew reply hclears b
  rw [hfilling.1] at hb
  rw [hreply.1] at hb'
  refine ⟨hclears, b, b', hb, ?_, hb', ?_⟩
  · rw [hb_body.body, hfilling.2]
    rfl
  · rw [hb'_body.body, hreply.2]
    rfl

end Builder

end Wire

end FileBroker
