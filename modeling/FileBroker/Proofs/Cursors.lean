/-
Replies read in place.

Who waits for a reply reads it where it was received. A reader is then a position in the body, the
payload is a part of it that is known by where it begins, and every access to the body is checked
against its bounds: one that leaves them has no outcome. Such a reader goes hand in hand with one
that consumes the bytes of the body, so it never leaves the bounds, and it finds in a body the reply
that is written there.

* `Wire.slice?`, `Wire.Slice`: parts of a byte string.
* `Wire.Cursor`: reading at a position of a body.
* `Cursor.Follows`: reading at a position as a reader does who consumes the bytes.
* `Cursor.follows_bind`, `Cursor.int_follows`, `Cursor.data_follows`: the readings that do.
* `Reply.locate_spec`: what is found in a body, and where.
-/
import FileBroker.Proofs.ReplyGrammar

namespace FileBroker

namespace Wire

/-! ### Reading at a position -/

/-- The bytes from one position up to another, if the string has them. -/
def slice? (bytes : Bytes) (start stop : ℕ) : Option Bytes :=
  if start ≤ stop ∧ stop ≤ bytes.length then some ((bytes.take stop).drop start) else none

/-- A part of a byte string, with the position where it begins. -/
structure Slice where
  start : ℕ
  bytes : Bytes

/-- The slice is a part of some bytes. -/
def Slice.Of (s : Slice) (body : Bytes) : Prop :=
  slice? body s.start (s.start + s.bytes.length) = some s.bytes

/-- Reading a value at a position of a body, unless an access leaves the body. -/
def Cursor (α : Type) : Type := Bytes → ℕ → Option (Except Fault α × ℕ)

namespace Cursor

variable {α β : Type}

instance : Monad Cursor where
  pure a := fun _ position => some (.ok a, position)
  bind x f := fun body position =>
    match x body position with
    | none => none
    | some (.error fault, position') => some (.error fault, position')
    | some (.ok a, position') => f a body position'

/-- Reading that fails. -/
def fail (fault : Fault) : Cursor α := fun _ position => some (.error fault, position)

/-- Whether everything has been read. -/
def exhausted : Cursor Bool := fun body position => some (.ok (position == body.length), position)

/-- The byte at a place, which must be there. -/
def byteAt (bytes : Bytes) (i : ℕ) : Cursor UInt8 := fun _ position =>
  bytes[i]?.map fun byte => (.ok byte, position)

/-- The next `n` bytes. The position must not lie behind the body when the two are compared. -/
def take (n : ℕ) : Cursor Slice := fun body position =>
  if body.length < position then none
  else if body.length - position < n then some (.error .truncated, position)
  else (slice? body position (position + n)).map fun bytes => (.ok ⟨position, bytes⟩, position + n)

/-- The tag of the next entry, which must be the expected one. -/
def tag (expected : UInt8) : Cursor Unit := do
  let s ← take 1
  let found ← byteAt s.bytes 0
  if found = expected then return () else fail (.unexpectedTag expected found)

/-- The next unsigned word. -/
def word : Cursor UInt32 := do
  let s ← take 4
  return wordOfBytes (← byteAt s.bytes 0) (← byteAt s.bytes 1) (← byteAt s.bytes 2)
    (← byteAt s.bytes 3)

/-- The next entry, an integer. -/
def int : Cursor Word := do
  tag intTag
  let n ← word
  return n.toInt32

/-- The next entry, data. -/
def data : Cursor Slice := do
  tag dataTag
  let n ← word
  take n.toNat

/-! ### Readers that consume the bytes -/

/-- Reading at a position of a body does what a reader does who has consumed the bytes before it: it
stays in the body, fails alike, and finds a value that is related to that reader's. -/
def Follows (body : Bytes) (R : α → β → Prop) (x : Cursor α) (y : Reading β) : Prop :=
  ∀ position ≤ body.length, ∃ value position', x body position = some (value, position') ∧
    position' ≤ body.length ∧
    (y ⟨position, body.drop position⟩).2 = ⟨position', body.drop position'⟩ ∧
    match value, (y ⟨position, body.drop position⟩).1 with
    | .ok a, .ok b => R a b
    | .error fault, .error fault' => fault = fault'
    | _, _ => False

variable {body : Bytes} {R : α → β → Prop}

lemma follows_pure {a : α} {b : β} (h : R a b) : Follows body R (pure a) (pure b) :=
  fun position hp => ⟨.ok a, position, rfl, hp, rfl, h⟩

lemma bind_of_ok {x : Cursor α} {f : α → Cursor β} {position position' : ℕ} {a : α}
    (h : x body position = some (.ok a, position')) :
    (x >>= f) body position = f a body position' := by
  simp only [bind, h]

lemma bind_of_error {x : Cursor α} {f : α → Cursor β} {position position' : ℕ} {fault : Fault}
    (h : x body position = some (.error fault, position')) :
    (x >>= f) body position = some (.error fault, position') := by
  simp only [bind, h]

/-- What is read in two parts follows, if both parts do. -/
lemma follows_bind {γ ε : Type} {S : γ → ε → Prop} {x : Cursor α} {y : Reading β}
    {f : α → Cursor γ} {g : β → Reading ε} (hx : Follows body R x y)
    (hf : ∀ a b, R a b → Follows body S (f a) (g b)) : Follows body S (x >>= f) (y >>= g) := by
  intro position hp
  obtain ⟨value, position', hvalue, hp', hrest, hrel⟩ := hx position hp
  rcases hy : y ⟨position, body.drop position⟩ with ⟨fault' | b, r⟩
  · rw [hy] at hrest hrel
    rcases value with fault | a
    · exact ⟨.error fault, position', bind_of_error hvalue, hp', by simpa [bind, hy] using hrest,
        by simpa [bind, hy] using hrel⟩
    · exact hrel.elim
  · rw [hy] at hrest hrel
    rcases value with fault | a
    · exact hrel.elim
    · obtain rfl : r = ⟨position', body.drop position'⟩ := hrest
      obtain ⟨value, position'', hvalue', hp'', hrest', hrel'⟩ := hf a b hrel position' hp'
      exact ⟨value, position'', (bind_of_ok hvalue).trans hvalue', hp'',
        by simpa [bind, hy] using hrest', by simpa [bind, hy] using hrel'⟩

lemma slice?_eq {position n : ℕ} (h : position + n ≤ body.length) :
    slice? body position (position + n) = some ((body.drop position).take n) := by
  rw [slice?, if_pos ⟨Nat.le_add_right .., h⟩, List.drop_take, Nat.add_sub_cancel_left]

/-- The next bytes of a body are taken as a slice. -/
lemma take_of_drop {position : ℕ} (bytes : Bytes) {rest : Bytes} (hp : position ≤ body.length)
    (h : body.drop position = bytes ++ rest) :
    take bytes.length body position =
        some (.ok ⟨position, bytes⟩, position + bytes.length) ∧
      position + bytes.length ≤ body.length ∧ Slice.Of ⟨position, bytes⟩ body := by
  have hl : body.length - position = bytes.length + rest.length := by
    rw [← List.length_drop, h, List.length_append]
  have hslice : slice? body position (position + bytes.length) = some bytes := by
    rw [slice?_eq (by omega), h, List.take_left' rfl]
  refine ⟨?_, by omega, hslice⟩
  rw [take, if_neg (by omega), if_neg (by omega), hslice, Option.map_some]

/-- Where too few bytes are left, none are taken. -/
lemma take_of_short {position n : ℕ} (hp : position ≤ body.length)
    (h : (body.drop position).length < n) :
    take n body position = some (.error .truncated, position) := by
  rw [List.length_drop] at h
  rw [take, if_neg (by omega), if_pos h]

lemma take_follows (n : ℕ) :
    Follows body (fun s bytes => s.bytes = bytes ∧ s.Of body) (take n) (Wire.take n) := by
  intro position hp
  by_cases hn : (body.drop position).length < n
  · refine ⟨.error .truncated, position, take_of_short hp hn, hp, ?_⟩
    have hl : ((body.drop position).take n).length ≠ n := by
      rw [List.length_take]
      omega
    simp only [Wire.take, if_neg hl, and_self]
  · have hl : ((body.drop position).take n).length = n := by
      rw [List.length_take]
      omega
    obtain ⟨htake, hle, hof⟩ := take_of_drop _ hp (List.take_append_drop n _).symm
    rw [hl] at htake hle
    refine ⟨_, _, htake, hle, ?_⟩
    simp only [Wire.take, if_pos hl, Reader.advance, List.drop_drop, true_and]
    exact hof

lemma tag_follows (expected : UInt8) :
    Follows body (fun _ _ => True) (tag expected) (Wire.tag expected) := by
  intro position hp
  rcases hrest : body.drop position with _ | ⟨found, rest⟩
  · have htake := take_of_short (n := 1) hp (by simp [hrest])
    refine ⟨.error .truncated, position, bind_of_error htake, hp, ?_⟩
    simp [Wire.tag, hrest]
  · obtain ⟨htake, hle, -⟩ := take_of_drop [found] hp hrest
    have hdrop : body.drop (position + 1) = rest := by
      rw [← List.drop_drop, hrest]
      rfl
    refine ⟨if found = expected then .ok () else .error (.unexpectedTag expected found),
      position + 1, ?_, hle, ?_⟩
    · refine (bind_of_ok htake).trans ((bind_of_ok rfl).trans ?_)
      split <;> rfl
    · simp only [Wire.tag, Reader.advance, List.drop_one, List.tail_cons, hdrop, true_and]
      split_ifs
      · trivial
      · rfl

lemma word_follows : Follows body Eq word Wire.word := by
  intro position hp
  rcases hrest : body.drop position with _ | ⟨a, _ | ⟨b, _ | ⟨c, _ | ⟨d, rest⟩⟩⟩⟩
  case cons.cons.cons.cons =>
    obtain ⟨htake, hle, -⟩ := take_of_drop [a, b, c, d] hp hrest
    have hdrop : body.drop (position + 4) = rest := by
      rw [← List.drop_drop, hrest]
      rfl
    refine ⟨.ok (wordOfBytes a b c d), position + 4, (bind_of_ok htake).trans rfl, hle, ?_⟩
    simp [Wire.word, Reader.advance, hdrop]
  all_goals
    have htake := take_of_short (n := 4) hp (by simp [hrest])
    refine ⟨.error .truncated, position, bind_of_error htake, hp, ?_⟩
    simp [Wire.word, hrest]

lemma int_follows : Follows body Eq int Wire.int :=
  follows_bind (tag_follows _) fun _ _ _ => follows_bind word_follows fun _ _ h =>
    follows_pure (congrArg UInt32.toInt32 h)

lemma data_follows : Follows body (fun s bytes => s.bytes = bytes ∧ s.Of body) data Wire.data :=
  follows_bind (tag_follows _) fun _ _ _ => follows_bind word_follows fun n _ h =>
    h ▸ take_follows n.toNat

end Cursor

end Wire

/-! ### Replies -/

namespace Reply

/-- The return code of the reply that a body holds, and where its payload is, if it has one. -/
def locate : Wire.Cursor (Word × Option Wire.Slice) := do
  let code ← Wire.Cursor.int
  if ← Wire.Cursor.exhausted then return (code, none)
  let s ← Wire.Cursor.data
  if ← Wire.Cursor.exhausted then return (code, some s)
  Wire.Cursor.fail .trailingData

/-- Whether everything has been read. -/
def readEnd : Wire.Reading Bool := fun r => (.ok r.exhausted, r)

/-- Reading a reply. -/
def read : Wire.Reading Reply := do
  let code ← Wire.int
  if ← readEnd then return ⟨code, none⟩
  let payload ← Wire.data
  if ← readEnd then return ⟨code, some payload⟩
  Wire.Reading.fail .trailingData

lemma readEnd_eq (r : Wire.Reader) : readEnd r = (.ok r.exhausted, r) := rfl

lemma decode_eq_read (body : Bytes) : decode body = (read (.ofBytes body)).1 := by
  rw [decode]
  rcases hint : Wire.int (.ofBytes body) with ⟨fault | code, rest⟩
  · rw [read, Wire.Reading.bind_error hint]
  rw [read, Wire.Reading.bind_ok hint, Wire.Reading.bind_ok (readEnd_eq rest)]
  dsimp only
  by_cases hend : rest.exhausted = true
  · rw [if_pos hend, if_pos hend]
    rfl
  rw [if_neg hend, if_neg hend]
  rcases hdata : Wire.data rest with ⟨fault | payload, rest'⟩
  · rw [Wire.Reading.bind_error hdata]
  rw [Wire.Reading.bind_ok hdata, Wire.Reading.bind_ok (readEnd_eq rest')]
  dsimp only
  by_cases hend' : rest'.exhausted = true
  · rw [if_pos hend', if_pos hend']
    rfl
  · rw [if_neg hend', if_neg hend']
    rfl

lemma exhausted_follows {body : Bytes} :
    Wire.Cursor.Follows body Eq Wire.Cursor.exhausted readEnd := by
  intro position hp
  refine ⟨_, position, rfl, hp, rfl, ?_⟩
  show (position == body.length) = (body.drop position).isEmpty
  rw [Bool.eq_iff_iff, beq_iff_eq, List.isEmpty_iff, List.drop_eq_nil_iff]
  omega

/-- A return code and the place of a payload are those of a reply in some body. -/
structure Located (body : Bytes) (found : Word × Option Wire.Slice) (r : Reply) : Prop where
  returnCode : found.1 = r.returnCode
  payload : found.2.map Wire.Slice.bytes = r.payload
  place : ∀ s, found.2 = some s → s.Of body

lemma locate_follows {body : Bytes} :
    Wire.Cursor.Follows body (Located body) locate read := by
  refine Wire.Cursor.follows_bind Wire.Cursor.int_follows fun code _ hcode => ?_
  refine Wire.Cursor.follows_bind exhausted_follows fun ended _ hended => ?_
  subst hcode hended
  split
  · exact Wire.Cursor.follows_pure ⟨rfl, rfl, nofun⟩
  refine Wire.Cursor.follows_bind Wire.Cursor.data_follows fun s payload hs => ?_
  refine Wire.Cursor.follows_bind exhausted_follows fun ended _ hended => ?_
  subst hended
  split
  · refine Wire.Cursor.follows_pure ⟨rfl, congrArg some hs.1, fun s' hs' => ?_⟩
    rw [← Option.some.inj hs']
    exact hs.2
  · exact fun position hp => ⟨_, position, rfl, hp, rfl, rfl⟩

/-- Reading a reply where it stands never leaves its body, and finds there what the body holds: a
fault, or the return code and the payload as a part of the body. -/
lemma locate_spec (body : Bytes) :
    ∃ value position, locate body 0 = some (value, position) ∧
      ((∃ fault, value = .error fault ∧ decode body = .error fault) ∨
        ∃ found r, value = .ok found ∧ decode body = .ok r ∧ Located body found r) := by
  have hfollows : Wire.Cursor.Follows body (Located body) locate read := locate_follows
  obtain ⟨value, position, hvalue, -, -, hrel⟩ := hfollows 0 (Nat.zero_le _)
  have hread : (read ⟨0, body.drop 0⟩).1 = decode body := (decode_eq_read body).symm
  rw [hread] at hrel
  refine ⟨value, position, hvalue, ?_⟩
  rcases value with fault | found <;> rcases hd : decode body with fault' | r
  · rw [hd] at hrel
    exact .inl ⟨fault, rfl, congrArg _ hrel.symm⟩
  · simp [hd] at hrel
  · simp [hd] at hrel
  · rw [hd] at hrel
    exact .inr ⟨found, r, rfl, rfl, hrel⟩

end Reply

end FileBroker
