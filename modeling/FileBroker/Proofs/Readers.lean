/-
Reading on, also after failures.

Nothing keeps a reader from being used again after a read that failed, and what is read may be any
bytes. A read takes the tag, the number behind it and the data one after another and stops where
something is wrong, so what it took until then is gone; but it never takes more than there is. With
the reads that belong to the items of a message, in their order, the items come back.

* `Wire.Kind`, `Wire.item`, `Cursor.item`: what may be read next, by a reader that consumes the
  bytes and at a position of a body.
* `Wire.Reads`, `Reads.total`: how a read ends in front of some bytes, and how many of them it
  takes, in terms of the bytes alone.
* `Wire.item_of_reads`: every read does this.
* `Cursor.reads`, `Wire.Course`: reads one after another, whatever comes of them.
* `Cursor.reads_at`: no read ever leaves the body.
* `Cursor.reads_whole`: items are read as they were added.
* `Cursor.reads_account`: what becomes of any reads of any bytes, and of the reads of a message.
-/
import FileBroker.Proofs.Builders
import FileBroker.Proofs.Cursors
import FileBroker.Proofs.Cuts

namespace FileBroker.Wire

open FileBroker.Connection (littleEndian littleEndian_wordBytes wordBytes_littleEndian)

/-! ### Reads -/

/-- What may be read next. -/
inductive Kind where
  | int
  | data
  | text
  deriving DecidableEq, Repr

/-- The tag of what is read: a path is data. -/
def Kind.tag : Kind → UInt8
  | int => intTag
  | data => dataTag
  | text => dataTag

/-- The kind of the read that gives an item back. -/
def Item.kind : Item → Kind
  | int _ => .int
  | data _ => .data
  | text _ => .text

/-- The next item, which must be of the given kind. -/
def item : Kind → Reading Item
  | .int => do return .int (← int)
  | .data => do return .data (← data)
  | .text => do return .text (← text)

namespace Cursor

/-- The next entry, data that spells a path. -/
def text : Cursor Path := do
  let s ← data
  match Path.ofTerminated? s.bytes with
  | some path => return path
  | none => fail .invalidText

/-- The next item, which must be of the given kind. -/
def item : Kind → Cursor Item
  | .int => do return .int (← int)
  | .data => do return .data (← data).bytes
  | .text => do return .text (← text)

lemma text_follows {body : Bytes} : Follows body Eq text Wire.text := by
  refine follows_bind data_follows fun s bytes hs => ?_
  rw [hs.1]
  cases Path.ofTerminated? bytes with
  | some path => exact follows_pure rfl
  | none => exact fun position hp => ⟨_, position, rfl, hp, rfl, rfl⟩

lemma item_follows {body : Bytes} (k : Kind) : Follows body Eq (item k) (Wire.item k) := by
  cases k with
  | int => exact follows_bind int_follows fun _ _ h => follows_pure (congrArg Item.int h)
  | data => exact follows_bind data_follows fun _ _ h => follows_pure (congrArg Item.data h.1)
  | text => exact follows_bind text_follows fun _ _ h => follows_pure (congrArg Item.text h)

end Cursor

/-! ### What a read takes -/

/-- How a read of some kind ends in front of some bytes, and how many of them it takes: none at the
end, the tag if it is another one or if the number behind it is cut off, tag and number if the data
is cut off, and everything if data spells no path, as if there were nothing wrong. -/
inductive Reads : Kind → Bytes → Except Fault Item → ℕ → Prop
  | ended {k : Kind} : Reads k [] (.error .truncated) 0
  | unexpected {k : Kind} {found : UInt8} {rest : Bytes} (h : found ≠ k.tag) :
      Reads k (found :: rest) (.error (.unexpectedTag k.tag found)) 1
  | cutNumber {k : Kind} {short : Bytes} (h : short.length < 4) :
      Reads k (k.tag :: short) (.error .truncated) 1
  | cutData {k : Kind} {digits short : Bytes} (hk : k.tag = dataTag) (hl : digits.length = 4)
      (h : short.length < littleEndian digits) :
      Reads k (k.tag :: (digits ++ short)) (.error .truncated) 5
  | noText {digits bytes rest : Bytes} (hl : digits.length = 4)
      (hn : littleEndian digits = bytes.length)
      (h : ¬ (bytes.count 0 = 1 ∧ bytes.getLast? = some 0)) :
      Reads .text (dataTag :: (digits ++ (bytes ++ rest))) (.error .invalidText) (5 + bytes.length)
  | int {b rest : Bytes} {n : Word} (h : SpellsInt b n) : Reads .int (b ++ rest) (.ok (.int n)) 5
  | data {b rest bytes : Bytes} (h : SpellsData b bytes) :
      Reads .data (b ++ rest) (.ok (.data bytes)) (5 + bytes.length)
  | text {b rest : Bytes} {p : Path} (h : SpellsPath b p) :
      Reads .text (b ++ rest) (.ok (.text p)) (5 + p.terminated.length)

/-- No read takes more than there is. -/
lemma Reads.length_le {k : Kind} {b : Bytes} {outcome : Except Fault Item} {n : ℕ}
    (h : Reads k b outcome n) : n ≤ b.length := by
  cases h with
  | ended => exact Nat.le_refl 0
  | unexpected => simp
  | cutNumber => simp
  | cutData hk hl h =>
    rw [List.length_cons, List.length_append]
    omega
  | noText hl hn h =>
    rw [List.length_cons, List.length_append, List.length_append]
    omega
  | int h =>
    obtain rfl := spellsInt_iff.mp h
    simp [Entry.int_encode_length]
  | @data _ _ bytes h =>
    obtain ⟨-, rfl⟩ := spellsData_iff.mp h
    rw [List.length_append]
    exact Nat.le_add_right_of_le (Item.bytes_length (.data bytes)).ge
  | @text _ _ p h =>
    obtain ⟨-, rfl⟩ := spellsPath_iff.mp h
    rw [List.length_append]
    exact Nat.le_add_right_of_le (Item.bytes_length (.text p)).ge

lemma Reads.add_le {k : Kind} {body : Bytes} {position n : ℕ} {outcome : Except Fault Item}
    (hp : position ≤ body.length) (h : Reads k (body.drop position) outcome n) :
    position + n ≤ body.length := by
  have hn := h.length_le
  rw [List.length_drop] at hn
  exact Nat.add_le_of_le_sub' hp hn

/-- A tag and a number behind it are there, or it is told by the bytes what is wrong. -/
lemma opening_cases (expected : UInt8) (b : Bytes) :
    b = [] ∨ (∃ found rest, b = found :: rest ∧ found ≠ expected) ∨
      (∃ short, b = expected :: short ∧ short.length < 4) ∨
      ∃ digits rest, b = expected :: (digits ++ rest) ∧ digits.length = 4 := by
  rcases b with _ | ⟨found, rest⟩
  · exact .inl rfl
  by_cases hfound : found = expected
  · subst hfound
    by_cases hshort : rest.length < 4
    · exact .inr (.inr (.inl ⟨rest, rfl, hshort⟩))
    · refine .inr (.inr (.inr ⟨rest.take 4, rest.drop 4, ?_, ?_⟩))
      · rw [List.take_append_drop]
      · exact List.length_take_of_le (Nat.le_of_not_lt hshort)
  · exact .inr (.inl ⟨found, rest, rfl, hfound⟩)

/-- There are too few bytes, or so many can be split off. -/
lemma short_or_split (n : ℕ) (b : Bytes) :
    b.length < n ∨ ∃ bytes more, b = bytes ++ more ∧ n = bytes.length := by
  by_cases h : b.length < n
  · exact .inl h
  · exact .inr ⟨_, _, (List.take_append_drop n b).symm,
      (List.length_take_of_le (Nat.le_of_not_lt h)).symm⟩

/-- Every number is that of an integer. -/
lemma Reads.total_int {digits : Bytes} (hl : digits.length = 4) (rest : Bytes) :
    ∃ outcome n, Reads .int (intTag :: (digits ++ rest)) outcome n := by
  have hn : littleEndian digits = (UInt32.ofNat (littleEndian digits)).toInt32.toUInt32.toNat := by
    rw [UInt32.toUInt32_toInt32, UInt32.toNat_ofNat', Nat.mod_eq_of_lt (littleEndian_lt hl)]
  exact ⟨_, _, .int (.intro hl hn)⟩

/-- Data that is there spells a path or does not. -/
lemma Reads.total_text {digits bytes : Bytes} (hl : digits.length = 4)
    (hn : littleEndian digits = bytes.length) (rest : Bytes) :
    ∃ outcome n, Reads .text (dataTag :: (digits ++ (bytes ++ rest))) outcome n := by
  by_cases h : bytes.count 0 = 1 ∧ bytes.getLast? = some 0
  · obtain ⟨hone, hlast⟩ := h
    have hsplit : bytes.dropLast ++ [0] = bytes := List.dropLast_append_getLast? 0 hlast
    have hfree : 0 ∉ bytes.dropLast := by
      rw [← hsplit, List.count_append, List.count_singleton_self] at hone
      exact List.count_eq_zero.mp (by omega)
    have hspells : SpellsPath (dataTag :: (digits ++ bytes)) ⟨bytes.dropLast, hfree⟩ :=
      .intro hl hn hone hlast rfl
    rw [← List.append_assoc, ← List.cons_append]
    exact ⟨_, _, .text hspells⟩
  · exact ⟨_, _, .noText hl hn h⟩

/-- All bytes tell how a read of some kind ends in front of them. -/
lemma Reads.total (k : Kind) (b : Bytes) : ∃ outcome n, Reads k b outcome n := by
  obtain rfl | ⟨found, rest, rfl, hfound⟩ | ⟨short, rfl, hshort⟩ | ⟨digits, rest, rfl, hdigits⟩ :=
    opening_cases k.tag b
  · exact ⟨_, _, .ended⟩
  · exact ⟨_, _, .unexpected hfound⟩
  · exact ⟨_, _, .cutNumber hshort⟩
  cases k with
  | int => exact Reads.total_int hdigits rest
  | data =>
    obtain hshort | ⟨bytes, more, rfl, hbytes⟩ := short_or_split (littleEndian digits) rest
    · exact ⟨_, _, .cutData rfl hdigits hshort⟩
    · rw [← List.append_assoc, ← List.cons_append]
      exact ⟨_, _, .data (.intro hdigits hbytes)⟩
  | text =>
    obtain hshort | ⟨bytes, more, rfl, hbytes⟩ := short_or_split (littleEndian digits) rest
    · exact ⟨_, _, .cutData rfl hdigits hshort⟩
    · exact Reads.total_text hdigits hbytes more

/-! ### Reading as the bytes tell -/

section Opening

variable {α : Type} {expected : UInt8} {f : UInt32 → Reading α} {position : ℕ}

lemma opening_unexpected {found : UInt8} (h : found ≠ expected) (rest : Bytes) :
    (tag expected >>= fun _ => word >>= f) ⟨position, found :: rest⟩ =
      (.error (.unexpectedTag expected found), ⟨position + 1, rest⟩) := by
  refine Reading.bind_error ?_
  simp only [tag, if_neg h]
  rfl

lemma opening_cut {short : Bytes} (h : short.length < 4) :
    (tag expected >>= fun _ => word >>= f) ⟨position, expected :: short⟩ =
      (.error .truncated, ⟨position + 1, short⟩) := by
  have htag := (takes_tag expected).whole position short
  refine (Reading.bind_ok htag).trans (Reading.bind_error ?_)
  rcases short with _ | ⟨a, _ | ⟨b, _ | ⟨c, _ | ⟨d, rest⟩⟩⟩⟩
  case cons.cons.cons.cons =>
    simp only [List.length_cons] at h
    omega
  all_goals rfl

lemma opening_number {digits : Bytes} (h : digits.length = 4) (rest : Bytes) :
    (tag expected >>= fun _ => word >>= f) ⟨position, expected :: (digits ++ rest)⟩ =
      f (UInt32.ofNat (littleEndian digits)) ⟨position + 5, rest⟩ := by
  have htag := (takes_tag expected).whole position (digits ++ rest)
  have hword := (takes_word (UInt32.ofNat (littleEndian digits))).whole (position + 1) rest
  rw [wordBytes_littleEndian h, h] at hword
  exact (Reading.bind_ok htag).trans (Reading.bind_ok hword)

end Opening

/-- What goes wrong with the tag or the number goes wrong with the whole read. -/
lemma item_of_opening {k : Kind} {fault : Fault} {r r' : Reader}
    (h : ∀ {α : Type} (f : UInt32 → Reading α),
      (tag k.tag >>= fun _ => word >>= f) r = (.error fault, r')) :
    item k r = (.error fault, r') := by
  cases k with
  | int => exact Reading.bind_error (h _)
  | data => exact Reading.bind_error (h _)
  | text => exact Reading.bind_error (Reading.bind_error (h _))

/-- Where there are too few bytes, none are taken. -/
lemma take_of_rest_lt {n : ℕ} {r : Reader} (h : r.rest.length < n) :
    take n r = (.error .truncated, r) := by
  have hl : (r.rest.take n).length ≠ n := by
    rw [List.length_take]
    omega
  simp only [take, if_neg hl]

/-- What an item is written as is taken. -/
lemma item_written {i : Item} (h : (item i.kind).Takes i.bytes i) (position : ℕ) (rest : Bytes) :
    item i.kind ⟨position, i.bytes ++ rest⟩ =
      (.ok i, ⟨position + i.size, (i.bytes ++ rest).drop i.size⟩) := by
  rw [h.whole, ← i.bytes_length, List.drop_left]

/-- Data that is cut off is known to be when its length has been taken. -/
lemma data_cut {digits short : Bytes} (hl : digits.length = 4)
    (h : short.length < littleEndian digits) (position : ℕ) :
    data ⟨position, dataTag :: (digits ++ short)⟩ = (.error .truncated, ⟨position + 5, short⟩) := by
  have hn : (UInt32.ofNat (littleEndian digits)).toNat = littleEndian digits := by
    rw [UInt32.toNat_ofNat', Nat.mod_eq_of_lt (littleEndian_lt hl)]
  refine (opening_number hl short).trans ?_
  rw [hn]
  exact take_of_rest_lt h

/-- Data that spells no path is known not to when all of it has been taken. -/
lemma text_refused {digits bytes : Bytes} (hl : digits.length = 4)
    (hn : littleEndian digits = bytes.length)
    (h : ¬ (bytes.count 0 = 1 ∧ bytes.getLast? = some 0)) (position : ℕ) (rest : Bytes) :
    text ⟨position, dataTag :: (digits ++ (bytes ++ rest))⟩ =
      (.error .invalidText, ⟨position + (5 + bytes.length), rest⟩) := by
  obtain ⟨hlen, hwritten⟩ := spellsData_iff.mp (.intro hl hn)
  have hdata := (takes_data hlen).whole position rest
  rw [← hwritten, List.cons_append, List.append_assoc] at hdata
  have hpath : Path.ofTerminated? bytes = none := by
    cases hpath : Path.ofTerminated? bytes with
    | none => rfl
    | some path =>
      obtain ⟨hone, hlast, -⟩ := eq_terminated_iff.mpr (terminated_of_ofTerminated? hpath)
      exact absurd ⟨hone, hlast⟩ h
  refine (Reading.bind_ok hdata).trans ?_
  rw [hpath, List.length_cons, List.length_append, hl, Nat.add_right_comm]
  rfl

/-- A read ends as the bytes in front of it tell, and takes as many of them as they tell. -/
lemma item_of_reads {k : Kind} {b : Bytes} {outcome : Except Fault Item} {n : ℕ}
    (h : Reads k b outcome n) (position : ℕ) :
    item k ⟨position, b⟩ = (outcome, ⟨position + n, b.drop n⟩) := by
  cases h with
  | ended => cases k <;> rfl
  | unexpected h => exact item_of_opening fun f => opening_unexpected h _
  | cutNumber h => exact item_of_opening fun f => opening_cut h
  | @cutData k digits short hk hl h =>
    have hdrop : (k.tag :: (digits ++ short)).drop 5 = short := by
      rw [List.drop_succ_cons, ← hl, List.drop_left]
    have hcut := data_cut hl h position
    rw [hdrop, hk]
    cases k with
    | int => cases hk
    | data => exact Reading.bind_error hcut
    | text => exact Reading.bind_error (Reading.bind_error hcut)
  | @noText digits bytes rest hl hn h =>
    have hdrop : (dataTag :: (digits ++ (bytes ++ rest))).drop (5 + bytes.length) = rest := by
      rw [← List.append_assoc, ← List.cons_append]
      exact List.drop_left' (by simp [hl]; omega)
    rw [hdrop]
    exact Reading.bind_error (text_refused hl hn h position rest)
  | int h =>
    obtain rfl := spellsInt_iff.mp h
    exact item_written (i := .int _) ((takes_int _).map Item.int) position _
  | data h =>
    obtain ⟨hlen, rfl⟩ := spellsData_iff.mp h
    exact item_written (i := .data _) ((takes_data hlen).map Item.data) position _
  | text h =>
    obtain ⟨hlen, rfl⟩ := spellsPath_iff.mp h
    exact item_written (i := .text _) ((takes_text hlen).map Item.text) position _

/-! ### Reads one after another -/

/-- Reads one after another, each from where the one before it has ended, also if that has failed.
Each outcome comes with the reader that is left. -/
def reads : List Kind → Reader → List (Except Fault Item × Reader)
  | [], _ => []
  | k :: kinds, r =>
    let first := item k r
    first :: reads kinds first.2

/-- The same at a position of a body. Each outcome comes with the position where the read ended. -/
def Cursor.reads : List Kind → Bytes → ℕ → Option (List (Except Fault Item × ℕ))
  | [], _, _ => some []
  | k :: kinds, body, position =>
    (Cursor.item k body position).bind fun first =>
      (Cursor.reads kinds body first.2).map fun later => first :: later

/-- Reads one after another from a position of a body: each ends as the bytes before it tell, and
the next begins behind those that it takes. -/
inductive Course (body : Bytes) : ℕ → List Kind → List (Except Fault Item × ℕ) → Prop
  | done {position : ℕ} : Course body position [] []
  | read {position n : ℕ} {k : Kind} {kinds : List Kind} {outcome : Except Fault Item}
      {later : List (Except Fault Item × ℕ)} (h : Reads k (body.drop position) outcome n)
      (hlater : Course body (position + n) kinds later) :
      Course body position (k :: kinds) ((outcome, position + n) :: later)

namespace Course

variable {body : Bytes} {position : ℕ} {kinds : List Kind}
  {trace : List (Except Fault Item × ℕ)}

lemma total (body : Bytes) (position : ℕ) (kinds : List Kind) :
    ∃ trace, Course body position kinds trace := by
  induction kinds generalizing position with
  | nil => exact ⟨_, .done⟩
  | cons k kinds ih =>
    obtain ⟨outcome, n, h⟩ := Reads.total k (body.drop position)
    obtain ⟨later, hlater⟩ := ih (position + n)
    exact ⟨_, .read h hlater⟩

/-- No read goes back. -/
lemma le_stop (h : Course body position kinds trace) :
    ∀ stop ∈ trace.map Prod.snd, position ≤ stop := by
  induction h with
  | done => exact nofun
  | @read position n _ _ _ _ _ _ ih =>
    intro stop hstop
    rcases List.mem_cons.mp hstop with rfl | hstop
    · exact Nat.le_add_right position n
    · exact (Nat.le_add_right position n).trans (ih stop hstop)

lemma monotone (h : Course body position kinds trace) :
    (position :: trace.map Prod.snd).Pairwise (· ≤ ·) := by
  refine List.pairwise_cons.mpr ⟨h.le_stop, ?_⟩
  induction h with
  | done => exact .nil
  | read _ hlater ih => exact List.pairwise_cons.mpr ⟨hlater.le_stop, ih⟩

/-- No read goes beyond the end. -/
lemma stop_le (h : Course body position kinds trace) (hp : position ≤ body.length) :
    ∀ stop ∈ trace.map Prod.snd, stop ≤ body.length := by
  induction h with
  | done => exact nofun
  | read h _ ih =>
    have hnext := h.add_le hp
    intro stop hstop
    rcases List.mem_cons.mp hstop with rfl | hstop
    · exact hnext
    · exact ih hnext stop hstop

end Course

/-- The reader at a position of a body. -/
def Reader.at (body : Bytes) (position : ℕ) : Reader := ⟨position, body.drop position⟩

namespace Cursor

variable {body : Bytes} {position : ℕ}

/-- A reading at a position that goes hand in hand with one that consumes the bytes is known from
this one. -/
lemma Follows.eq {α : Type} {x : Cursor α} {y : Reading α} (h : Follows body Eq x y)
    (hp : position ≤ body.length) {outcome : Except Fault α} {stop : ℕ}
    (hy : y (.at body position) = (outcome, .at body stop)) :
    x body position = some (outcome, stop) := by
  obtain ⟨value, stop', hvalue, -, hleft, hrel⟩ := h position hp
  rw [← Reader.at, hy] at hleft hrel
  obtain rfl : stop = stop' := congrArg Reader.position hleft
  rw [hvalue]
  rcases value with fault | a <;> rcases outcome with fault' | a'
  · obtain rfl : fault = fault' := hrel
    rfl
  · exact hrel.elim
  · exact hrel.elim
  · obtain rfl : a = a' := hrel
    rfl

/-- A read at a position does not leave the body, and ends as the bytes before it tell. -/
lemma item_at (hp : position ≤ body.length) {k : Kind} {outcome : Except Fault Item} {n : ℕ}
    (h : Reads k (body.drop position) outcome n) :
    item k body position = some (outcome, position + n) ∧
      Wire.item k (.at body position) = (outcome, .at body (position + n)) := by
  have hitem : Wire.item k (.at body position) = (outcome, .at body (position + n)) := by
    rw [Reader.at, item_of_reads h, Reader.at, List.drop_drop]
  exact ⟨(item_follows k).eq hp hitem, hitem⟩

/-- So do reads one after another. -/
lemma reads_at (hp : position ≤ body.length) {kinds : List Kind}
    {trace : List (Except Fault Item × ℕ)} (h : Course body position kinds trace) :
    reads kinds body position = some trace ∧
      Wire.reads kinds (.at body position) = trace.map fun x => (x.1, .at body x.2) := by
  induction h with
  | done => exact ⟨rfl, rfl⟩
  | read h _ ih =>
    obtain ⟨hitem, hitem'⟩ := item_at hp h
    obtain ⟨hlater, hlater'⟩ := ih (h.add_le hp)
    refine ⟨?_, ?_⟩
    · rw [reads, hitem, Option.bind_some, hlater, Option.map_some]
    · rw [Wire.reads, hitem', hlater', List.map_cons]

/-! ### The items of a message -/

/-- What reads give that find some items one after another, and where they end. -/
def stops : ℕ → List Item → List (Except Fault Item × ℕ)
  | _, [] => []
  | position, i :: items => (.ok i, position + i.size) :: stops (position + i.size) items

/-- An item that is not too long for its length to be written is read from what it is written as. -/
lemma reads_bytes {i : Item} (h : i.size < 4294967296) (rest : Bytes) :
    Reads i.kind (i.bytes ++ rest) (.ok i) i.size := by
  cases i with
  | int n => exact .int (spellsInt_iff.mpr rfl)
  | data bytes =>
    rw [Item.size] at h
    exact .data (spellsData_iff.mpr ⟨by omega, rfl⟩)
  | text path =>
    rw [Item.size] at h
    exact .text (spellsPath_iff.mpr ⟨by omega, rfl⟩)

/-- Where an item begins the body has not ended. -/
lemma position_le {i : Item} {rest : Bytes} (h : body.drop position = i.bytes ++ rest) :
    position ≤ body.length := by
  by_contra hlt
  have hpos := i.size_pos
  have hlength := congrArg List.length h
  rw [List.length_drop, List.length_append, i.bytes_length] at hlength
  omega

/-- An item is found where it was added. -/
lemma item_whole {i : Item} (hi : i.size < 4294967296) {rest : Bytes}
    (hrest : body.drop position = i.bytes ++ rest) :
    item i.kind body position = some (.ok i, position + i.size) ∧
      body.drop (position + i.size) = rest := by
  have hdrop : body.drop (position + i.size) = rest := by
    rw [← List.drop_drop, hrest, ← i.bytes_length, List.drop_left]
  have hp : position ≤ body.length := position_le hrest
  refine ⟨(item_at hp ?_).1, hdrop⟩
  rw [hrest]
  exact reads_bytes hi rest

/-- Items are found one after another where they were added; reading goes on behind them. -/
lemma reads_whole {items : List Item} (hitems : Item.total items < 4294967296) {rest : Bytes}
    (hrest : body.drop position = items.flatMap Item.bytes ++ rest) (kinds : List Kind) :
    reads (items.map Item.kind ++ kinds) body position =
        (reads kinds body (position + Item.total items)).map (stops position items ++ ·) ∧
      body.drop (position + Item.total items) = rest := by
  induction items generalizing position with
  | nil => exact ⟨Option.map_id'.symm, hrest⟩
  | cons i items ih =>
    rw [Item.total_cons] at hitems ⊢
    rw [List.flatMap_cons, List.append_assoc] at hrest
    obtain ⟨hitem, hnext⟩ := item_whole (by omega) hrest
    obtain ⟨hlater, hleft⟩ := ih (by omega) hnext
    rw [← Nat.add_assoc]
    refine ⟨?_, hleft⟩
    rw [List.map_cons, List.cons_append, reads, hitem, Option.bind_some, hlater, Option.map_map]
    rfl

/-- A read that wants another tag than that of an item finds this tag in its place. -/
lemma item_unexpected {i : Item} {rest : Bytes} (hrest : body.drop position = i.bytes ++ rest)
    {k : Kind} (hk : k.tag ≠ i.kind.tag) :
    item k body position = some (.error (.unexpectedTag k.tag i.kind.tag), position + 1) := by
  obtain ⟨behind, hbehind⟩ : ∃ behind, i.bytes = i.kind.tag :: behind := by
    cases i with
    | int n => exact ⟨_, rfl⟩
    | data bytes => exact ⟨_, rfl⟩
    | text path => exact ⟨_, rfl⟩
  refine (item_at (position_le hrest) ?_).1
  rw [hrest, hbehind]
  exact .unexpected hk.symm

/-- From a body some items come back as they were added. If no others follow the body has ended
then, and a reader that consumes the bytes has nothing left; if others do, a read that wants another
tag than the next of them has tells both tags. -/
structure Returns (body : Bytes) (before after : List Item) : Prop where
  returned : reads (before.map Item.kind) body 0 = some (stops 0 before)
  ended : exhausted body (Item.total before) = some (.ok after.isEmpty, Item.total before)
  consumed : (Reader.at body (Item.total before)).exhausted = after.isEmpty
  unexpected : ∀ i ∈ after.head?, ∀ k : Kind, k.tag ≠ i.kind.tag →
    reads (before.map Item.kind ++ [k]) body 0 = some (stops 0 before ++
      [(.error (.unexpectedTag k.tag i.kind.tag), Item.total before + 1)])

/-- Some items leave no bytes only if there are none. -/
lemma isEmpty_flatMap_bytes (items : List Item) :
    (items.flatMap Item.bytes).isEmpty = items.isEmpty := by
  cases items with
  | nil => rfl
  | cons i items =>
    have hpos := i.size_pos
    rw [List.isEmpty_cons, List.isEmpty_eq_false_iff]
    refine List.ne_nil_of_length_pos ?_
    rw [List.flatMap_cons, List.length_append, i.bytes_length]
    omega

lemma returns {before after : List Item}
    (hfit : ((before ++ after).flatMap Item.bytes).length < 4294967296) :
    Returns ((before ++ after).flatMap Item.bytes) before after := by
  rw [List.flatMap_append] at hfit ⊢
  rw [List.length_append, Item.flatMap_bytes_length] at hfit
  have hstart : (before.flatMap Item.bytes ++ after.flatMap Item.bytes).drop 0 =
      before.flatMap Item.bytes ++ after.flatMap Item.bytes := rfl
  have hwhole := reads_whole (Nat.lt_of_add_right_lt hfit) hstart
  simp only [Nat.zero_add] at hwhole
  have hp : Item.total before ≤
      (before.flatMap Item.bytes ++ after.flatMap Item.bytes).length := by
    rw [List.length_append, Item.flatMap_bytes_length]
    exact Nat.le_add_right ..
  have hconsumed : (Reader.at (before.flatMap Item.bytes ++ after.flatMap Item.bytes)
      (Item.total before)).exhausted = after.isEmpty := by
    rw [Reader.at, Reader.exhausted, (hwhole []).2, isEmpty_flatMap_bytes]
  refine ⟨?_, ?_, hconsumed, fun i hi k hk => ?_⟩
  · obtain ⟨h, -⟩ := hwhole []
    rwa [List.append_nil, reads, Option.map_some, List.append_nil] at h
  · rw [← hconsumed]
    exact Reply.exhausted_follows.eq hp (Reply.readEnd_eq _)
  · obtain ⟨rest, rfl⟩ := List.head?_eq_some_iff.mp hi
    obtain ⟨h, hrest⟩ := hwhole [k]
    rw [List.flatMap_cons] at hrest
    rw [h, reads, List.flatMap_cons, item_unexpected hrest hk]
    rfl

/-- **Every read accounts for what it takes.** Whatever the bytes, and whatever is read in whatever
order after whatever failures: no access leaves the bytes, the position never goes back and never
passes the end, and every read ends as the bytes before it tell, and takes as many of them as they
tell; and this is what a reader reads that consumes the bytes. From what any operations leave in a
message the items come back as they were added, by the reads that belong to them; only after the
last of them has the body ended, and the first read that wants another tag tells both tags. -/
theorem reads_account :
    (∀ (body : Bytes) (kinds : List Kind), ∃ trace, reads kinds body 0 = some trace ∧
      (∀ trace', Course body 0 kinds trace' ↔ trace' = trace) ∧
      (0 :: trace.map Prod.snd).Pairwise (· ≤ ·) ∧
      (∀ stop ∈ trace.map Prod.snd, stop ≤ body.length) ∧
      Wire.reads kinds (.ofBytes body) = trace.map fun x => (x.1, .at body x.2)) ∧
    ∀ ops : List Builder.Operation, ∃ b body,
      Builder.run ops .new = some (Builder.outcomes [] ops, b) ∧ b.body = some body ∧
      ∀ before after, Builder.held ops = before ++ after → Returns body before after := by
  refine ⟨fun body kinds => ?_, fun ops => ?_⟩
  · have hzero : 0 ≤ body.length := Nat.zero_le _
    obtain ⟨trace, hcourse⟩ := Course.total body 0 kinds
    obtain ⟨hreads, hconsumed⟩ := reads_at hzero hcourse
    refine ⟨trace, hreads, fun trace' => ⟨fun h => ?_, fun h => h ▸ hcourse⟩, hcourse.monotone,
      hcourse.stop_le hzero, hconsumed⟩
    exact Option.some.inj ((reads_at hzero h).1.symm.trans hreads)
  · have hnew : Builder.new.length = 0 := rfl
    obtain ⟨b, m, hb, -, h, hbody⟩ := Builder.run_of_length_eq_zero hnew ops
    refine ⟨b, m.body, hb, h.body, fun before after hheld => ?_⟩
    have hlt : m.body.length < 4294967296 := m.body_length_le.trans_lt (by decide)
    rw [hbody, hheld] at hlt ⊢
    exact returns hlt

/-- A tag that is none, a length that no body has, an integer, data that spells no path, and a
number that is cut off at the end; and a reply from which an integer is read in place of its
payload. -/
theorem reads_account_after_failures :
    let body : Bytes := [9, 2, 255, 255, 255, 255, 1, 7, 0, 0, 0, 2, 1, 0, 0, 0, 97, 1]
    let kinds : List Kind := [.int, .text, .int, .text, .int, .data]
    let ops : List Builder.Operation := [.add (.int 1), .reply ⟨7, some [104, 105]⟩]
    (∃ trace, reads kinds body 0 = some trace ∧ Course body 0 kinds trace ∧
      trace = [(.error (.unexpectedTag 1 9), 1), (.error .truncated, 6), (.ok (.int 7), 11),
        (.error .invalidText, 17), (.error .truncated, 18), (.error .truncated, 18)]) ∧
    Builder.held ops = [.int 7] ++ [.data [104, 105]] ∧
    Kind.int.tag ≠ (Item.data [104, 105]).kind.tag ∧
    ∃ b body', Builder.run ops .new = some ([.ok (), .ok ()], b) ∧ b.body = some body' ∧
      reads [.int, .int] body' 0 = some [(.ok (.int 7), 5), (.error (.unexpectedTag 1 2), 6)] := by
  intro body kinds ops
  obtain ⟨hany, hmessage⟩ := reads_account
  obtain ⟨trace, hreads, hcourse, -⟩ := hany body kinds
  obtain ⟨b, body', hb, hbody, hreturns⟩ := hmessage ops
  have hheld : Builder.held ops = [.int 7] ++ [.data [104, 105]] := by rfl
  have htags : Kind.int.tag ≠ (Item.data [104, 105]).kind.tag := by decide
  have hwanted := (hreturns _ _ hheld).unexpected (.data [104, 105]) rfl .int htags
  have htrace : reads kinds body 0 = some [(.error (.unexpectedTag 1 9), 1),
      (.error .truncated, 6), (.ok (.int 7), 11), (.error .invalidText, 17),
      (.error .truncated, 18), (.error .truncated, 18)] := by rfl
  exact ⟨⟨trace, hreads, (hcourse trace).mpr rfl, Option.some.inj (hreads.symm.trans htrace)⟩,
    hheld, htags, b, body', hb, hbody, hwanted⟩

end Cursor

end FileBroker.Wire
