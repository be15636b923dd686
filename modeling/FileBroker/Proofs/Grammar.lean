/-
The grammar of request bodies.

A body holds a request if it is spelled out by a grammar of tags, lengths and numbers that knows
nothing of how bodies are read. Whatever else a client sends, a length that lies, a tag in the place
of another, a NUL inside a path or a byte too many, is no request. A request has one spelling, but
for the number that tells whether a link is followed: every number but zero says that it is.

* `Wire.SpellsInt`, `Wire.SpellsPath`, `Request.Spells`: the grammar.
* `Wire.spellsInt_iff`, `Wire.spellsPath_iff`: the entries that are written are the spelled ones.
* `Wire.int_eq_ok`, `Wire.text_eq_ok`: what is read has been taken from the front of the body.
* `Request.spells_of_decode`, `Request.decode_of_spells`: bodies are accepted by the grammar.
* `Request.settled`, `Request.bytes_eq_settled`: the spelling in which an accepted body is written.
* `Request.accepts_exactly`: what is accepted, and how much of it is told by the request.
-/
import FileBroker.Proofs.Requests

namespace FileBroker

open FileBroker.Connection (littleEndian littleEndian_wordBytes wordBytes_littleEndian)

/-! ### Entries -/

namespace Wire

/-- An integer is spelled by the tag 1 and four bytes, the lowest first; a negative one counts from
the end of the words. -/
inductive SpellsInt : Bytes → Word → Prop where
  | intro {digits : Bytes} {n : Word} (hl : digits.length = 4)
      (hn : littleEndian digits = n.toUInt32.toNat) : SpellsInt (1 :: digits) n

/-- A path is spelled by the tag 2, four bytes of a length, and so many bytes of data, in which
there is one NUL, at the end. -/
inductive SpellsPath : Bytes → Path → Prop where
  | intro {digits data : Bytes} {p : Path} (hl : digits.length = 4)
      (hn : littleEndian digits = data.length) (hone : data.count 0 = 1)
      (hlast : data.getLast? = some 0) (hp : p.bytes = data.dropLast) :
      SpellsPath (2 :: (digits ++ data)) p

/-- An integer is spelled as it is written. -/
lemma spellsInt_iff {b : Bytes} {n : Word} : SpellsInt b n ↔ b = (Entry.int n).encode := by
  constructor
  · rintro ⟨hl, hn⟩
    rw [← wordBytes_littleEndian hl, hn, UInt32.ofNat_toNat]
    rfl
  · rintro rfl
    exact .intro (wordBytes_length _) (littleEndian_wordBytes _)

/-- Data with one NUL, at the end, is what a path is written as. -/
lemma eq_terminated_iff {data : Bytes} {p : Path} :
    data.count 0 = 1 ∧ data.getLast? = some 0 ∧ p.bytes = data.dropLast ↔ data = p.terminated := by
  constructor
  · rintro ⟨-, hlast, hp⟩
    rw [Path.terminated, hp]
    exact (List.dropLast_append_getLast? 0 hlast).symm
  · rintro rfl
    have hzero : p.bytes.count 0 = 0 := List.count_eq_zero.mpr p.nul_free
    simp [Path.terminated, hzero]

/-- Four bytes spell a number that fits a word. -/
lemma littleEndian_lt {digits : Bytes} (h : digits.length = 4) :
    littleEndian digits < 4294967296 := by
  rw [← wordBytes_littleEndian h, littleEndian_wordBytes]
  exact UInt32.toNat_lt _

/-- A path that is not too long for its length to be written is spelled as it is written. -/
lemma spellsPath_iff {b : Bytes} {p : Path} :
    SpellsPath b p ↔ p.terminated.length < 4294967296 ∧ b = (Entry.text p).encode := by
  constructor
  · rintro ⟨hl, hn, hone, hlast, hp⟩
    obtain rfl := eq_terminated_iff.mp ⟨hone, hlast, hp⟩
    have hlt := littleEndian_lt hl
    rw [← wordBytes_littleEndian hl, hn]
    exact ⟨hn ▸ hlt, rfl⟩
  · rintro ⟨hlen, rfl⟩
    obtain ⟨hone, hlast, hp⟩ := eq_terminated_iff.mpr (rfl : p.terminated = p.terminated)
    have hn : littleEndian (wordBytes (UInt32.ofNat p.terminated.length)) =
        p.terminated.length := by
      rw [littleEndian_wordBytes, UInt32.toNat_ofNat', Nat.mod_eq_of_lt hlen]
    exact .intro (wordBytes_length _) hn hone hlast hp

/-- A value that was read in two parts. -/
lemma Reading.bind_eq_ok {α β : Type} {x : Reading α} {f : α → Reading β} {b : β} {r r'' : Reader}
    (h : (x >>= f) r = (.ok b, r'')) : ∃ a r', x r = (.ok a, r') ∧ f a r' = (.ok b, r'') := by
  rcases hx : x r with ⟨fault | a, r'⟩
  · simp [bind, hx] at h
  · exact ⟨a, r', rfl, by simpa [bind, hx] using h⟩

lemma tag_eq_ok {expected : UInt8} {r r' : Reader} (h : tag expected r = (.ok (), r')) :
    r.rest = expected :: r'.rest := by
  obtain ⟨position, _ | ⟨found, rest⟩⟩ := r
  · cases h
  · simp only [tag, Prod.mk.injEq] at h
    obtain ⟨hfound, rfl⟩ := h
    split at hfound
    · next he => simp [he, Reader.advance]
    · cases hfound

lemma word_eq_ok {n : UInt32} {r r' : Reader} (h : word r = (.ok n, r')) :
    r.rest = wordBytes n ++ r'.rest := by
  obtain ⟨position, rest⟩ := r
  simp only [word] at h
  split at h
  · next a b c d more =>
    simp only [Prod.mk.injEq, Except.ok.injEq] at h
    obtain ⟨rfl, rfl⟩ := h
    rw [wordBytes_wordOfBytes]
    rfl
  · cases h

lemma take_eq_ok {n : ℕ} {bytes : Bytes} {r r' : Reader} (h : take n r = (.ok bytes, r')) :
    bytes.length = n ∧ r.rest = bytes ++ r'.rest := by
  simp only [take] at h
  split at h
  · next hl =>
    simp only [Prod.mk.injEq, Except.ok.injEq] at h
    obtain ⟨rfl, rfl⟩ := h
    exact ⟨hl, (List.take_append_drop n r.rest).symm⟩
  · cases h

/-- An integer that is read was written at the front. -/
lemma int_eq_ok {n : Word} {r r' : Reader} (h : int r = (.ok n, r')) :
    r.rest = (Entry.int n).encode ++ r'.rest := by
  obtain ⟨⟨⟩, r₁, ht, h⟩ := Reading.bind_eq_ok h
  obtain ⟨w, r₂, hw, h⟩ := Reading.bind_eq_ok h
  obtain ⟨rfl, rfl⟩ : w.toInt32 = n ∧ r₂ = r' := by simpa [pure] using h
  rw [tag_eq_ok ht, word_eq_ok hw]
  rfl

/-- Data that is read was written at the front, and its length fits a word. -/
lemma data_eq_ok {bytes : Bytes} {r r' : Reader} (h : data r = (.ok bytes, r')) :
    bytes.length < 4294967296 ∧ r.rest = (Entry.data bytes).encode ++ r'.rest := by
  obtain ⟨⟨⟩, r₁, ht, h⟩ := Reading.bind_eq_ok h
  obtain ⟨w, r₂, hw, h⟩ := Reading.bind_eq_ok h
  obtain ⟨hl, hrest⟩ := take_eq_ok h
  refine ⟨hl ▸ w.toNat_lt, ?_⟩
  rw [tag_eq_ok ht, word_eq_ok hw, hrest, Entry.encode, hl, UInt32.ofNat_toNat]
  simp

/-- Data that is read as a path is what the path is written as. -/
lemma terminated_of_ofTerminated? {bytes : Bytes} {p : Path}
    (h : Path.ofTerminated? bytes = some p) : bytes = p.terminated := by
  rw [Path.ofTerminated?, Option.ite_none_right_eq_some] at h
  obtain ⟨hlast, h⟩ := h
  rw [Path.ofBytes?, Option.dite_none_right_eq_some] at h
  obtain ⟨_, h⟩ := h
  obtain rfl := Option.some.inj h
  exact (List.dropLast_append_getLast? 0 hlast).symm

/-- A path that is read was written at the front, and its length fits a word. -/
lemma text_eq_ok {p : Path} {r r' : Reader} (h : text r = (.ok p, r')) :
    p.terminated.length < 4294967296 ∧ r.rest = (Entry.text p).encode ++ r'.rest := by
  obtain ⟨bytes, r₁, hd, h⟩ := Reading.bind_eq_ok h
  cases hpath : Path.ofTerminated? bytes with
  | none => simp [hpath, Reading.fail] at h
  | some path =>
    obtain ⟨rfl, rfl⟩ : path = p ∧ r₁ = r' := by simpa [hpath, pure] using h
    obtain rfl := terminated_of_ofTerminated? hpath
    exact data_eq_ok hd

end Wire

/-! ### Requests -/

namespace Request

/-- A request is spelled by the number of its command and its arguments, and nothing else. Any
number but zero says that a link is followed. -/
inductive Spells : Bytes → Request → Prop where
  | access {c t i : Bytes} {path : Path} {mode : Word} (hc : Wire.SpellsInt c 1)
      (ht : Wire.SpellsPath t path) (hi : Wire.SpellsInt i mode) :
      Spells (c ++ t ++ i) (.access path mode)
  | openFile {c t i : Bytes} {path : Path} {flags : Word} (hc : Wire.SpellsInt c 2)
      (ht : Wire.SpellsPath t path) (hi : Wire.SpellsInt i flags) :
      Spells (c ++ t ++ i) (.openFile path flags)
  | readlink {c t : Bytes} {path : Path} (hc : Wire.SpellsInt c 3) (ht : Wire.SpellsPath t path) :
      Spells (c ++ t) (.readlink path)
  | rename {c t t' : Bytes} {old new : Path} (hc : Wire.SpellsInt c 4)
      (ht : Wire.SpellsPath t old) (ht' : Wire.SpellsPath t' new) :
      Spells (c ++ t ++ t') (.rename old new)
  | stat {c t i : Bytes} {path : Path} {n : Word} {large : Bool}
      (hc : Wire.SpellsInt c (if large then 6 else 5)) (ht : Wire.SpellsPath t path)
      (hi : Wire.SpellsInt i n) : Spells (c ++ t ++ i) (.stat path (n != 0) large)

/-- The body from which a request is read to its end. -/
lemma decode_eq_ok_iff {b : Bytes} {r : Request} :
    decode b = .ok r ↔
      b.length ≤ Wire.capacity ∧ ∃ rest, read (.ofBytes b) = (.ok r, rest) ∧ rest.rest = [] := by
  rw [decode]
  split
  · next hl => simp [hl]
  · next hl =>
    simp only [Nat.not_lt.mp hl, true_and]
    split
    · next request rest heq =>
      cases hrest : rest.rest with
      | nil => simp [heq, Wire.Reader.exhausted, hrest]
      | cons a more => simp [heq, Wire.Reader.exhausted, hrest]
    · next fault rest heq => simp [heq]

/-- The command of a number has this number, and can be served. -/
lemma code_of_ofCode? {n : Word} {c : Command} (h : Command.ofCode? n = some c) :
    c.code = n ∧ c ≠ .invalid := by
  refine ⟨by simpa using List.find?_some h, ?_⟩
  rintro rfl
  exact absurd (List.mem_of_find?_eq_some h) (by decide)

/-- Two arguments that are read to the end of a body, a path and an integer. -/
lemma spells_of_text_int {f : Path → Word → Request} {r r' : Wire.Reader} {q : Request}
    (h : (Wire.text >>= fun p => Wire.int >>= fun n => pure (f p n)) r = (.ok q, r'))
    (hend : r'.rest = []) :
    ∃ t i p n, r.rest = t ++ i ∧ Wire.SpellsPath t p ∧ Wire.SpellsInt i n ∧ q = f p n := by
  obtain ⟨p, r₁, ht, h⟩ := Wire.Reading.bind_eq_ok h
  obtain ⟨n, r₂, hi, h⟩ := Wire.Reading.bind_eq_ok h
  obtain ⟨rfl, rfl⟩ : f p n = q ∧ r₂ = r' := by simpa [pure] using h
  obtain ⟨hl, hrest⟩ := Wire.text_eq_ok ht
  refine ⟨_, _, p, n, hrest, Wire.spellsPath_iff.mpr ⟨hl, rfl⟩, ?_, rfl⟩
  rw [Wire.int_eq_ok hi, hend, List.append_nil]
  exact Wire.spellsInt_iff.mpr rfl

/-- An accepted body is spelled by the grammar. -/
lemma spells_of_decode {b : Bytes} {q : Request} (h : decode b = .ok q) : Spells b q := by
  obtain ⟨-, r', h, hend⟩ := decode_eq_ok_iff.mp h
  obtain ⟨code, r, hcode, h⟩ := Wire.Reading.bind_eq_ok h
  have hb : b = (Wire.Entry.int code).encode ++ r.rest := Wire.int_eq_ok hcode
  have hc : Wire.SpellsInt (Wire.Entry.int code).encode code := Wire.spellsInt_iff.mpr rfl
  cases hcommand : Command.ofCode? code with
  | none => simp [hcommand, Wire.Reading.fail] at h
  | some command =>
    simp only [hcommand] at h
    obtain ⟨rfl, hne⟩ := code_of_ofCode? hcommand
    cases command with
    | invalid => exact absurd rfl hne
    | access =>
      obtain ⟨t, i, p, n, hr, ht, hi, rfl⟩ := spells_of_text_int h hend
      rw [hb, hr, ← List.append_assoc]
      exact .access hc ht hi
    | openFile =>
      obtain ⟨t, i, p, n, hr, ht, hi, rfl⟩ := spells_of_text_int h hend
      rw [hb, hr, ← List.append_assoc]
      exact .openFile hc ht hi
    | readlink =>
      obtain ⟨p, r₁, ht, h⟩ := Wire.Reading.bind_eq_ok h
      obtain ⟨rfl, rfl⟩ : Request.readlink p = q ∧ r₁ = r' := by simpa [pure] using h
      obtain ⟨hl, hr⟩ := Wire.text_eq_ok ht
      rw [hb, hr, hend, List.append_nil]
      exact .readlink hc (Wire.spellsPath_iff.mpr ⟨hl, rfl⟩)
    | rename =>
      obtain ⟨old, r₁, ho, h⟩ := Wire.Reading.bind_eq_ok h
      obtain ⟨new, r₂, hn, h⟩ := Wire.Reading.bind_eq_ok h
      obtain ⟨rfl, rfl⟩ : Request.rename old new = q ∧ r₂ = r' := by simpa [pure] using h
      obtain ⟨hlo, hro⟩ := Wire.text_eq_ok ho
      obtain ⟨hln, hrn⟩ := Wire.text_eq_ok hn
      rw [hb, hro, hrn, hend, List.append_nil, ← List.append_assoc]
      exact .rename hc (Wire.spellsPath_iff.mpr ⟨hlo, rfl⟩) (Wire.spellsPath_iff.mpr ⟨hln, rfl⟩)
    | stat =>
      obtain ⟨t, i, p, n, hr, ht, hi, rfl⟩ := spells_of_text_int h hend
      rw [hb, hr, ← List.append_assoc]
      show Spells _ (.stat p (n != 0) false)
      exact .stat hc ht hi
    | stat64 =>
      obtain ⟨t, i, p, n, hr, ht, hi, rfl⟩ := spells_of_text_int h hend
      rw [hb, hr, ← List.append_assoc]
      show Spells _ (.stat p (n != 0) true)
      exact .stat hc ht hi

/-- The spelling of an accepted body in which its request is written: where a link is to be
followed, the number at the end, which says so, becomes 1. -/
def settled (r : Request) (b : Bytes) : Bytes :=
  match r with
  | stat _ true _ => b.take (b.length - 4) ++ [1, 0, 0, 0]
  | _ => b

/-- Whether links are followed is spelled by the number at the end, and by nothing else. -/
lemma settled_stat (path : Path) (large : Bool) (first : Bytes) (n : Word) :
    (stat path (n != 0) large).settled (first ++ (Wire.Entry.int n).encode) =
      first ++ (Wire.Entry.int (wordOfBool (n != 0))).encode := by
  by_cases hn : n = 0
  · subst hn
    rfl
  · have htrue : (n != 0) = true := by simpa using hn
    have hsplit : first ++ (Wire.Entry.int n).encode =
        (first ++ [Wire.intTag]) ++ Wire.wordBytes n.toUInt32 := by simp [Wire.Entry.encode]
    have hlen : ((first ++ [Wire.intTag]) ++ Wire.wordBytes n.toUInt32).length - 4 =
        (first ++ [Wire.intTag]).length := by
      rw [List.length_append, Wire.wordBytes_length, Nat.add_sub_cancel]
    rw [htrue, settled, hsplit, hlen, List.take_left]
    simp only [List.append_assoc]
    rfl

/-- A request is written in the settled spelling of each body that holds it. -/
lemma bytes_eq_settled {b : Bytes} {r : Request} (h : Spells b r) : r.bytes = r.settled b := by
  cases h with
  | access hc ht hi =>
    obtain ⟨-, rfl⟩ := Wire.spellsPath_iff.mp ht
    obtain rfl := Wire.spellsInt_iff.mp hc
    obtain rfl := Wire.spellsInt_iff.mp hi
    simp [settled, bytes, entries, arguments, command, Command.code]
  | openFile hc ht hi =>
    obtain ⟨-, rfl⟩ := Wire.spellsPath_iff.mp ht
    obtain rfl := Wire.spellsInt_iff.mp hc
    obtain rfl := Wire.spellsInt_iff.mp hi
    simp [settled, bytes, entries, arguments, command, Command.code]
  | readlink hc ht =>
    obtain ⟨-, rfl⟩ := Wire.spellsPath_iff.mp ht
    obtain rfl := Wire.spellsInt_iff.mp hc
    simp [settled, bytes, entries, arguments, command, Command.code]
  | rename hc ht ht' =>
    obtain ⟨-, rfl⟩ := Wire.spellsPath_iff.mp ht
    obtain ⟨-, rfl⟩ := Wire.spellsPath_iff.mp ht'
    obtain rfl := Wire.spellsInt_iff.mp hc
    simp [settled, bytes, entries, arguments, command, Command.code]
  | @stat c t i path n large hc ht hi =>
    obtain ⟨-, rfl⟩ := Wire.spellsPath_iff.mp ht
    obtain rfl := Wire.spellsInt_iff.mp hc
    obtain rfl := Wire.spellsInt_iff.mp hi
    rw [settled_stat]
    cases large <;> simp [bytes, entries, arguments, command, Command.code]

/-- The settled spelling is as long as any. -/
lemma settled_length {b : Bytes} {r : Request} (h : Spells b r) :
    (r.settled b).length = b.length := by
  cases h with
  | stat hc ht hi =>
    obtain rfl := Wire.spellsInt_iff.mp hi
    simp only [settled_stat, List.length_append, Wire.Entry.int_encode_length]
  | _ => rfl

/-- A path and an integer are read to the end of a body as they were written. -/
lemma read_text_int (f : Path → Word → Request) {p : Path} (hp : p.terminated.length < 4294967296)
    (n : Word) (position : ℕ) :
    ∃ rest, (Wire.text >>= fun p => Wire.int >>= fun n => pure (f p n))
        ⟨position, (Wire.Entry.text p).encode ++ (Wire.Entry.int n).encode⟩ = (.ok (f p n), rest) ∧
      rest.rest = [] := by
  have hi := Wire.int_encode n (position + 1 + 4 + p.terminated.length) []
  rw [List.append_nil] at hi
  rw [Wire.Reading.bind_ok (Wire.text_encode hp position _), Wire.Reading.bind_ok hi]
  exact ⟨_, rfl, rfl⟩

/-- Any number tells whether a link is to be followed. -/
lemma read_stat {path : Path} (hp : path.terminated.length < 4294967296) (n : Word)
    (large : Bool) :
    ∃ rest, read (.ofBytes ((Wire.Entry.int (if large then 6 else 5)).encode ++
        ((Wire.Entry.text path).encode ++ (Wire.Entry.int n).encode))) =
      (.ok (.stat path (n != 0) large), rest) ∧ rest.rest = [] := by
  rw [Wire.Reader.ofBytes, read, Wire.Reading.bind_ok (Wire.int_encode _ _ _)]
  cases large with
  | false => exact read_text_int (fun p n => .stat p (n != 0) false) hp n _
  | true => exact read_text_int (fun p n => .stat p (n != 0) true) hp n _

/-- A body that is spelled by the grammar is accepted, if it is not too long. -/
lemma decode_of_spells {b : Bytes} {r : Request} (hl : b.length ≤ Wire.capacity)
    (h : Spells b r) : decode b = .ok r := by
  have hwritten (r : Request) (hb : r.bytes = b) : decode b = .ok r := by
    rw [← hb] at hl ⊢
    exact decode_bytes hl
  have hb := bytes_eq_settled h
  cases h with
  | stat hc ht hi =>
    -- only here may the body differ from what is written
    obtain ⟨hlen, rfl⟩ := Wire.spellsPath_iff.mp ht
    obtain rfl := Wire.spellsInt_iff.mp hc
    obtain rfl := Wire.spellsInt_iff.mp hi
    rw [decode_eq_ok_iff, List.append_assoc]
    rw [List.append_assoc] at hl
    exact ⟨hl, read_stat hlen _ _⟩
  | _ => exact hwritten _ hb

/-- **Bodies are accepted by the grammar.** A body holds a request exactly if it is not too long and
spells the request. The request can then be written in place of whatever a message held, and gives
the body back, but for the number that says that a link is followed, which becomes 1. So two bodies
that hold the same request differ in this number alone. -/
theorem accepts_exactly (b : Bytes) :
    (∀ r, decode b = .ok r ↔ b.length ≤ Wire.capacity ∧ Spells b r) ∧
    (∀ r, decode b = .ok r → ∀ m : Wire.Message,
      ∃ m', r.encode m = (.ok (), m') ∧ m'.body = r.settled b) ∧
    ∀ b' r, decode b = .ok r → decode b' = .ok r → b' ≠ b →
      ∃ path large, r = .stat path true large ∧ b'.length = b.length ∧
        b'.take (b.length - 4) = b.take (b.length - 4) := by
  have haccepts (b : Bytes) (r : Request) :
      decode b = .ok r ↔ b.length ≤ Wire.capacity ∧ Spells b r :=
    ⟨fun h => ⟨(decode_eq_ok_iff.mp h).1, spells_of_decode h⟩, fun h => decode_of_spells h.1 h.2⟩
  refine ⟨haccepts b, fun r h m => ?_, fun b' r h h' hne => ?_⟩
  · obtain ⟨hl, hs⟩ := (haccepts b r).mp h
    have hfit : r.bytes.length ≤ Wire.capacity := by
      rw [bytes_eq_settled hs, settled_length hs]
      exact hl
    exact ⟨_, encode_eq hfit m, bytes_eq_settled hs⟩
  · obtain ⟨-, hs⟩ := (haccepts b r).mp h
    obtain ⟨-, hs'⟩ := (haccepts b' r).mp h'
    have hsame : r.settled b' = r.settled b :=
      (bytes_eq_settled hs').symm.trans (bytes_eq_settled hs)
    have hlen : b'.length = b.length := by
      rw [← settled_length hs', ← settled_length hs, hsame]
    cases r with
    | stat path follow large =>
      cases follow with
      | false => exact absurd hsame hne
      | true =>
        refine ⟨path, large, rfl, hlen, ?_⟩
        have htake := List.append_cancel_right hsame
        rwa [hlen] at htake
    | _ => exact absurd hsame hne

/-- Two bodies that ask for the status of `/a` and follow links, with the numbers 7 and 256. -/
theorem accepts_exactly_stat :
    let b : Bytes := [1, 6, 0, 0, 0, 2, 3, 0, 0, 0, 47, 97, 0, 1, 7, 0, 0, 0]
    let b' : Bytes := [1, 6, 0, 0, 0, 2, 3, 0, 0, 0, 47, 97, 0, 1, 0, 1, 0, 0]
    let r : Request := .stat ⟨[47, 97], by decide⟩ true true
    decode b = .ok r ∧ decode b' = .ok r ∧ b' ≠ b ∧ Spells b r ∧
      b'.take 14 = b.take 14 ∧
      ∃ m', r.encode .empty = (.ok (), m') ∧
        m'.body = [1, 6, 0, 0, 0, 2, 3, 0, 0, 0, 47, 97, 0, 1, 1, 0, 0, 0] := by
  intro b b' r
  have h : decode b = .ok r := by rfl
  have h' : decode b' = .ok r := by rfl
  have hne : b' ≠ b := by decide
  obtain ⟨hspells, hwritten, hsame⟩ := accepts_exactly b
  obtain ⟨-, -, -, -, htake⟩ := hsame b' r h h' hne
  exact ⟨h, h', hne, ((hspells r).mp h).2, htake, hwritten r h .empty⟩

end Request

end FileBroker
