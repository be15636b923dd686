/-
The grammar of reply bodies.

A reply is a return code, and behind it a payload or nothing. Nothing but the end of the body tells
whether there is a payload, so an empty one has to stand there to be read, and the body has to end
where it ends. What leaves room for the return code and the tags is written, and a body that is
accepted is the only one that holds its reply.

* `Wire.SpellsData`, `Reply.Spells`: the grammar.
* `Reply.bytes_of_decode`: an accepted body is what its reply is written as.
* `Reply.decode_eq_ok_iff_spells`: bodies are accepted by the grammar.
* `Reply.decode_eq_ok_iff`: the bodies of a message that hold a reply.
* `Reply.carried_exactly`: which replies are written and read back, and which bodies are accepted.
-/
import FileBroker.Proofs.Grammar

namespace FileBroker

open FileBroker.Connection (littleEndian littleEndian_wordBytes wordBytes_littleEndian)

namespace Wire

/-- Data is spelled by the tag 2, four bytes of a length, the lowest first, and so many bytes. -/
inductive SpellsData : Bytes → Bytes → Prop where
  | intro {digits data : Bytes} (hl : digits.length = 4)
      (hn : littleEndian digits = data.length) : SpellsData (2 :: (digits ++ data)) data

/-- Data that is not too long for its length to be written is spelled as it is written. -/
lemma spellsData_iff {b data : Bytes} :
    SpellsData b data ↔ data.length < 4294967296 ∧ b = (Entry.data data).encode := by
  constructor
  · rintro ⟨hl, hn⟩
    have hlt := littleEndian_lt hl
    rw [← wordBytes_littleEndian hl, hn]
    exact ⟨hn ▸ hlt, rfl⟩
  · rintro ⟨hlen, rfl⟩
    have hn : littleEndian (wordBytes (UInt32.ofNat data.length)) = data.length := by
      rw [littleEndian_wordBytes, UInt32.toNat_ofNat', Nat.mod_eq_of_lt hlen]
    exact .intro (wordBytes_length _) hn

end Wire

namespace Reply

/-- A reply is spelled by its return code, and by its payload behind it if it has one. -/
inductive Spells : Bytes → Reply → Prop where
  | bare {c : Bytes} {code : Word} (hc : Wire.SpellsInt c code) : Spells c ⟨code, none⟩
  | laden {c d payload : Bytes} {code : Word} (hc : Wire.SpellsInt c code)
      (hd : Wire.SpellsData d payload) : Spells (c ++ d) ⟨code, some payload⟩

/-- A reply whose payload is not too long for its length to be written is spelled as it is
written. -/
lemma spells_iff {b : Bytes} {r : Reply} : Spells b r ↔ r.Writable ∧ b = r.bytes := by
  constructor
  · rintro (hc | ⟨hc, hd⟩)
    · rw [bytes_none]
      exact ⟨writable_none _, Wire.spellsInt_iff.mp hc⟩
    · obtain ⟨hlen, rfl⟩ := Wire.spellsData_iff.mp hd
      rw [bytes_some, Wire.spellsInt_iff.mp hc]
      exact ⟨by simpa [Writable] using hlen, rfl⟩
  · rintro ⟨hlen, rfl⟩
    obtain ⟨code, _ | payload⟩ := r
    · rw [bytes_none]
      exact .bare (Wire.spellsInt_iff.mpr rfl)
    · rw [bytes_some]
      exact .laden (Wire.spellsInt_iff.mpr rfl) (Wire.spellsData_iff.mpr ⟨hlen payload rfl, rfl⟩)

/-- An accepted body is what its reply is written as. -/
lemma bytes_of_decode {b : Bytes} {r : Reply} (h : decode b = .ok r) :
    r.Writable ∧ b = r.bytes := by
  rw [decode] at h
  rcases hint : Wire.int (.ofBytes b) with ⟨fault | code, rest⟩
  · simp [hint] at h
  have hb : b = (Wire.Entry.int code).encode ++ rest.rest := Wire.int_eq_ok hint
  simp only [hint] at h
  split at h
  · next hend =>
    obtain rfl := Except.ok.inj h
    rw [bytes_none, hb, List.isEmpty_iff.mp hend, List.append_nil]
    exact ⟨writable_none code, rfl⟩
  rcases hdata : Wire.data rest with ⟨fault | payload, rest'⟩
  · simp [hdata] at h
  simp only [hdata] at h
  split at h
  · next hend =>
    obtain rfl := Except.ok.inj h
    obtain ⟨hlen, hrest⟩ := Wire.data_eq_ok hdata
    rw [bytes_some, hb, hrest, List.isEmpty_iff.mp hend, List.append_nil]
    exact ⟨by simpa [Writable] using hlen, rfl⟩
  · cases h

/-- Bodies are accepted by the grammar, of whatever length they are. -/
lemma decode_eq_ok_iff_spells {b : Bytes} {r : Reply} : decode b = .ok r ↔ Spells b r := by
  rw [spells_iff]
  refine ⟨bytes_of_decode, ?_⟩
  rintro ⟨hlen, rfl⟩
  exact decode_bytes_of_writable hlen

/-- A body that is not too long holds the reply that is written there and nothing else. -/
lemma decode_eq_ok_iff {b : Bytes} {r : Reply} (h : b.length ≤ Wire.capacity) :
    decode b = .ok r ↔ b = r.bytes := by
  refine ⟨fun hr => (bytes_of_decode hr).2, ?_⟩
  rintro rfl
  exact decode_bytes h

/-- There is room for the return code and the tags beside a payload that fits. -/
lemma bytes_length_le_iff (r : Reply) :
    r.bytes.length ≤ Wire.capacity ↔
      ∀ payload ∈ r.payload, payload.length ≤ Wire.capacity - 10 := by
  rw [bytes_length]
  obtain ⟨code, _ | payload⟩ := r
  · simp [Wire.capacity]
  · simp only [Option.elim_some, Option.mem_def, Option.some.injEq, forall_eq', Wire.capacity]
    omega

/-- A reply that does not fit is refused. -/
lemma encode_full {r : Reply} (h : Wire.capacity < r.bytes.length) (m : Wire.Message) :
    (r.encode m).1 = .error .full :=
  Wire.Message.extend_full Wire.Message.empty r.entries h

/-- **A reply is written exactly if it fits, and read as it was written.** Whatever the message held
before, writing succeeds if there is no payload or the payload leaves ten bytes of room, and what is
written holds the reply, an empty payload as a payload. A body is accepted exactly if it is a return
code, or a return code and a payload that ends it; if it is not too long for a message, the reply
that it holds is written as this body and no other. -/
theorem carried_exactly :
    (∀ (r : Reply) (m : Wire.Message),
      ((r.encode m).1 = .ok () ↔
        ∀ payload ∈ r.payload, payload.length ≤ Wire.capacity - 10) ∧
      ((r.encode m).1 = .ok () → decode (r.encode m).2.body = .ok r)) ∧
    (∀ (b : Bytes) (r : Reply), decode b = .ok r ↔ Spells b r) ∧
    ∀ (b : Bytes) (r : Reply), decode b = .ok r → b.length ≤ Wire.capacity →
      ∀ m : Wire.Message, ∃ m', r.encode m = (.ok (), m') ∧ m'.body = b := by
  refine ⟨fun r m => ?_, fun b r => decode_eq_ok_iff_spells, fun b r h hl m => ?_⟩
  · rw [← bytes_length_le_iff]
    by_cases hfit : r.bytes.length ≤ Wire.capacity
    · rw [encode_eq hfit]
      exact ⟨iff_of_true rfl hfit, fun _ => decode_bytes hfit⟩
    · rw [encode_full (by omega)]
      exact ⟨iff_of_false nofun hfit, nofun⟩
  · obtain ⟨-, rfl⟩ := bytes_of_decode h
    exact ⟨_, encode_eq hl m, rfl⟩

/-- A refusal with an empty payload and the same refusal without any: each is written in place of
the other, and each is read as it was written. -/
theorem carried_exactly_refusal :
    let b : Bytes := [1, 243, 255, 255, 255]
    let laden : Reply := ⟨-13, some []⟩
    let bare : Reply := ⟨-13, none⟩
    decode (b ++ [2, 0, 0, 0, 0]) = .ok laden ∧ decode b = .ok bare ∧
      Spells (b ++ [2, 0, 0, 0, 0]) laden ∧ Spells b bare ∧
      ∃ m m', laden.encode .empty = (.ok (), m) ∧ m.body = b ++ [2, 0, 0, 0, 0] ∧
        bare.encode m = (.ok (), m') ∧ m'.body = b := by
  intro b laden bare
  have hl : decode (b ++ [2, 0, 0, 0, 0]) = .ok laden := by rfl
  have hb : decode b = .ok bare := by rfl
  obtain ⟨-, hspells, hwritten⟩ := carried_exactly
  obtain ⟨m, hm, hmb⟩ := hwritten _ laden hl (by decide) .empty
  obtain ⟨m', hm', hmb'⟩ := hwritten b bare hb (by decide) m
  exact ⟨hl, hb, (hspells _ _).mp hl, (hspells _ _).mp hb, m, m', hm, hmb, hm', hmb'⟩

end Reply

end FileBroker
