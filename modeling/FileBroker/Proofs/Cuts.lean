/-
Bodies that are cut off or go on.

A body tells by itself where it ends. Every entry begins with what is needed to know how long it is,
so each reading takes certain bytes and no others: what stands behind them does not change what is
read, and where some of them are missing this is all that is found wrong, wherever the cut falls.
Hence a request that has lost bytes or gained some is never taken for another one.

* `Wire.Reading.Takes`: the bytes that a reading takes.
* `Wire.Reading.Takes.bind`: one reading after another takes the bytes of both.
* `Wire.takes_int`, `Wire.takes_text`: the bytes that entries take.
* `Request.takes_of_spells`: reading a request takes its whole body.
* `Request.self_delimiting`: what becomes of an accepted body that is cut off or goes on.
-/
import FileBroker.Proofs.Grammar

namespace FileBroker

namespace Wire

/-- The reading takes these bytes for the value. What stands behind them it leaves, and if some of
them are missing at the end it tells that the body is cut off. -/
structure Reading.Takes {α : Type} (x : Reading α) (taken : Bytes) (a : α) : Prop where
  whole : ∀ position rest,
    x ⟨position, taken ++ rest⟩ = (.ok a, ⟨position + taken.length, rest⟩)
  cut : ∀ position short, short <+: taken → short ≠ taken →
    (x ⟨position, short⟩).1 = .error .truncated

namespace Reading

variable {α β : Type}

lemma takes_pure (a : α) : Takes (pure a) [] a where
  whole _ _ := rfl
  cut _ _ hp hne := absurd (List.prefix_nil.mp hp) hne

/-- One reading after another takes the bytes of both. -/
lemma Takes.bind {x : Reading α} {f : α → Reading β} {s t : Bytes} {a : α} {b : β}
    (hx : x.Takes s a) (hf : (f a).Takes t b) : (x >>= f).Takes (s ++ t) b where
  whole position rest := by
    rw [List.append_assoc, bind_ok (hx.whole position (t ++ rest)), hf.whole, List.length_append,
      Nat.add_assoc]
  cut position short hp hne := by
    -- the cut falls into the bytes of the first reading, or they are all there
    rcases List.prefix_or_prefix_of_prefix hp (List.prefix_append s t) with hs | ⟨rest, rfl⟩
    · by_cases hall : short = s
      · subst hall
        have ht : [] ≠ t := by
          rintro rfl
          exact hne (List.append_nil short).symm
        have hwhole := hx.whole position []
        rw [List.append_nil] at hwhole
        rw [bind_ok hwhole]
        exact hf.cut _ [] List.nil_prefix ht
      · have hcut := hx.cut position short hs hall
        rcases hread : x ⟨position, short⟩ with ⟨value, r⟩
        rw [hread] at hcut
        obtain rfl : value = .error .truncated := hcut
        rw [bind_error hread]
    · have hrest : rest <+: t := (List.prefix_append_right_inj s).mp hp
      rw [bind_ok (hx.whole position rest)]
      exact hf.cut _ rest hrest fun h => hne (h ▸ rfl)

/-- What is made of a value takes no more bytes than the value. -/
lemma Takes.map {x : Reading α} {s : Bytes} {a : α} (hx : x.Takes s a) (f : α → β) :
    (x >>= fun a => pure (f a)).Takes s (f a) := by
  have h := Takes.bind (f := fun a => pure (f a)) hx (takes_pure (f a))
  rwa [List.append_nil] at h

end Reading

lemma takes_tag (expected : UInt8) : (tag expected).Takes [expected] () where
  whole position rest := by simp [tag, Reader.advance]
  cut position short hp hne := by
    have hlt : short.length < 1 :=
      lt_of_le_of_ne hp.length_le fun h => hne (hp.eq_of_length h)
    obtain rfl := List.length_eq_zero_iff.mp (Nat.lt_one_iff.mp hlt)
    rfl

lemma takes_take (bytes : Bytes) : (take bytes.length).Takes bytes bytes where
  whole position rest := by simp [take, Reader.advance]
  cut position short hp hne := by
    have hlt : short.length < bytes.length :=
      lt_of_le_of_ne hp.length_le fun h => hne (hp.eq_of_length h)
    have hshort : (short.take bytes.length).length ≠ bytes.length := by
      rw [List.take_of_length_le hlt.le]
      exact hlt.ne
    simp only [take, if_neg hshort]

lemma takes_word (n : UInt32) : word.Takes (wordBytes n) n where
  whole position rest := by
    simp only [word, wordBytes, List.cons_append, wordOfBytes_wordBytes]
    rfl
  cut position short hp hne := by
    have hlt : short.length < 4 :=
      lt_of_le_of_ne hp.length_le fun h => hne (hp.eq_of_length h)
    rcases short with _ | ⟨a, _ | ⟨b, _ | ⟨c, _ | ⟨d, short⟩⟩⟩⟩
    iterate 4
      · rfl
    simp only [List.length_cons] at hlt
    omega

/-- An integer takes the bytes in which it is written. -/
lemma takes_int (n : Word) : int.Takes (Entry.int n).encode n :=
  (takes_tag intTag).bind ((takes_word n.toUInt32).map UInt32.toInt32)

/-- Data takes the bytes in which it is written. -/
lemma takes_data {bytes : Bytes} (hb : bytes.length < 4294967296) :
    data.Takes (Entry.data bytes).encode bytes := by
  have hn : (UInt32.ofNat bytes.length).toNat = bytes.length := by
    rw [UInt32.toNat_ofNat', Nat.mod_eq_of_lt hb]
  have ht : (take (UInt32.ofNat bytes.length).toNat).Takes bytes bytes := hn.symm ▸ takes_take bytes
  exact (takes_tag dataTag).bind ((takes_word (UInt32.ofNat bytes.length)).bind ht)

/-- A path takes the bytes in which it is written. -/
lemma takes_text {p : Path} (hp : p.terminated.length < 4294967296) :
    text.Takes (Entry.text p).encode p := by
  have h : text.Takes ((Entry.data p.terminated).encode ++ []) p := by
    refine (takes_data hp).bind ?_
    rw [ofTerminated?_terminated]
    exact Reading.takes_pure p
  rwa [List.append_nil] at h

end Wire

namespace Request

/-- A command takes its number and the bytes that its arguments take. -/
lemma takes_command {c b : Bytes} {code : Word} {command : Command} {r : Request}
    (hc : Wire.SpellsInt c code) (hcode : Command.ofCode? code = some command)
    (hb : (readArguments command).Takes b r) : read.Takes (c ++ b) r := by
  obtain rfl := Wire.spellsInt_iff.mp hc
  refine (Wire.takes_int code).bind ?_
  rw [hcode]
  exact hb

/-- Where a path is read first, its spelling is taken before anything else. -/
lemma takes_path {α : Type} {f : Path → Wire.Reading α} {t b : Bytes} {p : Path} {a : α}
    (ht : Wire.SpellsPath t p) (hf : (f p).Takes b a) : (Wire.text >>= f).Takes (t ++ b) a := by
  obtain ⟨hp, rfl⟩ := Wire.spellsPath_iff.mp ht
  exact (Wire.takes_text hp).bind hf

/-- Where an integer is read last, its spelling is taken. -/
lemma takes_integer {α : Type} (f : Word → α) {i : Bytes} {n : Word} (hi : Wire.SpellsInt i n) :
    (Wire.int >>= fun n => pure (f n)).Takes i (f n) := by
  obtain rfl := Wire.spellsInt_iff.mp hi
  exact (Wire.takes_int n).map f

/-- Where a path is read last, its spelling is taken. -/
lemma takes_last {α : Type} (f : Path → α) {t : Bytes} {p : Path} (ht : Wire.SpellsPath t p) :
    (Wire.text >>= fun p => pure (f p)).Takes t (f p) := by
  obtain ⟨hp, rfl⟩ := Wire.spellsPath_iff.mp ht
  exact (Wire.takes_text hp).map f

/-- Reading a request takes its whole body. -/
lemma takes_of_spells {b : Bytes} {r : Request} (h : Spells b r) : read.Takes b r := by
  cases h with
  | @access c t i path mode hc ht hi =>
    rw [List.append_assoc]
    exact takes_command hc rfl (takes_path ht (takes_integer (Request.access path) hi))
  | @openFile c t i path flags hc ht hi =>
    rw [List.append_assoc]
    exact takes_command hc rfl (takes_path ht (takes_integer (Request.openFile path) hi))
  | readlink hc ht => exact takes_command hc rfl (takes_last Request.readlink ht)
  | @rename c t t' old new hc ht ht' =>
    rw [List.append_assoc]
    exact takes_command hc rfl (takes_path ht (takes_last (Request.rename old) ht'))
  | @stat c t i path n large hc ht hi =>
    have harguments : (Wire.text >>= fun p => Wire.int >>= fun n =>
        pure (Request.stat p (n != 0) large)).Takes (t ++ i) (.stat path (n != 0) large) :=
      takes_path ht (takes_integer (fun n => Request.stat path (n != 0) large) hi)
    rw [List.append_assoc]
    cases large with
    | false => exact takes_command hc rfl harguments
    | true => exact takes_command hc rfl harguments

/-- **An accepted body tells by itself where it ends.** A body that has lost bytes at its end is cut
off, and nothing else is wrong with it; one that has gained bytes goes on behind its request, or is
too long for a message. So no accepted body goes on where another one ends. -/
theorem self_delimiting {b : Bytes} {r : Request} (h : decode b = .ok r) :
    (∀ short, short <+: b → short ≠ b → decode short = .error .truncated) ∧
    (∀ more, more ≠ [] → decode (b ++ more) = .error
      (if (b ++ more).length ≤ Wire.capacity then .trailingData
      else .frameTooLarge (b ++ more).length)) ∧
    ∀ b' r', decode b' = .ok r' → b <+: b' → b' = b := by
  obtain ⟨hl, -⟩ := decode_eq_ok_iff.mp h
  have htakes := takes_of_spells (spells_of_decode h)
  have hmore : ∀ more, more ≠ [] → decode (b ++ more) = .error
      (if (b ++ more).length ≤ Wire.capacity then .trailingData
      else .frameTooLarge (b ++ more).length) := by
    intro more hne
    by_cases hfit : (b ++ more).length ≤ Wire.capacity
    · rw [decode, if_neg (by omega), Wire.Reader.ofBytes, htakes.whole 0 more, if_pos hfit]
      exact if_neg (by simpa [Wire.Reader.exhausted] using hne)
    · rw [decode, if_pos (by omega), if_neg hfit]
  refine ⟨fun short hp hne => ?_, hmore, ?_⟩
  · have hle := hp.length_le
    have hcut := htakes.cut 0 short hp hne
    rw [decode, if_neg (by omega), Wire.Reader.ofBytes]
    rcases hread : read ⟨0, short⟩ with ⟨value, rest⟩
    rw [hread] at hcut
    obtain rfl : value = .error .truncated := hcut
    rfl
  · rintro _ r' hr' ⟨more, rfl⟩
    by_contra hne
    rw [hmore more fun hnil => hne (by rw [hnil, List.append_nil])] at hr'
    cases hr'

/-- Renaming `/a` to `/b`: the body cut off between the two paths, the body with one more byte, and
the body with so many that it is too long. -/
theorem self_delimiting_rename :
    let b : Bytes := [1, 4, 0, 0, 0, 2, 3, 0, 0, 0, 47, 97, 0, 2, 3, 0, 0, 0, 47, 98, 0]
    decode b = .ok (.rename ⟨[47, 97], by decide⟩ ⟨[47, 98], by decide⟩) ∧
      b.take 13 <+: b ∧ b.take 13 ≠ b ∧ decode (b.take 13) = .error .truncated ∧
      decode (b ++ [1]) = .error .trailingData ∧
      decode (b ++ List.replicate 4096 0) = .error (.frameTooLarge 4117) := by
  intro b
  have h : decode b = .ok (.rename ⟨[47, 97], by decide⟩ ⟨[47, 98], by decide⟩) := by rfl
  have hp : b.take 13 <+: b := List.take_prefix 13 b
  have hne : b.take 13 ≠ b := by decide
  obtain ⟨hcut, hmore, -⟩ := self_delimiting h
  refine ⟨h, hp, hne, hcut _ hp hne, hmore [1] (by decide), ?_⟩
  have hlen : (b ++ List.replicate 4096 0).length = 4117 := by
    rw [List.length_append, List.length_replicate]
    rfl
  have hsome : List.replicate 4096 (0 : UInt8) ≠ [] :=
    List.ne_nil_of_length_pos (by rw [List.length_replicate]; decide)
  rw [hmore _ hsome, hlen]
  rfl

end Request

end FileBroker
