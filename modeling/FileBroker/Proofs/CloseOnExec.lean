/-
The mark that closes a file when another program is run.

One flag of an open request concerns the calling process alone: whether the file that it gets is
closed when it runs another program. It is taken out of the flags before they are judged and before
they are sent, the receiver of a file sets the mark of its own accord, and a caller that did not ask
for the mark takes it away again. So the flag has no part in what is decided or sent, and it alone
tells what becomes of the mark.

* `OpenFlags.toggled`: the flags with this one changed.
* `Request.Alike`: requests that differ in this flag at most.
* `Gate.evaluate_alike`, `Gate.check_alike`, `Client.prepare_alike`: they are decided alike.
* `Client.call_alike`, `Client.calls_alike`, `Client.call?_alike`: calls for them, and many calls
  for them in order, send the same and come to the same but for the mark.
* `Client.call?_opened_iff`: when a call gives a file, and whether the file has the mark.
* `Client.closeOnExec_neutral`: the flag is neutral.
-/
import FileBroker.Proofs.Conversations
import FileBroker.Proofs.Settlements

namespace FileBroker

open FileBroker.Stream (Buffer Frame FrameFault)

variable {δ ε : Type}

/-! ### The flag -/

namespace OpenFlags

/-- The flags with the one that concerns the calling process alone changed. -/
def toggled (flags : Word) : Word := flags ^^^ closeOnExec

/-- Some flags are sent as others if they have the same bits but for this one. -/
lemma onWire_eq_of_bit {flags flags' : Word}
    (h : ∀ i, i ≠ closeOnExecBit → flags.bit i = flags'.bit i) : onWire flags = onWire flags' := by
  refine Word.eq_of_bit fun i => ?_
  rw [bit_onWire, bit_onWire]
  by_cases hi : i = closeOnExecBit
  · rw [decide_eq_false (not_not.mpr hi), Bool.and_false, Bool.and_false]
  · rw [h i hi]

lemma onWire_toggled (flags : Word) : onWire (toggled flags) = onWire flags :=
  onWire_eq_of_bit fun i hi => by
    rw [toggled, Word.bit_xor, bit_closeOnExec, decide_eq_false hi, Bool.bne_false]

lemma onWire_or_closeOnExec (flags : Word) : onWire (flags ||| closeOnExec) = onWire flags :=
  onWire_eq_of_bit fun i hi => by
    rw [Word.bit_or, bit_closeOnExec, decide_eq_false hi, Bool.or_false]

end OpenFlags

/-- Requests that are sent as the same: they differ at most in the flag that concerns the calling
process alone. -/
def Request.Alike (r r' : Request) : Prop := r.onWire = r'.onWire

namespace Request.Alike

variable {r r' : Request}

lemma openFile (path : Path) {flags flags' : Word}
    (h : OpenFlags.onWire flags = OpenFlags.onWire flags') :
    Alike (.openFile path flags) (.openFile path flags') := congrArg (Request.openFile path) h

/-- Only requests to open a file can differ. -/
lemma eq_or_openFile (h : r.Alike r') :
    r = r' ∨ ∃ path flags flags', r = .openFile path flags ∧ r' = .openFile path flags' := by
  cases r with
  | openFile path flags =>
    cases r' with
    | openFile path' flags' =>
      obtain ⟨rfl, -⟩ := Request.openFile.inj h
      exact .inr ⟨path, flags, flags', rfl, rfl⟩
    | _ => cases h
  | _ => cases r' <;> first | exact .inl h | cases h

end Request.Alike

/-- Queries for requests that are alike, with one buffer. -/
structure Query.SentAlike (q q' : Query) : Prop where
  request : q.request.Alike q'.request
  buffer : q.buffer = q'.buffer

/-! ### What is decided -/

namespace Gate

variable {r r' : Request}

/-- The gate has one decision for requests that are alike. -/
lemma evaluate_alike (g : Gate) (h : r.Alike r') : g.evaluate r = g.evaluate r' := by
  rw [← g.evaluate_onWire r, h, g.evaluate_onWire]

/-- A dry run tells of a request what it tells of the request as it is sent. -/
lemma check_onWire (g : Gate) (r : Request) : g.check r.onWire = g.check r := by
  cases r with
  | openFile path flags =>
    simp only [Request.onWire, check, permitsOpen, OpenFlags.onWire_onWire]
    rfl
  | _ => rfl

lemma check_alike (g : Gate) (h : r.Alike r') : g.check r = g.check r' := by
  rw [← g.check_onWire r, h, g.check_onWire]

/-- The flags that are approved are the requested ones without the one that concerns the calling
process alone. -/
lemma evaluate_openFile {g : Gate} {path : Path} {flags : Word} {a : Approval}
    (h : g.evaluate (.openFile path flags) = .ok a) :
    ∃ unlink, a = .openFile path (OpenFlags.onWire flags) unlink := by
  obtain ⟨unlink, ha, -⟩ := evaluate_approval h
  exact ⟨unlink, ha⟩

end Gate

namespace Client

variable {r r' : Request}

/-! ### What is sent -/

/-- Requests that are alike make the same message, or the same error. -/
lemma prepare_alike (c : Client) (h : r.Alike r') : c.prepare r = c.prepare r' := by
  rw [prepare, prepare, c.gate.check_alike h, h]

/-- The answer without the mark of the file. -/
def Answer.unmarked : Answer δ → Answer δ
  | .opened fd _ => .opened fd false
  | answer => answer

/-- Results that differ at most in the mark of a file. -/
def SameButMark (w w' : Except Errno (Answer δ)) : Prop :=
  w.map Answer.unmarked = w'.map Answer.unmarked

/-- Calls that send the same, leave the same and have the same result but for the mark. -/
structure Called.Alike (s s' : Called δ) : Prop where
  result : SameButMark s.result s'.result
  sent : s.sent = s'.sent
  line : s.line = s'.line

/-- A frame means the same for requests that are alike, but for the mark. -/
lemma interpret_alike (h : r.Alike r') (buffer : Bytes) (frame : Frame δ) :
    SameButMark (interpret r buffer frame) (interpret r' buffer frame) := by
  obtain rfl | ⟨path, flags, flags', rfl, rfl⟩ := h.eq_or_openFile
  · rfl
  · simp only [interpret]
    split
    · rfl
    · split_ifs
      · rfl
      · rcases frame.descriptor with _ | fd <;> rfl

lemma conclude_alike (h : r.Alike r') (buffer : Bytes) (inlet : Stream.Inlet δ) :
    SameButMark (conclude r buffer inlet).1 (conclude r' buffer inlet).1 ∧
      (conclude r buffer inlet).2 = (conclude r' buffer inlet).2 := by
  rw [conclude, conclude]
  rcases Stream.receiveFrame inlet with ⟨(_ | errno) | frame, inlet'⟩
  · exact ⟨rfl, rfl⟩
  · exact ⟨rfl, rfl⟩
  · exact ⟨interpret_alike h buffer frame, rfl⟩

/-- A call for a request is like a call for one that is alike. -/
lemma call_alike (c : Client) (h : r.Alike r') (buffer : Bytes) (line : Line δ) :
    (c.call r buffer line).Alike (c.call r' buffer line) := by
  rw [call, call, c.prepare_alike h]
  rcases c.prepare r' with errno | message
  · exact ⟨rfl, rfl, rfl⟩
  dsimp only
  rcases line.outlet.send .interrupted message.frame none with ⟨errno | _, sent, outlet⟩
  · exact ⟨rfl, rfl, rfl⟩
  · obtain ⟨hresult, hinlet⟩ := conclude_alike h buffer line.inlet
    exact ⟨hresult, rfl, congrArg (Line.mk · outlet) hinlet⟩

/-- **Many calls in order** send the same, call by call, and come to the same but for the marks,
whichever of them ask for the mark. -/
theorem calls_alike (c : Client) {queries queries' : List Query}
    (h : List.Forall₂ Query.SentAlike queries queries') (line : Line δ) :
    List.Forall₂ Called.Alike (c.calls queries line).1 (c.calls queries' line).1 ∧
      (c.calls queries line).2 = (c.calls queries' line).2 := by
  induction h generalizing line with
  | nil => exact ⟨.nil, rfl⟩
  | @cons q q' queries queries' hq hqs ih =>
    have hcall := c.call_alike hq.request q.buffer line
    obtain ⟨hothers, hlast⟩ := ih (c.call q.request q.buffer line).line
    simp only [calls, inOrder]
    rw [← hq.buffer, ← hcall.line]
    exact ⟨.cons hcall hothers, hlast⟩

/-! ### What a call with every check comes to -/

/-- Settlements that send the same, leave the same and have the same result but for the mark. -/
structure Settlement.Alike (s s' : Settlement ε) : Prop where
  result : SameButMark (s.result.map Settled.answer) (s'.result.map Settled.answer)
  sent : s.sent = s'.sent
  line : s.line = s'.line

/-- The end of a call is that of a call for a request that is alike, but for the mark. -/
lemma settlement?_alike (h : r.Alike r') (behind : Buffer) (buffer : Bytes)
    (result : Except FrameFault (Frame (Handle ε))) :
    Option.Rel (fun w w' => SameButMark (w.map Settled.answer) (w'.map Settled.answer))
      (settlement? behind ⟨r, buffer⟩ result) (settlement? behind ⟨r', buffer⟩ result) := by
  obtain rfl | ⟨path, flags, flags', rfl, rfl⟩ := h.eq_or_openFile
  · rcases settlement? behind ⟨r, buffer⟩ result with _ | w
    · exact .none
    · exact .some rfl
  -- up to the return code nothing depends on the request, and after it only the mark does
  rcases result with fault | f
  · exact .some rfl
  simp only [settlement?]
  rcases behind.write? 0 f.body with _ | b
  · exact .none
  simp only [Option.bind_some]
  rcases unpack? b f.body.length with _ | errno | u
  · exact .none
  · exact .some rfl
  simp only [Option.bind_some, conclude?]
  by_cases hneg : u.code < 0
  · simp only [if_pos hneg]
    rcases negated? u.code with _ | code
    · exact .none
    · exact .some rfl
  · simp only [if_neg hneg, grant?]
    rcases f.descriptor.map Handle.installed with _ | fd
    · exact .some rfl
    · refine .some ?_
      split_ifs <;> rfl

lemma call?_alike (c : Client) (h : r.Alike r') (buffer : Bytes) (b behind : Buffer)
    (line : Line (Handle ε)) :
    Option.Rel Settlement.Alike (c.call? ⟨r, buffer⟩ b behind line)
      (c.call? ⟨r', buffer⟩ b behind line) := by
  simp only [call?, c.prepare_alike h]
  rcases c.prepare r' with errno | message
  · exact .some ⟨rfl, rfl, rfl⟩
  dsimp only
  rcases line.outlet.send .interrupted message.frame none with ⟨errno | _, sent, outlet⟩
  · exact .some ⟨rfl, rfl, rfl⟩
  rcases Stream.receive b line.inlet with _ | v
  · exact .none
  simp only [Option.bind_some]
  have hrel := settlement?_alike h behind buffer v.result
  generalize settlement? behind ⟨r, buffer⟩ v.result = o at hrel ⊢
  generalize settlement? behind ⟨r', buffer⟩ v.result = o' at hrel ⊢
  cases hrel with
  | none => exact .none
  | some hw => exact .some ⟨hw, rfl, rfl⟩

/-- The request of a call is sent. -/
def Sends (c : Client) (r : Request) (line : Line (Handle ε)) : Prop :=
  ∃ message sent outlet, c.prepare r = .ok message ∧
    line.outlet.send .interrupted message.frame (none : Option (Handle ε)) = (.ok (), sent, outlet)

/-- What arrives is a reply that reports success, and a file comes with it. -/
def Delivers (inlet : Stream.Inlet (Handle ε)) (peer : Handle ε) : Prop :=
  ∃ (f : Frame (Handle ε)) (r : Reply), (Stream.receiveFrame inlet).1 = .ok f ∧
    f.body = r.bytes ∧ 0 ≤ r.returnCode.toInt ∧ f.descriptor = some peer

/-- A call gives a file exactly if its request is sent and the file is delivered, and the file has
the mark if the caller asked for it, whether it had it at the sender or not. -/
lemma call?_opened_iff (c : Client) (path : Path) (flags : Word) (buffer : Bytes)
    (b behind : Buffer) (line : Line (Handle ε)) (h : Handle ε) :
    (∃ s, c.call? ⟨.openFile path flags, buffer⟩ b behind line = some s ∧
        s.result = .ok (.opened h)) ↔
      c.Sends (.openFile path flags) line ∧ ∃ peer, Delivers line.inlet peer ∧
        h = ⟨peer.file, flags.bit OpenFlags.closeOnExecBit⟩ := by
  obtain ⟨v, hreceive, hv⟩ := Stream.receive_exact b line.inlet
  have hresult : (Stream.receiveFrame line.inlet).1 = v.result := congrArg Prod.fst hv.same
  have hbound := bounded_of_exact hv
  constructor
  · rintro ⟨s, hcall, hs⟩
    rw [call?] at hcall
    -- a call that ends before it waits for a reply has no file
    split at hcall
    · obtain rfl := Option.some.inj hcall
      cases hs
    next message hp =>
    split at hcall
    · obtain rfl := Option.some.inj hcall
      cases hs
    next sent outlet hsend =>
    rw [hreceive, Option.bind_some, Option.map_eq_some_iff] at hcall
    obtain ⟨w, hw, rfl⟩ := hcall
    obtain rfl : w = .ok (.opened h) := hs
    obtain ⟨-, htold⟩ := (settlement?_eq_some_iff behind _ hbound).mp hw
    refine ⟨⟨message, sent, outlet, hp, hsend⟩, ?_⟩
    generalize v.result = result at htold hresult
    cases htold with
    | @granted f r _ hbody hpos hgives =>
      cases hgives with
      | @opened _ _ peer hq hfd =>
        obtain ⟨-, rfl⟩ := Request.openFile.inj hq
        exact ⟨peer, ⟨f, r, hresult, hbody, hpos, hfd⟩, rfl⟩
  · rintro ⟨⟨message, sent, outlet, hp, hsend⟩, peer, ⟨⟨_, fd⟩, r, hf, rfl, hpos, hfd⟩, rfl⟩
    have hframe : v.result = .ok ⟨r.bytes, fd⟩ := hresult.symm.trans hf
    have hcode : Negatable v.result := by
      rw [hframe]
      refine negatable_reply (hbound _ hframe) ?_ fd
      rintro hmin
      rw [hmin, Int32.toInt_minValue] at hpos
      omega
    have htold : Told ⟨.openFile path flags, buffer⟩ v.result
        (.ok (.opened ⟨peer.file, flags.bit OpenFlags.closeOnExecBit⟩)) := by
      rw [hframe]
      exact .granted rfl hpos (.opened rfl hfd)
    exact ⟨_, call?_of_told behind hp hsend hreceive hv hcode htold, rfl⟩

/-! ### The flag is neutral -/

/-- **The flag that concerns the calling process alone is neutral.** A gate decides on an open
request as if the flag were not there, and does not approve it; a client sends the same for the
request with the flag changed, or nothing for both, and comes to the same but for the mark; and it
gets the file that is delivered, with the mark exactly if the flag was given. -/
theorem closeOnExec_neutral (path : Path) (flags : Word) :
    (∀ g : Gate,
      g.evaluate (.openFile path (flags ||| OpenFlags.closeOnExec)) =
          g.evaluate (.openFile path (flags.without OpenFlags.closeOnExec)) ∧
        ∀ a, g.evaluate (.openFile path flags) = .ok a →
          ∃ name approved unlink, a = .openFile name approved unlink ∧
            approved.bit OpenFlags.closeOnExecBit = false) ∧
    ∀ (c : Client) (buffer : Bytes) (line : Line (Handle ε)),
      c.prepare (.openFile path (OpenFlags.toggled flags)) = c.prepare (.openFile path flags) ∧
      (c.call (.openFile path (OpenFlags.toggled flags)) buffer line).Alike
        (c.call (.openFile path flags) buffer line) ∧
      ∀ b behind : Buffer,
        Option.Rel Settlement.Alike
          (c.call? ⟨.openFile path (OpenFlags.toggled flags), buffer⟩ b behind line)
          (c.call? ⟨.openFile path flags, buffer⟩ b behind line) ∧
        ∀ h, (∃ s, c.call? ⟨.openFile path flags, buffer⟩ b behind line = some s ∧
            s.result = .ok (.opened h)) ↔
          c.Sends (.openFile path flags) line ∧ ∃ peer, Delivers line.inlet peer ∧
            h = ⟨peer.file, flags.bit OpenFlags.closeOnExecBit⟩ := by
  have htoggled : Request.Alike (.openFile path (OpenFlags.toggled flags)) (.openFile path flags) :=
    .openFile path (OpenFlags.onWire_toggled flags)
  have hset : Request.Alike (.openFile path (flags ||| OpenFlags.closeOnExec))
      (.openFile path (flags.without OpenFlags.closeOnExec)) := by
    refine .openFile path ((OpenFlags.onWire_or_closeOnExec flags).trans ?_)
    exact (OpenFlags.onWire_onWire flags).symm
  refine ⟨fun g => ⟨g.evaluate_alike hset, fun a ha => ?_⟩, fun c buffer line =>
    ⟨c.prepare_alike htoggled, c.call_alike htoggled buffer line, fun b behind =>
      ⟨c.call?_alike htoggled buffer b behind line, c.call?_opened_iff path flags buffer b behind
        line⟩⟩⟩
  obtain ⟨unlink, rfl⟩ := Gate.evaluate_openFile ha
  refine ⟨path, _, unlink, rfl, ?_⟩
  rw [OpenFlags.bit_onWire, decide_eq_false (not_not.mpr rfl), Bool.and_false]

/-- A caller asks for the mark and gets it, though the sender's file had none; another does not ask
for it and gets none, though the sender's file had it. -/
theorem closeOnExec_neutral_of_peers :
    let b : Buffer := ⟨List.replicate Stream.frameRoom 0, List.length_replicate⟩
    let c : Client := ⟨⟨.all, .notPermitted, []⟩, false⟩
    let path : Path := ⟨[47, 97], by decide⟩
    let line (mark : Bool) : Line (Handle ℕ) :=
      ⟨⟨[.chunk ⟨Connection.frame (Reply.bytes ⟨3, none⟩), [⟨8, mark⟩]⟩], false⟩, {}⟩
    (∃ s, c.call? ⟨.openFile path OpenFlags.closeOnExec, []⟩ b b (line false) = some s ∧
      s.result = .ok (.opened ⟨8, true⟩)) ∧
    ∃ s, c.call? ⟨.openFile path OpenFlags.readOnly, []⟩ b b (line true) = some s ∧
      s.result = .ok (.opened ⟨8, false⟩) := by
  intro b c path line
  have hsends (flags : Word) (mark : Bool) : c.Sends (.openFile path flags) (line mark) := by
    refine ⟨_, _, _, prepare_of_fits (by rintro ⟨⟨⟩, -⟩) ?_, rfl⟩
    exact (Request.onWire_bytes_length _).trans_le (Nat.le_of_ble_eq_true rfl)
  have hdelivers (mark : Bool) : Delivers (line mark).inlet ⟨8, mark⟩ :=
    ⟨⟨Reply.bytes ⟨3, none⟩, some ⟨8, mark⟩⟩, ⟨3, none⟩, by cbv, rfl, by decide, rfl⟩
  obtain ⟨-, hmarked⟩ := closeOnExec_neutral (ε := ℕ) path OpenFlags.closeOnExec
  obtain ⟨-, hplain⟩ := closeOnExec_neutral (ε := ℕ) path OpenFlags.readOnly
  constructor
  · exact (((hmarked c [] (line false)).2.2 b b).2 _).mpr ⟨hsends _ _, _, hdelivers false, rfl⟩
  · exact (((hplain c [] (line true)).2.2 b b).2 _).mpr ⟨hsends _ _, _, hdelivers true, rfl⟩

end Client

end FileBroker
