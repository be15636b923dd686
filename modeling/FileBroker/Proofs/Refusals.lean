/-
Refusals that tell nothing.

A client that is refused sees an error number. Here two runs are compared that may differ in
everything: the file systems, what was asked before on the connection, the segments and the writes,
the refused body and the reason why it is refused. Both clients see the same frame.

* `refusalFrame`: the frame of every refusal.
* `Connection.History`: how a connection has come to where it is.
* `Connection.History.Refuses`: a body is about to be served that is refused for a reason.
* `Connection.Discreet`: a refusal of which nothing is seen but the frame.
* `Connection.refusals_alike`: two refusals cannot be told apart.
-/
import FileBroker.Proofs.Transcripts

namespace FileBroker

open FileBroker.Broker (RefusedFor refuse refusalEntry refusalEntry_eq serve_of_refused)
open FileBroker.Connection (Effect Move Stepped accepted frame play)
open FileBroker.Stream (Outlet bytesOf descriptorsOf)

variable {σ δ : Type} {g : Gate}

/-- The frame of every refusal: a body of five bytes, which is the tag of an integer and the negated
error number. -/
def refusalFrame (errno : Errno) : Bytes :=
  [5, 0, 0, 0] ++ 1 :: Wire.wordBytes (-errno.code).toUInt32

namespace Connection

/-- How a connection has come to where it is: the kernel and its state at the start, the writes that
lay ahead, and the moves that were made. -/
structure History (σ δ : Type) where
  kernel : Kernel σ δ
  start : σ
  outlet : Outlet
  moves : List Move

namespace History

/-- Where the moves have led, with the calls that were made on the way. -/
def reached (h : History σ δ) (g : Gate) : Stepped (σ × List (Answered δ)) δ :=
  play g h.kernel.traced h.moves (accepted h.outlet) (h.start, [])

/-- What the next two steps give: serving a body, and sending its reply. -/
def answer (h : History σ δ) (g : Gate) : Stepped (σ × List (Answered δ)) δ :=
  play g h.kernel.traced [.step true, .step true] (h.reached g).connection (h.reached g).system

/-- A body is about to be served that is refused for a reason. -/
structure Refuses (h : History σ δ) (g : Gate) (body : Bytes) (reason : Refusal) : Prop where
  serving : (h.reached g).connection.phase = .serving body
  refused : RefusedFor g body reason

end History

/-- A refusal of which nothing is seen but the frame: the state and the calls stay as they were, no
descriptor is attached, and the reason is kept for the log. Where sending fails, only a beginning of
the frame is seen, and the connection has ended. -/
structure Discreet (g : Gate) (reason : Refusal)
    (before after : Stepped (σ × List (Answered δ)) δ) : Prop where
  untouched : after.system = before.system
  frame : after.connection.scratch.frame = refusalFrame g.policy.deniedErrno
  shown : ∃ bytes, seen after.effects = [.reply bytes []] ∧
    bytes <+: refusalFrame g.policy.deniedErrno ∧
    (after.connection.phase ≠ .ended → bytes = refusalFrame g.policy.deniedErrno)
  noted : after.connection.phase ≠ .ended →
    ∃ entry, after.connection.phase = .recording entry false ∧ entry.reason = some reason

/-- The frame of a refusal depends on the error number alone. -/
lemma frame_refuse {entry : Audit.Entry} {errno : Errno} (h : entry.returnCode = errno.returnCode) :
    frame (refuse entry : Broker.Served δ).reply.bytes = refusalFrame errno := by
  have hb : (refuse entry : Broker.Served δ).reply.bytes =
      1 :: Wire.wordBytes (-errno.code).toUInt32 := by
    simp only [refuse, Broker.Served.reply, Reply.bytes, Reply.entries, h]
    rfl
  have hl : Wire.wordBytes (UInt32.ofNat 5) = [5, 0, 0, 0] := by decide
  rw [frame, hb, refusalFrame, ← hl]
  rfl

/-- Sending a refusal shows its frame, or a beginning of it where sending fails. -/
lemma reply_refuse (c : Connection δ) {entry : Audit.Entry} {errno : Errno}
    (h : entry.returnCode = errno.returnCode) (s : σ) :
    let r := c.reply (refuse entry) s
    r.system = s ∧ r.connection.scratch.frame = refusalFrame errno ∧
      ∃ bytes, seen r.effects = [.reply bytes []] ∧ bytes <+: refusalFrame errno ∧
        (r.connection.phase = .ended ∨
          (r.connection.phase = .recording entry false ∧ bytes = refusalFrame errno)) := by
  have hf := Broker.refuse_fits (δ := δ) entry
  have hframe : Wire.Message.frame ⟨_, hf⟩ = refusalFrame errno := frame_refuse h
  have hnone : (refuse entry : Broker.Served δ).descriptor = none := rfl
  rcases hsend : c.outlet.send .wouldBlock (refusalFrame errno) (none : Option δ) with
    ⟨result, chunks, outlet⟩
  obtain ⟨hpre, hall, hd⟩ := Stream.Outlet.send_prefix hsend
  cases result with
  | error fault =>
    simp only [reply, Reply.encode_eq hf, hframe, hnone, hsend, seen, List.map_cons, List.map_nil,
      hd]
    exact ⟨trivial, trivial, _, rfl, hpre, .inl trivial⟩
  | ok done =>
    simp only [reply, Reply.encode_eq hf, hframe, hnone, hsend, seen, List.map_cons, List.map_nil,
      hd]
    exact ⟨trivial, trivial, _, rfl, hpre, .inr ⟨rfl, hall rfl⟩⟩

/-- A refused body is answered discreetly, whatever has happened before. -/
lemma History.Refuses.discreet {h : History σ δ} {body : Bytes} {reason : Refusal}
    (hr : h.Refuses g body reason) : Discreet g reason (h.reached g) (h.answer g) := by
  obtain ⟨-, hreason, hcode⟩ := refusalEntry_eq g body reason
  rw [History.answer, play_of_serving hr.serving, serve_of_refused hr.refused]
  obtain ⟨hsys, hframe, bytes, hseen, hpre, hphase⟩ := reply_refuse
    { (h.reached g).connection with phase := .replying (refuse (refusalEntry g body reason)) }
    hcode (h.reached g).system
  refine ⟨hsys, hframe, ⟨bytes, hseen, hpre, fun hne => ?_⟩, fun hne => ?_⟩
  · obtain hend | ⟨-, hall⟩ := hphase
    · exact absurd hend hne
    · exact hall
  · obtain hend | ⟨hrec, -⟩ := hphase
    · exact absurd hend hne
    · exact ⟨_, hrec, hreason⟩

/-- **Two refusals cannot be told apart.** In any two histories, over any two kernels and states, a
refused body is answered with the frame that the policy alone determines, without a descriptor and
without a call; nothing but the entry that is to be recorded has the reason. -/
theorem refusals_alike {σ₁ δ₁ σ₂ δ₂ : Type} {h₁ : History σ₁ δ₁} {h₂ : History σ₂ δ₂}
    {body₁ body₂ : Bytes} {reason₁ reason₂ : Refusal} (hr₁ : h₁.Refuses g body₁ reason₁)
    (hr₂ : h₂.Refuses g body₂ reason₂) :
    Discreet g reason₁ (h₁.reached g) (h₁.answer g) ∧
      Discreet g reason₂ (h₂.reached g) (h₂.answer g) ∧
      (h₁.answer g).connection.scratch.frame = (h₂.answer g).connection.scratch.frame ∧
      ((h₁.answer g).connection.phase ≠ .ended → (h₂.answer g).connection.phase ≠ .ended →
        ∃ bytes, seen (h₁.answer g).effects = [.reply bytes []] ∧
          seen (h₂.answer g).effects = [.reply bytes []]) := by
  have hd₁ := hr₁.discreet
  have hd₂ := hr₂.discreet
  refine ⟨hd₁, hd₂, hd₁.frame.trans hd₂.frame.symm, fun hne₁ hne₂ => ?_⟩
  obtain ⟨bytes₁, hs₁, -, hb₁⟩ := hd₁.shown
  obtain ⟨bytes₂, hs₂, -, hb₂⟩ := hd₂.shown
  refine ⟨refusalFrame g.policy.deniedErrno, ?_, ?_⟩
  · rw [hs₁, hb₁ hne₁]
  · rw [hs₂, hb₂ hne₂]

/-- A body that holds no request, on a file tree and after an empty body, and a request for the link
`/a`, which is not served, on a kernel where every call fails. -/
theorem malformed_and_disabled_alike :
    let g : Gate := ⟨.empty, ⟨.accessDenied, []⟩⟩
    let body : Bytes := [1, 3, 0, 0, 0, 2, 3, 0, 0, 0, 47, 97, 0]
    let h₁ : History FileTree FileTree.Descriptor :=
      ⟨FileTree.kernel, .bare, {}, [.arrive [0, 0, 0, 0, 1, 0, 0, 0, 9], .step true, .step true,
        .step true, .step true, .step true]⟩
    let h₂ : History Unit Unit :=
      ⟨⟨fun _ s => (.error .inputOutput, s)⟩, (), ⟨[.takes 2], false⟩,
        [.arrive [13, 0], .arrive ([0, 0] ++ body), .step false]⟩
    h₁.Refuses g [9] .malformed ∧ h₂.Refuses g body .commandDisabled ∧
      (h₁.answer g).connection.scratch.frame = (h₂.answer g).connection.scratch.frame := by
  intro g body h₁ h₂
  have hr₁ : h₁.Refuses g [9] .malformed := ⟨by rfl, .malformed (by rfl)⟩
  have hd : Request.decode body = .ok (.readlink ⟨[47, 97], by decide⟩) := by rfl
  have hr₂ : h₂.Refuses g body .commandDisabled := ⟨by rfl, .denied hd (by rfl)⟩
  exact ⟨hr₁, hr₂, (refusals_alike hr₁ hr₂).2.2.1⟩

end Connection

end FileBroker
