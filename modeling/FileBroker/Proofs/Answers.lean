/-
What a single call is answered.

A call through a broker should give what the policy denies or what the kernel answers, and nothing
of what lies in between should show: that open flags lose one of their number on the way, that
errors travel as negated numbers, that data travels in a reply. The reference asks the gate and then
the kernel, and knows of no messages.

* `Request.call`, `Query`, `Query.result`: the call of the kernel that a request stands for, calls
  of a client, and what they give if the kernel's call succeeds.
* `Query.direct`: the reference.
* `Gate.evaluate_onWire`, `Gate.check_allowed_iff`: the gate's decision on the way to a broker, and
  without one.
* `Client.Refuses`, `Client.prepare_of_refuses`: calls that a client refuses itself.
* `Query.answered`: what a call gives if its frame and the reply to it arrive whole.
* `Query.answered_of_asked`: this is what the reference gives.
-/
import FileBroker.Client
import FileBroker.Proofs.Replies
import FileBroker.Proofs.Requests

namespace FileBroker

variable {σ δ : Type} {g : Gate} {k : Kernel σ δ}

/-! ### The reference -/

/-- The call of the kernel that a request stands for. -/
def Request.call : Request → Call
  | access path mode => .access path mode
  | openFile path flags => .openFile path (flags ||| OpenFlags.closeOnExec) createdPermissions
  | readlink path => .readlink path linkRoom
  | rename old new => .rename old new
  | stat path follow large => .stat path follow large

/-- A call of a client: its request, and the buffer that the target of a link is written to. -/
structure Query where
  request : Request
  buffer : Bytes
  deriving DecidableEq, Repr

/-- What a call of a client gives if the kernel's call succeeds: the descriptor, as much of the
link's target as the buffer has room for, or the bytes of the status structure. -/
def Query.result : (q : Query) → q.request.call.Result δ → Client.Answer δ
  | ⟨.access .., _⟩, _ => .done
  | ⟨.openFile _ flags, _⟩, fd => .opened fd (flags.overlaps OpenFlags.closeOnExec)
  | ⟨.readlink _, buffer⟩, (target : Bytes) =>
    .link (min target.length buffer.length)
      (target.take buffer.length ++ buffer.drop target.length)
  | ⟨.rename .., _⟩, _ => .done
  | ⟨.stat .., _⟩, (image : Status.Image) => .status image.bytes

/-- The state that an approval leaves after its call has succeeded: a file that was opened may lose
its name. -/
def Approval.after (k : Kernel σ δ) : Approval → σ → σ
  | openFile path _ true, s => (k.answer (.unlink path) s).2
  | _, s => s

/-- What a call gives without a broker, and the state that it leaves: a request that is too long or
that the gate refuses has no effect, and any other is answered by the kernel. -/
def Query.direct (g : Gate) (k : Kernel σ δ) (q : Query) (s : σ) :
    Except Errno (Client.Answer δ) × σ :=
  if Wire.capacity < q.request.wireSize then (.error .nameTooLong, s)
  else
    match g.evaluate q.request with
    | .error _ => (.error g.policy.deniedErrno, s)
    | .ok approval =>
      match k.answer q.request.call s with
      | (.error errno, s') => (.error errno, s')
      | (.ok result, s') => (.ok (q.result result), approval.after k s')

/-- A kernel whose error numbers are positive. -/
def Kernel.Positive (k : Kernel σ δ) : Prop :=
  ∀ (c : Call) (s : σ) (errno : Errno), (k.answer c s).1 = .error errno → 0 < errno.code

/-! ### Requests on the wire -/

lemma OpenFlags.onWire_onWire (flags : Word) : onWire (onWire flags) = onWire flags := by
  refine Word.eq_of_bit fun i => ?_
  simp only [bit_onWire, Bool.and_assoc, Bool.and_self]

/-- A request takes as many bytes as what is sent of it. -/
lemma Request.onWire_bytes_length (r : Request) : r.onWire.bytes.length = r.wireSize := by
  rw [bytes_length]
  cases r <;> rfl

namespace Gate

/-- The gate decides on a request as it decides on what is sent of it. -/
lemma evaluate_onWire (g : Gate) (r : Request) : g.evaluate r.onWire = g.evaluate r := by
  cases r with
  | openFile path flags =>
    simp only [Request.onWire, evaluate, approval?, permitsOpen, OpenFlags.onWire_onWire]
    rfl
  | _ => rfl

/-- Only a request whose command is served is approved. -/
lemma contains_of_approval? {r : Request} {a : Approval} (h : g.approval? r = some a) :
    g.commands.contains r.command = true := by
  cases r with
  | access path mode =>
    obtain ⟨name, hn, -⟩ := Option.map_eq_some_iff.mp h
    exact (Option.ite_none_right_eq_some.mp hn).1
  | openFile path flags =>
    obtain ⟨grant, hn, -⟩ := Option.map_eq_some_iff.mp h
    exact (Option.ite_none_right_eq_some.mp hn).1
  | readlink path =>
    obtain ⟨name, hn, -⟩ := Option.map_eq_some_iff.mp h
    exact (Option.ite_none_right_eq_some.mp hn).1
  | rename old new =>
    obtain ⟨grant, hn, -⟩ := Option.map_eq_some_iff.mp h
    exact (Option.ite_none_right_eq_some.mp hn).1
  | stat path follow large =>
    obtain ⟨name, hn, -⟩ := Option.map_eq_some_iff.mp h
    have hs := (Option.ite_none_right_eq_some.mp hn).2
    exact (Option.ite_none_right_eq_some.mp hs).1

/-- The dry run of a request allows it if the request would be approved. -/
lemma check_allowed (g : Gate) (r : Request) :
    (g.check r).allowed = (g.approval? r).isSome := by
  cases r with
  | access path mode =>
    simp only [check, judge, approval?]
    cases g.permitsAccess path mode <;> rfl
  | openFile path flags =>
    simp only [check, approval?]
    cases g.permitsOpen path flags <;> rfl
  | readlink path =>
    simp only [check, judge, approval?]
    cases g.permitsReadlink path <;> rfl
  | rename old new =>
    simp only [check, approval?]
    cases g.permitsRename old new <;> rfl
  | stat path follow large =>
    simp only [check, judge, approval?]
    cases g.permitsStat (Request.stat path follow large).command path <;> rfl

/-- The dry run of a request allows it exactly if the gate does not refuse it. -/
lemma check_allowed_iff (g : Gate) (r : Request) :
    (g.check r).allowed = false ↔ ∃ reason, g.evaluate r = .error reason := by
  rw [check_allowed]
  cases ha : g.approval? r with
  | none =>
    have he : ∃ reason, g.evaluate r = .error reason := by
      rw [evaluate, ha]
      split
      · exact ⟨_, rfl⟩
      · exact ⟨_, rfl⟩
    simpa using he
  | some a =>
    have he : g.evaluate r = .ok a := evaluate_eq_ok_iff.mpr ⟨contains_of_approval? ha, ha⟩
    simp [he]

end Gate

/-- The call that carries out an approved request is the one that the request stands for. -/
lemma Request.approval_call (r : Request) (unlink : Bool) : (r.approval unlink).call = r.call := by
  cases r with
  | openFile path flags => rw [approval, Approval.call, call, OpenFlags.onWire_or]
  | _ => rfl

/-! ### Calls on their way -/

namespace Client

/-- The client refuses a request itself: it asks its gate first, and the gate refuses. -/
def Refuses (c : Client) (r : Request) : Prop :=
  c.fastCheck = true ∧ ∃ reason, c.gate.evaluate r = .error reason

lemma refuses_iff (c : Client) (r : Request) :
    c.Refuses r ↔ (c.fastCheck && !(c.gate.check r).allowed) = true := by
  rw [Refuses, ← Gate.check_allowed_iff, Bool.and_eq_true, Bool.not_eq_true']

/-- A request that the client refuses itself is denied. -/
lemma prepare_of_refuses {c : Client} {r : Request} (h : c.Refuses r) :
    c.prepare r = .error c.gate.policy.deniedErrno := by
  rw [prepare, if_pos ((refuses_iff c r).mp h)]

/-- A request that the client does not refuse itself is sent if it fits. -/
lemma prepare_of_fits {c : Client} {r : Request} (h : ¬ c.Refuses r)
    (hl : r.onWire.bytes.length ≤ Wire.capacity) :
    c.prepare r = .ok ⟨r.onWire.bytes, hl⟩ := by
  rw [refuses_iff] at h
  rw [prepare, if_neg h, Request.encode_eq hl]

lemma prepare_of_long {c : Client} {r : Request} (h : ¬ c.Refuses r)
    (hl : Wire.capacity < r.wireSize) : c.prepare r = .error .nameTooLong := by
  rw [← r.onWire_bytes_length] at hl
  have hf := Request.encode_full hl .empty
  rw [refuses_iff] at h
  rw [prepare, if_neg h]
  split
  · next message he => simp [he] at hf
  · rfl

end Client

/-! ### Replies and what they tell -/

/-- A positive error number is told by a negative return code. -/
lemma Errno.returnCode_neg {e : Errno} (h : 0 < e.code) : e.returnCode < 0 := by
  have hc : 0 < e.code.toInt := Int32.lt_iff_toInt_lt.mp h
  have hlt : e.code.toInt < 2 ^ 31 := e.code.toInt_lt
  have hn : (-e.code).toInt = -e.code.toInt := by
    rw [Int32.toInt_neg, Int.bmod_eq_of_le (by omega) (by omega)]
  rw [returnCode, Int32.lt_iff_toInt_lt, hn]
  exact Int.neg_neg_of_pos hc

namespace Client

/-- A reply is taken for what was put into it. -/
lemma interpret_reply (r : Request) (buffer : Bytes) {v : Broker.Served δ}
    (h : v.reply.bytes.length ≤ Wire.capacity) :
    interpret r buffer ⟨v.reply.bytes, v.descriptor⟩ =
      if v.entry.returnCode < 0 then .error ⟨-v.entry.returnCode⟩
      else accept r buffer (v.payload.getD []) v.descriptor := by
  rw [interpret, Reply.decode_bytes h]
  rfl

/-- An error number arrives as it was put into the reply. -/
lemma interpret_errno (r : Request) (buffer : Bytes) {v : Broker.Served δ}
    (h : v.reply.bytes.length ≤ Wire.capacity) {errno : Errno} (hn : 0 < errno.code)
    (hv : v.entry.returnCode = errno.returnCode) :
    interpret r buffer ⟨v.reply.bytes, v.descriptor⟩ = .error errno := by
  rw [interpret_reply r buffer h, hv, if_pos (Errno.returnCode_neg hn), Errno.returnCode,
    Int32.neg_neg]

end Client

/-- The length of a link's target is no error. -/
lemma link_returnCode {target : Bytes} (h : target.length ≤ linkRoom) :
    ¬ Int32.ofNat target.length < 0 := by
  have hl : target.length < 2 ^ 31 := by
    rw [linkRoom, Wire.capacity] at h
    omega
  rw [Int32.lt_iff_toInt_lt, Int32.toInt_ofNat_of_lt hl]
  exact Int.not_lt.mpr (Int.natCast_nonneg _)

namespace Approval

/-- Carrying out an approval fails if its call fails. -/
lemma perform_of_error {a : Approval} {s s' : σ} {errno : Errno}
    (h : k.answer a.call s = (.error errno, s')) : a.perform k s = (.error errno, s') := by
  cases a <;> simp only [call] at h <;> simp only [perform, h]

/-- A file that was opened is told of, whatever becomes of its name. -/
lemma perform_openFile {path : Path} {flags : Word} (unlink : Bool) {s s' : σ} {fd : δ}
    (h : k.answer (openFile path flags unlink).call s = (.ok fd, s')) :
    ∃ unlinkErrno, (openFile path flags unlink).perform k s =
      (.ok (.opened fd unlinkErrno), (openFile path flags unlink).after k s') := by
  simp only [call] at h
  cases unlink with
  | false => exact ⟨none, by simp only [perform, h, after, Bool.false_eq_true, if_false]⟩
  | true =>
    simp only [perform, h, if_true, unlinkOpened, after]
    rcases k.answer (.unlink path) s' with ⟨errno | done, s''⟩
    · exact ⟨some errno, rfl⟩
    · exact ⟨none, rfl⟩

end Approval

namespace Query

/-- What a call of a client gives, and the state that it leaves, if its frame and the reply to it
arrive whole. -/
def answered (c : Client) (g : Gate) (k : Kernel σ δ) (q : Query) (s : σ) :
    Except Errno (Client.Answer δ) × σ :=
  match c.prepare q.request with
  | .error errno => (.error errno, s)
  | .ok message =>
    let served := Broker.serve g k message.body s
    (Client.interpret q.request q.buffer ⟨served.1.reply.bytes, served.1.descriptor⟩, served.2)

/-- If the kernel's call succeeds, what is told of it is no error and is taken for the call's
result. -/
lemma accept_performed (hk : k.Fits) (q : Query) (unlink : Bool) {s s' : σ}
    {result : q.request.call.Result δ} (h : k.answer q.request.call s = (.ok result, s')) :
    let a := q.request.approval unlink
    ∃ outcome, a.perform k s = (.ok outcome, a.after k s') ∧ ¬ outcome.returnCode < 0 ∧
      Client.accept q.request q.buffer (outcome.payload.getD []) outcome.descriptor =
        .ok (q.result result) := by
  have hzero : ¬ (0 : Word) < 0 := by decide
  obtain ⟨request, buffer⟩ := q
  cases request with
  | access path mode =>
    have hc : k.answer (.access path mode) s = (.ok result, s') := h
    refine ⟨.done, ?_, hzero, rfl⟩
    simp only [Request.approval, Approval.perform, hc, Approval.after]
  | openFile path flags =>
    have hc : k.answer (.openFile path (flags ||| OpenFlags.closeOnExec) createdPermissions) s =
      (.ok result, s') := h
    rw [← OpenFlags.onWire_or] at hc
    obtain ⟨unlinkErrno, hp⟩ := Approval.perform_openFile unlink hc
    exact ⟨.opened result unlinkErrno, hp, hzero, rfl⟩
  | readlink path =>
    have hc : k.answer (.readlink path linkRoom) s = (.ok result, s') := h
    have hl := link_returnCode (hk path linkRoom s result (by rw [hc]))
    refine ⟨.link result, ?_, hl, rfl⟩
    simp only [Request.approval, Approval.perform, hc, Approval.after]
  | rename old new =>
    have hc : k.answer (.rename old new) s = (.ok result, s') := h
    refine ⟨.done, ?_, hzero, rfl⟩
    simp only [Request.approval, Approval.perform, hc, Approval.after]
  | stat path follow large =>
    have hc : k.answer (.stat path follow large) s = (.ok result, s') := h
    refine ⟨.status (Status.Image.bytes result), ?_, hzero,
      if_pos (Status.Image.bytes_length result)⟩
    simp only [Request.approval, Approval.perform, hc, Approval.after]

/-- If the kernel's call succeeds, its result arrives. -/
lemma interpret_performed (hk : k.Fits) (q : Query) (sent : Request) (unlink : Bool) {s s' : σ}
    {result : q.request.call.Result δ} (h : k.answer q.request.call s = (.ok result, s')) :
    let a := q.request.approval unlink
    let v := Broker.fulfil sent (a.perform k s).1
    (Client.interpret q.request q.buffer ⟨v.reply.bytes, v.descriptor⟩, (a.perform k s).2) =
      (.ok (q.result result), a.after k s') := by
  intro a v
  have hfit : v.reply.bytes.length ≤ Wire.capacity := Broker.fulfil_fits hk sent a s
  obtain ⟨outcome, hperform, hcode, haccept⟩ := accept_performed hk q unlink h
  have hv : v = ⟨Broker.allowedEntry sent outcome.returnCode, outcome.payload,
      outcome.descriptor⟩ := by
    simp only [v, a, hperform]
    rfl
  have hcode' : ¬ v.entry.returnCode < 0 := by
    rw [hv]
    exact hcode
  rw [Client.interpret_reply _ _ hfit, if_neg hcode', hv, haccept, hperform]

/-- What is told of an approval that was carried out is what the kernel answered. -/
lemma interpret_fulfil (hk : k.Fits) (hp : k.Positive) (q : Query) (sent : Request)
    (unlink : Bool) (s : σ) :
    let a := q.request.approval unlink
    let v := Broker.fulfil sent (a.perform k s).1
    (Client.interpret q.request q.buffer ⟨v.reply.bytes, v.descriptor⟩, (a.perform k s).2) =
      match k.answer q.request.call s with
      | (.error errno, s') => (.error errno, s')
      | (.ok result, s') => (.ok (q.result result), a.after k s') := by
  intro a v
  have hfit : v.reply.bytes.length ≤ Wire.capacity := Broker.fulfil_fits hk sent a s
  rcases h : k.answer q.request.call s with ⟨errno | result, s'⟩
  · have hn : 0 < errno.code := hp q.request.call s errno (by rw [h])
    rw [← q.request.approval_call unlink] at h
    have hperform : a.perform k s = (.error errno, s') := Approval.perform_of_error h
    have hv : v.entry.returnCode = errno.returnCode := by
      simp only [v, hperform]
      rfl
    rw [Client.interpret_errno _ _ hfit hn hv, hperform]
  · exact interpret_performed hk q sent unlink h

/-- A call that the client refuses itself is denied. -/
lemma answered_of_refuses {c : Client} {q : Query} (h : c.Refuses q.request) (s : σ) :
    q.answered c g k s = (.error c.gate.policy.deniedErrno, s) := by
  rw [answered, Client.prepare_of_refuses h]

lemma answered_of_long {c : Client} {q : Query} (h : ¬ c.Refuses q.request)
    (hl : Wire.capacity < q.request.wireSize) (s : σ) :
    q.answered c g k s = (.error .nameTooLong, s) := by
  rw [answered, Client.prepare_of_long h hl]

/-- A call that fits and that the client does not refuse itself is sent, and is denied if the gate
refuses it. -/
lemma answered_of_denied (hd : 0 < g.policy.deniedErrno.code) {c : Client} {q : Query}
    (h : ¬ c.Refuses q.request) (hl : q.request.wireSize ≤ Wire.capacity) {reason : Refusal}
    (he : g.evaluate q.request = .error reason) (s : σ) :
    q.answered c g k s = (.error g.policy.deniedErrno, s) := by
  have hb : q.request.onWire.bytes.length ≤ Wire.capacity :=
    q.request.onWire_bytes_length.trans_le hl
  have hr : Broker.RefusedFor g q.request.onWire.bytes reason :=
    .denied (Request.decode_bytes hb) ((g.evaluate_onWire q.request).trans he)
  have hcode := (Broker.refusalEntry_eq g q.request.onWire.bytes reason).2.2
  rw [answered, Client.prepare_of_fits h hb]
  dsimp only
  rw [Broker.serve_of_refused hr]
  exact congrArg (·, s) (Client.interpret_errno _ _ (Broker.refuse_fits _) hd hcode)

/-- A call that the client does not refuse itself gives what the reference gives. -/
lemma answered_of_asked (hk : k.Fits) (hp : k.Positive) (hd : 0 < g.policy.deniedErrno.code)
    {c : Client} {q : Query} (h : ¬ c.Refuses q.request) (s : σ) :
    q.answered c g k s = q.direct g k s := by
  by_cases hl : Wire.capacity < q.request.wireSize
  · rw [answered_of_long h hl, direct, if_pos hl]
  rw [direct, if_neg hl]
  cases he : g.evaluate q.request with
  | error reason => exact answered_of_denied hd h (by omega) he s
  | ok a =>
    have hb : q.request.onWire.bytes.length ≤ Wire.capacity :=
      q.request.onWire_bytes_length.trans_le (Nat.not_lt.mp hl)
    have he' : g.evaluate q.request.onWire = .ok a := (g.evaluate_onWire q.request).trans he
    obtain ⟨unlink, rfl, -⟩ := Gate.evaluate_approval he
    rw [answered, Client.prepare_of_fits h hb]
    dsimp only
    rw [Broker.serve_of_approved (Request.decode_bytes hb) he']
    exact interpret_fulfil hk hp q q.request.onWire unlink s

end Query

end FileBroker
