/-
Connections under any schedule.

The client sends when it likes and the broker steps when it likes. A schedule is a list of moves of
either side, and everything that can happen on a connection is one.

* `Connection.Move`, `Connection.move`, `Connection.play`: moves, and what some of them give.
* `Connection.received`, `Connection.ahead`: the bytes that arrive in some moves, and those that a
  connection has before it.
* `Connection.served?`: the body that a move serves.
* `Connection.Step`, `Connection.step_of_step?`: all that a step can do.
* `Connection.step?_eq_none`: a connection stands still where it waits or has ended.
* `Connection.move_traced`: nothing changes but that the calls of a move are written down.
* `Connection.play_of_serving`: how a body is answered in two steps.
-/
import FileBroker.Proofs.Replies

namespace FileBroker.Connection

open FileBroker.Stream (Chunk Outlet)

variable {σ δ : Type} {g : Gate} {k : Kernel σ δ}

/-! ### Moves -/

/-- What can happen on a connection: a segment arrives, the client says that it sends no more, or
the broker makes a step, for which the log can be written or not. -/
inductive Move where
  | arrive (segment : Bytes)
  | close
  | step (logs : Bool)
  deriving DecidableEq, Repr

/-- A connection that has just been accepted, with the writes that lie ahead. -/
def accepted (outlet : Outlet) : Connection δ := { opened with outlet }

/-- The connection after a move. Nothing arrives once the client has said that it sends no more,
and a step that is not possible changes nothing. -/
def move (g : Gate) (k : Kernel σ δ) (m : Move) (c : Connection δ) (s : σ) : Stepped σ δ :=
  match m with
  | .arrive segment => ⟨if c.closed then c else c.arrive segment, s, []⟩
  | .close => ⟨c.close, s, []⟩
  | .step logs => (c.step? g k logs s).getD ⟨c, s, []⟩

/-- What some moves give, one after another. -/
def play (g : Gate) (k : Kernel σ δ) : List Move → Connection δ → σ → Stepped σ δ
  | [], c, s => ⟨c, s, []⟩
  | m :: moves, c, s =>
    let moved := c.move g k m s
    let final := play g k moves moved.connection moved.system
    { final with effects := moved.effects ++ final.effects }

/-- The bytes that arrive in some moves, up to the end of what the client sends. -/
def received : List Move → Bytes
  | [] => []
  | .arrive segment :: moves => segment ++ received moves
  | .close :: _ => []
  | .step _ :: moves => received moves

/-- The bytes that a connection has before it, if some moves are still to come: those that have
arrived, and those that arrive unless the client sends no more. -/
def ahead (c : Connection δ) (moves : List Move) : Bytes :=
  c.segments.flatten ++ if c.closed then [] else received moves

lemma ahead_of_closed {c : Connection δ} (h : c.closed = true) (moves : List Move) :
    c.ahead moves = c.segments.flatten := by
  rw [ahead, if_pos h, List.append_nil]

lemma ahead_congr {c c' : Connection δ} (hs : c'.segments = c.segments)
    (hc : c'.closed = c.closed) (moves : List Move) : c'.ahead moves = c.ahead moves := by
  rw [ahead, ahead, hs, hc]

/-- A segment that arrives was before the connection already. -/
lemma ahead_arrive (c : Connection δ) (segment : Bytes) (moves : List Move) (s : σ) :
    (c.move g k (.arrive segment) s).connection.ahead moves =
      c.ahead (.arrive segment :: moves) := by
  rw [move]
  cases hc : c.closed with
  | true => simp only [if_true, ahead_of_closed hc]
  | false => simp [ahead, arrive, hc, received]

lemma phase_arrive (c : Connection δ) (segment : Bytes) (s : σ) :
    (c.move g k (.arrive segment) s).connection.phase = c.phase := by
  rw [move]
  split <;> rfl

/-- The end of what the client sends was before the connection already. -/
lemma ahead_close (c : Connection δ) (moves : List Move) :
    c.close.ahead moves = c.ahead (.close :: moves) := by
  rw [ahead_of_closed rfl, ahead, received, ite_self, List.append_nil]
  rfl

lemma received_steps (n : ℕ) : received (List.replicate n (.step true)) = [] := by
  induction n with
  | zero => rfl
  | succ n ih => exact ih

/-- The body that a move in a phase serves, if it serves one. -/
def served? (m : Move) (phase : Phase δ) : Option Bytes :=
  match m, phase with
  | .step _, .serving body => some body
  | _, _ => none

/-! ### Steps -/

/-- All that a step can do, by the phase in which it is made. -/
inductive Step (g : Gate) (k : Kernel σ δ) (logs : Bool) (c : Connection δ) (s : σ) :
    Stepped σ δ → Prop where
  | receives {body : Bytes} {rest : List Bytes} (hp : c.phase = .receiving)
      (hf : nextFrame c.segments = .frame body rest) :
      Step g k logs c s ⟨{ c with segments := rest, phase := .serving body }, s, []⟩
  | givesUp {rest : List Bytes} (hp : c.phase = .receiving)
      (hf : nextFrame c.segments = .oversized rest) :
      Step g k logs c s
        ⟨{ c with segments := rest, phase := .recording (Broker.malformedEntry g) true }, s, []⟩
  | ends (hp : c.phase = .receiving) (hf : nextFrame c.segments = .incomplete)
      (hc : c.closed = true) : Step g k logs c s ⟨{ c with phase := .ended }, s, []⟩
  | serves {body : Bytes} (hp : c.phase = .serving body) :
      Step g k logs c s ⟨{ c with phase := .replying (Broker.serve g k body s).1 },
        (Broker.serve g k body s).2, []⟩
  | replies {served : Broker.Served δ} (hp : c.phase = .replying served) :
      Step g k logs c s (c.reply served s)
  | records {entry : Audit.Entry} {last : Bool} (hp : c.phase = .recording entry last) :
      Step g k logs c s (c.record entry last logs s)

lemma step_of_step? {logs : Bool} {c : Connection δ} {s : σ} {r : Stepped σ δ}
    (h : c.step? g k logs s = some r) : Step g k logs c s r := by
  rw [step?] at h
  split at h
  · next hp =>
    rw [receive] at h
    split at h
    · next hf =>
      obtain rfl := Option.some.inj h
      exact .receives hp hf
    · next hf =>
      obtain rfl := Option.some.inj h
      exact .givesUp hp hf
    · next hf =>
      rw [Option.ite_none_right_eq_some] at h
      obtain ⟨hc, h⟩ := h
      obtain rfl := Option.some.inj h
      exact .ends hp hf hc
  · next hp =>
    obtain rfl := Option.some.inj h
    exact .serves hp
  · next hp =>
    obtain rfl := Option.some.inj h
    exact .replies hp
  · next hp =>
    obtain rfl := Option.some.inj h
    exact .records hp
  · cases h

/-- A connection stands still where it waits for the client to send more, and where it has
ended. -/
lemma step?_eq_none {logs : Bool} {c : Connection δ} {s : σ} (h : c.step? g k logs s = none) :
    c.phase = .ended ∨
      (c.phase = .receiving ∧ c.closed = false ∧ nextFrame c.segments = .incomplete) := by
  rw [step?] at h
  split at h
  · next hp =>
    rw [receive] at h
    split at h
    · cases h
    · cases h
    · next hf =>
      refine .inr ⟨hp, ?_, hf⟩
      cases hc : c.closed with
      | false => rfl
      | true =>
        rw [hc, if_pos rfl] at h
        cases h
  · cases h
  · cases h
  · cases h
  · next hp => exact .inl hp

/-- Sending a reply touches neither what has arrived nor the kernel's state. -/
lemma reply_frame (c : Connection δ) (served : Broker.Served δ) (s : σ) :
    let r := c.reply served s
    r.system = s ∧ r.connection.segments = c.segments ∧ r.connection.closed = c.closed ∧
      (r.connection.phase = .ended ∨ r.connection.phase = .recording served.entry false) := by
  rw [reply]
  split
  · exact ⟨rfl, rfl, rfl, .inl rfl⟩
  · split
    · exact ⟨rfl, rfl, rfl, .inr rfl⟩
    · exact ⟨rfl, rfl, rfl, .inl rfl⟩

/-- Recording an entry touches neither what has arrived nor the kernel's state. -/
lemma record_frame (c : Connection δ) (entry : Audit.Entry) (last logs : Bool) (s : σ) :
    let r := c.record entry last logs s
    r.system = s ∧ r.connection.segments = c.segments ∧ r.connection.closed = c.closed ∧
      (r.connection.phase = .ended ∨ (last = false ∧ r.connection.phase = .receiving)) := by
  cases logs with
  | false => exact ⟨rfl, rfl, rfl, .inl rfl⟩
  | true =>
    cases last with
    | false => exact ⟨rfl, rfl, rfl, .inr ⟨rfl, rfl⟩⟩
    | true => exact ⟨rfl, rfl, rfl, .inl rfl⟩

/-- The calls that a move makes: those for the body that it serves. -/
def movedCalls (g : Gate) (k : Kernel σ δ) (m : Move) (c : Connection δ) (s : σ) :
    List (Answered δ) :=
  match served? m c.phase with
  | some body => Broker.calls g k body s
  | none => []

/-- Writing down the calls changes nothing else. -/
lemma move_traced (m : Move) (c : Connection δ) (s : σ) (log : List (Answered δ)) :
    let r := c.move g k m s
    c.move g k.traced m (s, log) =
      ⟨r.connection, (r.system, log ++ movedCalls g k m c s), r.effects⟩ := by
  cases m with
  | arrive segment =>
    simp only [movedCalls, served?, List.append_nil]
    rfl
  | close =>
    simp only [movedCalls, served?, List.append_nil]
    rfl
  | step logs =>
    cases hp : c.phase with
    | receiving =>
      simp only [movedCalls, served?, move, step?, hp, receive, List.append_nil]
      cases nextFrame c.segments with
      | frame body rest => rfl
      | oversized rest => rfl
      | incomplete => cases c.closed <;> rfl
    | serving body =>
      simp only [movedCalls, served?, move, step?, hp, Broker.serve_traced, Option.getD_some]
    | replying served =>
      simp only [movedCalls, served?, move, step?, hp, reply, List.append_nil, Option.getD_some]
      rcases served.reply.encode c.scratch with ⟨fault | done, scratch⟩
      · rfl
      · simp only
        rcases c.outlet.send .wouldBlock scratch.frame served.descriptor with
          ⟨fault | done, chunks, outlet⟩ <;> rfl
    | recording entry last =>
      simp only [movedCalls, served?, move, step?, hp, record, List.append_nil, Option.getD_some]
      cases logs <;> rfl
    | ended =>
      simp only [movedCalls, served?, move, step?, hp, List.append_nil, Option.getD_none]

/-- Two steps serve a body and send what serving it gives. -/
lemma play_of_serving {c : Connection δ} {body : Bytes} (hp : c.phase = .serving body)
    (logs logs' : Bool) (s : σ) :
    let served := Broker.serve g k body s
    play g k [.step logs, .step logs'] c s =
      { c with phase := .replying served.1 }.reply served.1 served.2 := by
  simp only [play, move, step?, hp, Option.getD_some, List.append_nil, List.nil_append]

end FileBroker.Connection
