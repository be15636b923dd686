/-
Connections: how a broker serves one client after another request.

A connection goes in small steps, so that steps of several connections can be interleaved: it
receives a frame, serves it, sends the reply and records the entry. The reply goes out before the
entry is recorded. A header that announces too long a body is recorded without a reply and ends the
connection, since there is no way to tell where the next frame begins.

* `Connection.Phase`, `Connection`: where a connection stands.
* `Connection.Effect`: what a step lets the outside see.
* `Connection.takeExactly`, `Connection.nextFrame`: frames cut from the segments that arrive.
* `Connection.step?`: one step; there is none while the connection waits or after it has ended.
* `Connection.run`: all steps that are possible.
-/
import FileBroker.Broker
import FileBroker.Stream.Outlet

namespace FileBroker

open FileBroker.Stream (Chunk Outlet)

variable {σ δ : Type}

namespace Connection

/-- Where a connection stands. -/
inductive Phase (δ : Type) where
  | receiving
  | serving (body : Bytes)
  | replying (served : Broker.Served δ)
  | recording (entry : Audit.Entry) (last : Bool)
  | ended
  deriving DecidableEq, Repr

/-- What a step lets the outside see: chunks on their way to the client, or an entry in the audit
log. -/
inductive Effect (δ : Type) where
  | sent (chunks : List (Chunk δ))
  | recorded (entry : Audit.Entry)
  deriving DecidableEq, Repr

/-- The first `n` bytes of some segments and what is left of them, if there are as many. -/
def takeExactly : Nat → List Bytes → Option (Bytes × List Bytes)
  | 0, segments => some ([], segments)
  | _ + 1, [] => none
  | n + 1, segment :: rest =>
    match segment.drop (n + 1) with
    | [] => (takeExactly (n + 1 - segment.length) rest).map fun (bytes, rest') =>
      (segment ++ bytes, rest')
    | b :: left => some (segment.take (n + 1), (b :: left) :: rest)

/-- What the arrived segments begin with. -/
inductive Head where
  | incomplete
  | oversized (rest : List Bytes)
  | frame (body : Bytes) (rest : List Bytes)
  deriving DecidableEq, Repr

/-- The frame at the head of some segments. -/
def nextFrame (segments : List Bytes) : Head :=
  match takeExactly Wire.headerLength segments with
  | none => .incomplete
  | some (header, rest) =>
    match Wire.bodyLength header with
    | .error _ => .oversized rest
    | .ok length =>
      match takeExactly length rest with
      | none => .incomplete
      | some (body, rest') => .frame body rest'

/-- What is taken from some segments and what is left make up the segments. -/
theorem takeExactly_eq_some {n : Nat} {segments rest : List Bytes} {bytes : Bytes}
    (h : takeExactly n segments = some (bytes, rest)) :
    bytes.length = n ∧ bytes ++ rest.flatten = segments.flatten := by
  fun_induction takeExactly n segments generalizing bytes rest with
  | case1 segments => simp_all
  | case2 => simp at h
  | case3 n segment rest' hd ih =>
    simp only [Option.map_eq_some_iff, Prod.mk.injEq] at h
    obtain ⟨⟨more, rest''⟩, hm, rfl, rfl⟩ := h
    obtain ⟨hl, hf⟩ := ih hm
    have := List.drop_eq_nil_iff.mp hd
    refine ⟨?_, by simp [← hf]⟩
    simp only [List.length_append, hl]
    omega
  | case4 n segment rest' b left hd =>
    simp only [Option.some.injEq, Prod.mk.injEq] at h
    obtain ⟨rfl, rfl⟩ := h
    have := congrArg List.length hd
    simp only [List.length_drop, List.length_cons] at this
    simp only [← hd, List.length_take, List.flatten_cons, ← List.append_assoc,
      List.take_append_drop, and_true]
    omega

/-- What is left after the head, if it is complete. -/
def Head.rest? : Head → Option (List Bytes)
  | incomplete => none
  | oversized rest => some rest
  | frame _ rest => some rest

/-- A frame takes at least the four bytes of its header. -/
theorem nextFrame_rest_length {segments rest : List Bytes}
    (h : (nextFrame segments).rest? = some rest) :
    rest.flatten.length + Wire.headerLength ≤ segments.flatten.length := by
  unfold nextFrame at h
  split at h
  · simp [Head.rest?] at h
  · next header rest₁ h₁ =>
    obtain ⟨hl, hf⟩ := takeExactly_eq_some h₁
    have hs := congrArg List.length hf
    rw [List.length_append, hl] at hs
    split at h
    · simp only [Head.rest?, Option.some.injEq] at h
      rw [← h]
      omega
    · split at h
      · simp [Head.rest?] at h
      · next body rest₂ h₂ =>
        simp only [Head.rest?, Option.some.injEq] at h
        have hb := congrArg List.length (takeExactly_eq_some h₂).2
        rw [List.length_append, h] at hb
        omega

end Connection

/-- A connection: the segments that have arrived, whether the client sends no more, the way back
to it, the message that replies are built in, and the phase. -/
structure Connection (δ : Type) where
  segments : List Bytes
  closed : Bool
  outlet : Outlet
  scratch : Wire.Message
  phase : Connection.Phase δ
  deriving DecidableEq, Repr

namespace Connection

/-- A connection that has just been accepted. -/
def opened : Connection δ := ⟨[], false, {}, .empty, .receiving⟩

/-- The connection after another segment has arrived. -/
def arrive (c : Connection δ) (segment : Bytes) : Connection δ :=
  { c with segments := c.segments ++ [segment] }

/-- The connection after the client has said that it sends no more. -/
def close (c : Connection δ) : Connection δ := { c with closed := true }

/-- What a step gives: the connection and the kernel's state after it, and what could be seen. -/
structure Stepped (σ δ : Type) where
  connection : Connection δ
  system : σ
  effects : List (Effect δ)

/-- Receiving: a frame is cut off as soon as it is complete. -/
def receive (c : Connection δ) (s : σ) (g : Gate) : Option (Stepped σ δ) :=
  match nextFrame c.segments with
  | .frame body rest => some ⟨{ c with segments := rest, phase := .serving body }, s, []⟩
  | .oversized rest =>
    let phase := .recording (Broker.malformedEntry g) true
    some ⟨{ c with segments := rest, phase }, s, []⟩
  | .incomplete => if c.closed then some ⟨{ c with phase := .ended }, s, []⟩ else none

/-- Sending a reply. One that does not fit a message, or cannot be sent, ends the connection. -/
def reply (c : Connection δ) (served : Broker.Served δ) (s : σ) : Stepped σ δ :=
  match served.reply.encode c.scratch with
  | (.error _, scratch) => ⟨{ c with scratch, phase := .ended }, s, []⟩
  | (.ok (), scratch) =>
    match c.outlet.send .wouldBlock scratch.frame served.descriptor with
    | (.ok (), chunks, outlet) =>
      ⟨{ c with scratch, outlet, phase := .recording served.entry false }, s, [.sent chunks]⟩
    | (.error _, chunks, outlet) =>
      ⟨{ c with scratch, outlet, phase := .ended }, s, [.sent chunks]⟩

/-- Recording an entry, which fails if the log cannot be written. -/
def record (c : Connection δ) (entry : Audit.Entry) (last logs : Bool) (s : σ) : Stepped σ δ :=
  if logs then
    ⟨{ c with phase := if last then .ended else .receiving }, s, [.recorded entry]⟩
  else ⟨{ c with phase := .ended }, s, []⟩

/-- One step. The flag `logs` tells whether the audit log can be written. -/
def step? (g : Gate) (k : Kernel σ δ) (logs : Bool) (c : Connection δ) (s : σ) :
    Option (Stepped σ δ) :=
  match c.phase with
  | .receiving => c.receive s g
  | .serving body =>
    let (served, s') := Broker.serve g k body s
    some ⟨{ c with phase := .replying served }, s', []⟩
  | .replying served => some (c.reply served s)
  | .recording entry last => some (c.record entry last logs s)
  | .ended => none

/-- How far a phase is from the end of its request. -/
def Phase.rank : Phase δ → Nat
  | serving _ => 4
  | replying _ => 3
  | recording .. => 2
  | receiving => 1
  | ended => 0

/-- A bound on the steps that are left: those of the present phase, and one for each byte. -/
def remaining (c : Connection δ) : Nat := c.segments.flatten.length + c.phase.rank

/-- Every step brings the end nearer. -/
theorem remaining_step_lt {g : Gate} {k : Kernel σ δ} {logs : Bool} {c : Connection δ} {s : σ}
    {r : Stepped σ δ} (h : c.step? g k logs s = some r) :
    r.connection.remaining < c.remaining := by
  unfold step? at h
  split at h
  · next hp =>
    unfold receive at h
    split at h
    · next body rest hf =>
      have hr : rest.flatten.length + 4 ≤ c.segments.flatten.length :=
        nextFrame_rest_length (by simp [hf, Head.rest?])
      simp only [Option.some.injEq] at h
      simp only [← h, remaining, hp, Phase.rank]
      omega
    · next rest hf =>
      have hr : rest.flatten.length + 4 ≤ c.segments.flatten.length :=
        nextFrame_rest_length (by simp [hf, Head.rest?])
      simp only [Option.some.injEq] at h
      simp only [← h, remaining, hp, Phase.rank]
      omega
    · split at h
      · simp only [Option.some.injEq] at h
        simp [← h, remaining, hp, Phase.rank]
      · simp at h
  · next hp =>
    simp only [Option.some.injEq] at h
    simp [← h, remaining, hp, Phase.rank]
  · next hp =>
    simp only [Option.some.injEq] at h
    unfold reply at h
    split at h
    · simp [← h, remaining, hp, Phase.rank]
    · split at h <;> simp [← h, remaining, hp, Phase.rank]
  · next last hp =>
    simp only [Option.some.injEq] at h
    unfold record at h
    cases logs <;> cases last <;> simp [← h, remaining, hp, Phase.rank]
  · simp at h

/-- All steps that are possible, one after another. -/
def run (g : Gate) (k : Kernel σ δ) (logs : Bool) (c : Connection δ) (s : σ) : Stepped σ δ :=
  match h : c.step? g k logs s with
  | none => ⟨c, s, []⟩
  | some r =>
    have := remaining_step_lt h
    let final := r.connection.run g k logs r.system
    { final with effects := r.effects ++ final.effects }
termination_by c.remaining

end Connection

end FileBroker
