/-
Brokers with many connections.

Any number of clients are connected, and one move is made after another, on any of the connections.
Every call of the kernel in such a run is made for a frame that some client has sent, and is one
that the table of rules allows for it.

What a connection may still serve is followed through the run: the bytes before it, unless it has
given up. A move that serves a body takes its frame from them.

* `Broker.System`, `Broker.Turn`, `Broker.Event`: a running broker, the moves on its connections,
  and what happens in them.
* `Broker.System.run`: a run, with its events.
* `Broker.System.run_plain`: a run goes the same way whether calls are written down or not.
* `Connection.due`: the bytes of which a connection may still serve frames.
* `Broker.System.run_authorised`: the calls of a run are allowed, and belong to frames that came.
-/
import FileBroker.Proofs.Schedules

namespace FileBroker

open FileBroker.Connection (Effect Move Phase Step accepted frame nextFrame received served?)
open FileBroker.Stream (Outlet)

variable {σ δ : Type} {g : Gate} {k : Kernel σ δ}

/-! ### What a connection may still serve -/

namespace Connection

/-- The bytes of which a connection may still serve frames, if some moves are still to come. -/
def due (c : Connection δ) (moves : List Move) : Bytes :=
  match c.phase with
  | .receiving => c.ahead moves
  | .serving body => frame body ++ c.ahead moves
  | .replying _ => c.ahead moves
  | .recording _ last => if last then [] else c.ahead moves
  | .ended => []

lemma due_accepted (outlet : Outlet) (moves : List Move) :
    (accepted outlet : Connection δ).due moves = received moves := rfl

/-- A step takes the frame of the body that it serves from what is due. -/
lemma due_step {logs : Bool} {c : Connection δ} {s : σ} {r : Stepped σ δ}
    (hr : Step g k logs c s r) (moves : List Move) :
    (served? (.step logs) c.phase).toList.flatMap frame ++ r.connection.due moves <+:
      c.due moves := by
  cases hr with
  | receives hp hf =>
    simp only [due, hp, served?, ahead, (flatten_of_nextFrame hf).1, Option.toList_none,
      List.flatMap_nil, List.nil_append, List.append_assoc]
    exact List.prefix_rfl
  | givesUp hp hf =>
    simp only [due, hp, served?]
    exact List.nil_prefix
  | ends hp hf hc =>
    simp only [due, hp, served?]
    exact List.nil_prefix
  | serves hp =>
    simp only [due, hp, served?, Option.toList_some, List.flatMap_singleton]
    exact List.prefix_rfl
  | @replies served hp =>
    obtain ⟨-, hs, hc, he | he⟩ := reply_frame c served s
    · simp only [due, hp, he, served?]
      exact List.nil_prefix
    · simp only [due, hp, he, served?, ahead_congr hs hc]
      exact List.prefix_rfl
  | @records entry last hp =>
    obtain ⟨-, hs, hc, he | ⟨rfl, he⟩⟩ := record_frame c entry last logs s
    · simp only [due, hp, he, served?]
      exact List.nil_prefix
    · simp only [due, hp, he, served?, ahead_congr hs hc]
      exact List.prefix_rfl

/-- A move takes the frame of the body that it serves from what is due if it is still to come. -/
lemma due_move (m : Move) (c : Connection δ) (s : σ) (moves : List Move) :
    (served? m c.phase).toList.flatMap frame ++ (c.move g k m s).connection.due moves <+:
      c.due (m :: moves) := by
  cases m with
  | arrive segment =>
    simp only [due, ahead_arrive, phase_arrive, served?]
    exact List.prefix_rfl
  | close =>
    simp only [due, move, ahead_close, served?]
    exact List.prefix_rfl
  | step logs =>
    rw [move]
    cases hr : c.step? g k logs s with
    | none =>
      have hn : served? (.step logs) c.phase = none := by
        obtain hp | ⟨hp, -⟩ := step?_eq_none hr
        · rw [hp]
          rfl
        · rw [hp]
          rfl
      rw [hn]
      exact List.prefix_rfl
    | some r => exact due_step (step_of_step? hr) moves

end Connection

/-! ### Runs -/

namespace Broker

/-- A running broker: its connections, and the state of the kernel. -/
structure System (σ δ : Type) where
  connections : ℕ → Connection δ
  state : σ

/-- A move on one of the connections. -/
structure Turn where
  index : ℕ
  move : Move
  deriving DecidableEq, Repr

/-- What happens in a turn: the phase of the connection and the state of the kernel before it, the
state after it, and what it lets the outside see. -/
structure Event (σ δ : Type) where
  turn : Turn
  phase : Phase δ
  before : σ
  after : σ
  effects : List (Effect δ)

namespace Event

/-- The body that is served in an event, if one is. -/
def body? (e : Event σ δ) : Option Bytes := served? e.turn.move e.phase

/-- The calls that are made in an event. -/
def calls (e : Event (σ × List (Answered δ)) δ) : List (Answered δ) :=
  e.after.2.drop e.before.2.length

/-- The calls of an event are allowed for the body that is served in it; where none is, there are
none. -/
def Allowed (g : Gate) (e : Event (σ × List (Answered δ)) δ) : Prop :=
  match e.body? with
  | some body => Authorised g body e.calls
  | none => e.calls = []

end Event

/-- The moves on one connection. -/
def movesOn (i : ℕ) (turns : List Turn) : List Move :=
  (turns.filter (·.index = i)).map (·.move)

/-- The bodies that are served on one connection. -/
def servedOn (i : ℕ) (events : List (Event σ δ)) : List Bytes :=
  (events.filter (·.turn.index = i)).filterMap (·.body?)

lemma movesOn_cons_self (t : Turn) (turns : List Turn) :
    movesOn t.index (t :: turns) = t.move :: movesOn t.index turns := by
  simp [movesOn]

lemma movesOn_cons_of_ne {t : Turn} {i : ℕ} (h : t.index ≠ i) (turns : List Turn) :
    movesOn i (t :: turns) = movesOn i turns := by
  simp [movesOn, h]

lemma servedOn_cons_self (e : Event σ δ) (events : List (Event σ δ)) :
    servedOn e.turn.index (e :: events) = e.body?.toList ++ servedOn e.turn.index events := by
  cases hb : e.body? <;> simp [servedOn, hb]

lemma servedOn_cons_of_ne {e : Event σ δ} {i : ℕ} (h : e.turn.index ≠ i)
    (events : List (Event σ δ)) : servedOn i (e :: events) = servedOn i events := by
  simp [servedOn, h]

namespace System

/-- A broker whose connections have just been accepted. A connection that is accepted later is one
whose moves come later. -/
def idle (outlets : ℕ → Outlet) (s : σ) : System σ δ := ⟨fun i => accepted (outlets i), s⟩

/-- The broker after a turn, and what happens in it. -/
def act (g : Gate) (k : Kernel σ δ) (t : Turn) (y : System σ δ) : System σ δ × Event σ δ :=
  let c := y.connections t.index
  let r := c.move g k t.move y.state
  (⟨Function.update y.connections t.index r.connection, r.system⟩,
    ⟨t, c.phase, y.state, r.system, r.effects⟩)

/-- The broker after some turns, and what happens in them. -/
def run (g : Gate) (k : Kernel σ δ) : List Turn → System σ δ → System σ δ × List (Event σ δ)
  | [], y => (y, [])
  | t :: turns, y =>
    let acted := y.act g k t
    let final := run g k turns acted.1
    (final.1, acted.2 :: final.2)

/-- The broker without the calls that were written down. -/
def plain (y : System (σ × List (Answered δ)) δ) : System σ δ := ⟨y.connections, y.state.1⟩

lemma act_plain (g : Gate) (k : Kernel σ δ) (t : Turn) (y : System (σ × List (Answered δ)) δ) :
    (y.act g k.traced t).1.plain = (y.plain.act g k t).1 := by
  obtain ⟨connections, s, log⟩ := y
  simp only [act, plain, Connection.move_traced]

/-- Writing down the calls of a run changes nothing else. -/
lemma run_plain (g : Gate) (k : Kernel σ δ) (turns : List Turn)
    (y : System (σ × List (Answered δ)) δ) :
    (y.run g k.traced turns).1.plain = (y.plain.run g k turns).1 := by
  induction turns generalizing y with
  | nil => rfl
  | cons t turns ih =>
    rw [run, run, ih, act_plain]

/-- A turn makes the calls that are allowed for the body that it serves. -/
lemma act_allowed (g : Gate) (k : Kernel σ δ) (t : Turn)
    (y : System (σ × List (Answered δ)) δ) :
    let acted := y.act g k.traced t
    acted.1.state.2 = y.state.2 ++ acted.2.calls ∧ acted.2.Allowed g := by
  obtain ⟨connections, s, log⟩ := y
  simp only [act, Event.Allowed, Event.body?, Event.calls, Connection.move_traced, List.drop_left,
    true_and, Connection.movedCalls]
  cases served? t.move (connections t.index).phase with
  | none => rfl
  | some body => exact serve_authorised g k body s

/-- The calls of a run are those of its events, and each event makes the calls that are allowed for
the body that is served in it. -/
lemma run_allowed (g : Gate) (k : Kernel σ δ) (turns : List Turn)
    (y : System (σ × List (Answered δ)) δ) :
    let final := y.run g k.traced turns
    final.1.state.2 = y.state.2 ++ final.2.flatMap (·.calls) ∧ ∀ e ∈ final.2, e.Allowed g := by
  induction turns generalizing y with
  | nil => exact ⟨(List.append_nil _).symm, List.forall_mem_nil _⟩
  | cons t turns ih =>
    obtain ⟨hc, ha⟩ := y.act_allowed g k t
    obtain ⟨hcs, has⟩ := ih (y.act g k.traced t).1
    refine ⟨?_, List.forall_mem_cons.mpr ⟨ha, has⟩⟩
    rw [run, List.flatMap_cons, ← List.append_assoc, ← hc]
    exact hcs

/-- The frames of the bodies that a run serves on a connection are taken from what was due. -/
lemma run_due (g : Gate) (k : Kernel σ δ) (turns : List Turn) (y : System σ δ) (i : ℕ) :
    (servedOn i (y.run g k turns).2).flatMap frame <+:
      (y.connections i).due (movesOn i turns) := by
  induction turns generalizing y with
  | nil => exact List.nil_prefix
  | cons t turns ih =>
    have hrest := ih (y.act g k t).1
    by_cases hi : t.index = i
    · subst hi
      have hcon : (y.act g k t).1.connections t.index =
          ((y.connections t.index).move g k t.move y.state).connection := Function.update_self ..
      have hserved : servedOn t.index (y.run g k (t :: turns)).2 =
          (served? t.move (y.connections t.index).phase).toList ++
            servedOn t.index ((y.act g k t).1.run g k turns).2 :=
        servedOn_cons_self (y.act g k t).2 _
      rw [hserved, movesOn_cons_self, List.flatMap_append]
      rw [hcon] at hrest
      exact ((List.prefix_append_right_inj _).mpr hrest).trans
        (Connection.due_move t.move (y.connections t.index) y.state (movesOn t.index turns))
    · have hcon : (y.act g k t).1.connections i = y.connections i :=
        Function.update_of_ne (Ne.symm hi) ..
      have hserved : servedOn i (y.run g k (t :: turns)).2 =
          servedOn i ((y.act g k t).1.run g k turns).2 :=
        servedOn_cons_of_ne (e := (y.act g k t).2) hi _
      rw [hserved, movesOn_cons_of_ne hi]
      rw [hcon] at hrest
      exact hrest

/-- **Every call is authorised.** In a run of any number of connections, whatever their clients
send and however the kernel answers, each call is made while a body is served and is one that the
table of rules allows for its request: none for a body that is refused. The served bodies are those
of the frames that came on their connection, one after another from the first. (The calls are those
that are written down in a run, which otherwise goes as it does without that.) -/
theorem run_authorised (g : Gate) (k : Kernel σ δ) (outlets : ℕ → Outlet) (s : σ)
    (turns : List Turn) :
    let final := (idle outlets (s, [])).run g k.traced turns
    final.1.plain = ((idle outlets s).run g k turns).1 ∧
      final.1.state.2 = final.2.flatMap (·.calls) ∧
      (∀ e ∈ final.2, e.Allowed g) ∧
      ∀ i, (servedOn i final.2).flatMap frame <+: received (movesOn i turns) := by
  obtain ⟨hc, ha⟩ := run_allowed g k turns (idle outlets (s, []))
  refine ⟨run_plain g k turns (idle outlets (s, [])), hc, ha, fun i => ?_⟩
  rw [← Connection.due_accepted (δ := δ) (outlets i)]
  exact run_due g k.traced turns (idle outlets (s, [])) i

end System

end Broker

end FileBroker
