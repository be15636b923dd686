/-
What one connection goes through among others.

Seen from one connection, a run of the broker is its own moves in order, and between them the state
of the kernel may change in any way. How such a course ends is told by what has arrived: the
connection is still alive, or it has given up after a header that announced too long a body, or its
client has sent no more, or a reply could not be delivered. In each case it is known which bodies
have been served and which of their entries are in the log.

* `Broker.Course`, `Broker.System.run_course`: what one connection goes through in a run.
* `Connection.toCome?`, `Connection.awaiting`: the bodies that are still to be served, and the entry
  that is still to be recorded.
* `Broker.Event.Undelivered`: a reply that did not go out whole.
* `Broker.Turned`, `Broker.turned_move`: all that a move can do to what is still to come.
* `Broker.Fate`, `Broker.Course.fate`: how a course ends.
-/
import FileBroker.Proofs.Requests
import FileBroker.Proofs.Systems
import FileBroker.Proofs.Transcripts

namespace FileBroker

open FileBroker.Connection (Effect Ending Move Phase Step Stepped accepted cut frame received
  served?)
open FileBroker.Stream (Outlet bytesOf descriptorsOf)

variable {σ δ : Type} {g : Gate} {k : Kernel σ δ}

/-! ### One connection in a run -/

namespace Broker

/-- What one connection goes through: its moves one after another, each on the state that the kernel
has come to meanwhile, and what happens in them. -/
inductive Course (g : Gate) (k : Kernel σ δ) (i : ℕ) :
    Connection δ → List Move → List (Event σ δ) → Connection δ → Prop where
  | nil (c : Connection δ) : Course g k i c [] [] c
  | cons {c c' : Connection δ} {m : Move} {moves : List Move} {events : List (Event σ δ)} (s : σ)
      (h : Course g k i (c.move g k m s).connection moves events c') :
      Course g k i c (m :: moves)
        (⟨⟨i, m⟩, c.phase, s, (c.move g k m s).system, (c.move g k m s).effects⟩ :: events) c'

/-- The events on one connection. -/
def eventsOn (i : ℕ) (events : List (Event σ δ)) : List (Event σ δ) :=
  events.filter (·.turn.index = i)

lemma eventsOn_cons_self (e : Event σ δ) (events : List (Event σ δ)) :
    eventsOn e.turn.index (e :: events) = e :: eventsOn e.turn.index events := by
  simp [eventsOn]

lemma eventsOn_cons_of_ne {e : Event σ δ} {i : ℕ} (h : e.turn.index ≠ i)
    (events : List (Event σ δ)) : eventsOn i (e :: events) = eventsOn i events := by
  simp [eventsOn, h]

/-- In a run each connection goes through a course of its own moves. -/
lemma System.run_course (turns : List Turn) (y : System σ δ) (i : ℕ) :
    Course g k i (y.connections i) (movesOn i turns) (eventsOn i (y.run g k turns).2)
      ((y.run g k turns).1.connections i) := by
  induction turns generalizing y with
  | nil => exact .nil _
  | cons t turns ih =>
    have hrest := ih (y.act g k t).1
    by_cases hi : t.index = i
    · subst hi
      have hcon : (y.act g k t).1.connections t.index =
          ((y.connections t.index).move g k t.move y.state).connection := Function.update_self ..
      rw [hcon] at hrest
      have hevents : eventsOn t.index (y.run g k (t :: turns)).2 =
          (y.act g k t).2 :: eventsOn t.index ((y.act g k t).1.run g k turns).2 :=
        eventsOn_cons_self (y.act g k t).2 _
      rw [hevents, movesOn_cons_self]
      exact .cons y.state hrest
    · have hcon : (y.act g k t).1.connections i = y.connections i :=
        Function.update_of_ne (Ne.symm hi) ..
      rw [hcon] at hrest
      have hevents : eventsOn i (y.run g k (t :: turns)).2 =
          eventsOn i ((y.act g k t).1.run g k turns).2 :=
        eventsOn_cons_of_ne (e := (y.act g k t).2) hi _
      rw [hevents, movesOn_cons_of_ne hi]
      exact hrest

end Broker

/-! ### What is still to come -/

namespace Connection

/-- The bodies that are still to be served on a connection, if some moves are still to come, and why
there are no more. A connection that has ended, or that ends once it has recorded an entry, serves
nothing any more. -/
def toCome? (c : Connection δ) (moves : List Move) : Option (List Bytes × Ending) :=
  let rest := cut (c.ahead moves)
  match c.phase with
  | .receiving => some rest
  | .serving body => some (body :: rest.1, rest.2)
  | .replying _ => some rest
  | .recording _ last => if last then none else some rest
  | .ended => none

/-- The entry that is made but not yet recorded, if there is one. -/
def awaiting (c : Connection δ) : List Audit.Entry :=
  match c.phase with
  | .replying served => [served.entry]
  | .recording entry _ => [entry]
  | _ => []

/-- The connection has ended, or it ends once it has recorded an entry. -/
def Final (c : Connection δ) : Prop :=
  c.phase = .ended ∨ ∃ entry, c.phase = .recording entry true

/-- The entries that are recorded in some effects. -/
def entriesIn (effects : List (Effect δ)) : List Audit.Entry :=
  effects.filterMap fun
    | .sent _ => none
    | .recorded entry => some entry

/-- The entries that are recorded at the end of the frames: a header that announces too long a body
is recorded. -/
def Ending.entries (g : Gate) : Ending → List Audit.Entry
  | .incomplete => []
  | .oversized => [Broker.malformedEntry g]

lemma toCome?_accepted (outlet : Outlet) (moves : List Move) :
    (accepted outlet : Connection δ).toCome? moves = some (cut (received moves)) := rfl

lemma Final.toCome?_eq_none {c : Connection δ} (h : c.Final) (moves : List Move) :
    c.toCome? moves = none := by
  obtain hp | ⟨entry, hp⟩ := h
  · simp only [toCome?, hp]
  · simp only [toCome?, hp, if_true]

end Connection

/-! ### What is sent and what is recorded -/

namespace Stream

/-- Where sending fails, not all bytes have gone out. -/
lemma transmit_of_error {again errno : Errno} {attempts : List Attempt} {bytes : Bytes}
    {fd : Option δ} (h : (transmit again attempts bytes fd).result = .error errno) :
    bytesOf (transmit again attempts bytes fd).chunks ≠ bytes := by
  fun_induction transmit again attempts bytes fd with
  | case1 => cases h
  | case2 => cases h
  | case3 more rest bytes fd hb sent ih =>
    intro hall
    have hsplit : bytes.take (more + 1) ++ bytesOf sent.chunks =
        bytes.take (more + 1) ++ bytes.drop (more + 1) := by
      rw [List.take_append_drop]
      exact hall
    exact ih h (List.append_cancel_left hsplit)
  | case4 => cases h
  | case5 rest bytes fd hb ih => exact ih h
  | case6 errno rest bytes fd hb he => exact Ne.symm hb

/-- Sending succeeds just where all bytes have gone out. -/
lemma Outlet.send_whole_iff {o o' : Outlet} {again : Errno} {bytes : Bytes} {fd : Option δ}
    {result : Except Errno Unit} {chunks : List (Chunk δ)} (hb : bytes ≠ [])
    (h : o.send again bytes fd = (result, chunks, o')) :
    bytesOf chunks = bytes ↔ result = .ok () := by
  rw [send] at h
  split at h
  · cases h
    exact ⟨fun hnone => absurd hnone.symm hb, fun hok => by cases hok⟩
  · obtain ⟨-, hall, -, -⟩ := transmit_spec again o.attempts bytes fd
    cases h
    refine ⟨fun hwhole => ?_, hall⟩
    cases hresult : (transmit again o.attempts bytes fd).result with
    | ok done => rfl
    | error errno => exact absurd hwhole (transmit_of_error hresult)

end Stream

namespace Broker

namespace Event

/-- The entries that are recorded in an event. -/
def recorded (e : Event σ δ) : List Audit.Entry := Connection.entriesIn e.effects

/-- The entry that is made in an event for the body that is served in it. -/
def entry? (g : Gate) (k : Kernel σ δ) (e : Event σ δ) : Option Audit.Entry :=
  e.body?.map fun body => (serve g k body e.before).1.entry

/-- In the event a reply was to be sent, and it did not go out whole. -/
def Undelivered (e : Event σ δ) (v : Served δ) : Prop :=
  e.phase = .replying v ∧ (∃ logs, e.turn.move = .step logs) ∧
    ∀ descriptors, seen e.effects ≠ [.reply (frame v.reply.bytes) descriptors]

/-- If a reply was to be sent in the event, it went out whole. -/
def Delivered (e : Event σ δ) : Prop := ∀ v, ¬ e.Undelivered v

lemma delivered_of_phase {e : Event σ δ} (h : ∀ v, e.phase ≠ .replying v) : e.Delivered :=
  fun v hv => h v hv.1

end Event

/-- The bodies that are served in some events. -/
def served (events : List (Event σ δ)) : List Bytes := events.filterMap Event.body?

/-- The entries that are made in some events for the bodies that are served. -/
def entries (g : Gate) (k : Kernel σ δ) (events : List (Event σ δ)) : List Audit.Entry :=
  events.filterMap (Event.entry? g k)

/-- The entries that are recorded in some events: the log, if it was empty before. -/
def logged (events : List (Event σ δ)) : List Audit.Entry := events.flatMap Event.recorded

/-- The entries that are made for the bodies that are served on a connection. -/
def entriesOn (g : Gate) (k : Kernel σ δ) (i : ℕ) (events : List (Event σ δ)) :
    List Audit.Entry :=
  entries g k (eventsOn i events)

/-- The entries that are recorded on a connection. -/
def loggedOn (i : ℕ) (events : List (Event σ δ)) : List Audit.Entry :=
  logged (eventsOn i events)

lemma served_cons (e : Event σ δ) (events : List (Event σ δ)) :
    served (e :: events) = e.body?.toList ++ served events := by
  cases he : e.body? <;> simp [served, he]

lemma entries_cons (e : Event σ δ) (events : List (Event σ δ)) :
    entries g k (e :: events) = (e.entry? g k).toList ++ entries g k events := by
  cases he : e.entry? g k <;> simp [entries, he]

lemma logged_cons (e : Event σ δ) (events : List (Event σ δ)) :
    logged (e :: events) = e.recorded ++ logged events := List.flatMap_cons

/-- No entry is made where nothing is served. -/
lemma entries_eq_nil {events : List (Event σ δ)} (h : served events = []) :
    entries g k events = [] := by
  rw [served, List.filterMap_eq_nil_iff] at h
  rw [entries, List.filterMap_eq_nil_iff]
  intro e he
  rw [Event.entry?, h e he]
  rfl

/-- How the course of a connection ends on which some bodies were to be served, if some entries have
been made in it. -/
inductive Fate (g : Gate) (bodies : List Bytes) (ending : Ending) (made : List Audit.Entry)
    (events : List (Event σ δ)) (c : Connection δ) : Prop where
  | alive {left : List Bytes} (hd : ∀ e ∈ events, e.Delivered)
      (ht : c.toCome? [] = some (left, ending)) (hb : bodies = served events ++ left)
      (hr : made = logged events ++ c.awaiting)
  | gaveUp (hd : ∀ e ∈ events, e.Delivered) (he : ending = .oversized) (hp : c.Final)
      (hb : bodies = served events)
      (hr : made ++ [malformedEntry g] = logged events ++ c.awaiting)
  | finished (hd : ∀ e ∈ events, e.Delivered) (he : ending = .incomplete) (hc : c.closed = true)
      (hp : c.phase = .ended) (hb : bodies = served events) (hr : made = logged events)
  | cutOff {e : Event σ δ} {v : Served δ} (he : e ∈ events) (hv : e.Undelivered v)
      (hp : c.phase = .ended) (hb : served events <+: bodies)
      (hr : made = logged events ++ [v.entry])

/-- The fate of a connection after one more event at the front. -/
lemma Fate.precede {bodies more : List Bytes} {ending : Ending} {made made' : List Audit.Entry}
    {e : Event σ δ} {events : List (Event σ δ)} {c : Connection δ}
    (h : Fate g more ending made' events c) (he : e.Delivered)
    (hb : bodies = e.body?.toList ++ more) (hr : made = e.recorded ++ made') :
    Fate g bodies ending made (e :: events) c := by
  have hserved := served_cons e events
  have hlogged := logged_cons e events
  subst hb hr
  cases h with
  | alive hd ht hb hr =>
    refine .alive (List.forall_mem_cons.mpr ⟨he, hd⟩) ht ?_ ?_
    · rw [hserved, hb, List.append_assoc]
    · rw [hlogged, hr, List.append_assoc]
  | gaveUp hd hend hp hb hr =>
    refine .gaveUp (List.forall_mem_cons.mpr ⟨he, hd⟩) hend hp ?_ ?_
    · rw [hserved, hb]
    · rw [hlogged, List.append_assoc, hr, List.append_assoc]
  | finished hd hend hc hp hb hr =>
    refine .finished (List.forall_mem_cons.mpr ⟨he, hd⟩) hend hc hp ?_ ?_
    · rw [hserved, hb]
    · rw [hlogged, hr]
  | cutOff hmem hv hp hb hr =>
    refine .cutOff (List.mem_cons_of_mem _ hmem) hv hp ?_ ?_
    · rw [hserved]
      exact (List.prefix_append_right_inj _).mpr hb
    · rw [hlogged, hr, List.append_assoc]

end Broker

/-! ### One move -/

namespace Connection

variable {c : Connection δ} {m : Move} {s : σ}

/-- A step for which the log can be written. -/
lemma Move.logs_eq_true {logs : Bool} (h : Move.step logs ≠ .step false) : logs = true := by
  cases logs with
  | false => exact absurd rfl h
  | true => rfl

/-- Where no step can be made, a step would serve nothing and reply to nothing. -/
lemma idle_of_still {logs : Bool} (h : c.step? g k logs s = none) :
    served? (.step logs) c.phase = none ∧ ∀ v, c.phase ≠ .replying v := by
  obtain hp | ⟨hp, -⟩ := step?_eq_none h
  · rw [hp]
    exact ⟨rfl, nofun⟩
  · rw [hp]
    exact ⟨rfl, nofun⟩

/-- A client that sends no more has said so before the move, or says so in it. -/
lemma closed_move_iff (m : Move) (c : Connection δ) (s : σ) :
    (c.move g k m s).connection.closed = true ↔ c.closed = true ∨ m = .close := by
  cases m with
  | arrive segment =>
    rw [move]
    split <;> simp_all [arrive]
  | close => simp [move, close]
  | step logs =>
    rw [move]
    cases hr : c.step? g k logs s with
    | none => simp
    | some r =>
      have hclosed : r.connection.closed = c.closed := by
        cases step_of_step? hr with
        | @replies served hp => exact (reply_frame c served s).2.2.1
        | @records entry last hp => exact (record_frame c entry last logs s).2.2.1
        | _ => rfl
      simp [hclosed]

/-- A connection that is final stays so, and serves nothing. -/
lemma move_of_final (hm : m ≠ .step false) (hc : c.Final) (s : σ) :
    let r := c.move g k m s
    r.connection.Final ∧ served? m c.phase = none ∧
      entriesIn r.effects ++ r.connection.awaiting = c.awaiting ∧
      (c.phase = .ended → r.connection.phase = .ended) := by
  have hstays (c' : Connection δ) (hp : c'.phase = c.phase) :
      c'.Final ∧ c'.awaiting = c.awaiting ∧ (c.phase = .ended → c'.phase = .ended) := by
    simp only [Final, awaiting, hp]
    exact ⟨hc, trivial, id⟩
  cases m with
  | arrive segment =>
    obtain ⟨hf, ha, he⟩ := hstays _ (phase_arrive (g := g) (k := k) c segment s)
    exact ⟨hf, rfl, ha, he⟩
  | close =>
    obtain ⟨hf, ha, he⟩ := hstays c.close rfl
    exact ⟨hf, rfl, ha, he⟩
  | step logs =>
    obtain rfl := Move.logs_eq_true hm
    obtain hp | ⟨entry, hp⟩ := hc
    · have hstill : c.step? g k true s = none := by simp only [step?, hp]
      obtain ⟨hf, ha, he⟩ := hstays c rfl
      rw [move, hstill]
      exact ⟨hf, by rw [hp]; rfl, ha, he⟩
    · have hrecords : c.step? g k true s = some (c.record entry true true s) := by
        simp only [step?, hp]
      rw [move, hrecords]
      refine ⟨.inl rfl, by rw [hp]; rfl, ?_, fun _ => rfl⟩
      simp only [awaiting, hp]
      rfl

/-- A reply goes out whole, or the connection ends. -/
lemma reply_cases (c : Connection δ) (served : Broker.Served δ) (s : σ) :
    let r := c.reply served s
    entriesIn r.effects = [] ∧
      ((r.connection.phase = .recording served.entry false ∧
          ∃ descriptors, seen r.effects = [.reply (frame served.reply.bytes) descriptors]) ∨
        (r.connection.phase = .ended ∧
          ∀ descriptors, seen r.effects ≠ [.reply (frame served.reply.bytes) descriptors])) := by
  by_cases hf : served.reply.bytes.length ≤ Wire.capacity
  · have hframe : Wire.Message.frame ⟨_, hf⟩ = frame served.reply.bytes := rfl
    rcases hsend : c.outlet.send .wouldBlock (frame served.reply.bytes) served.descriptor with
      ⟨errno | done, chunks, outlet⟩
    · simp only [reply, Reply.encode_eq hf, hframe, hsend]
      refine ⟨rfl, .inr ⟨trivial, fun descriptors hseen => ?_⟩⟩
      simp only [seen, List.map_cons, List.map_nil, List.cons.injEq, Sighting.reply.injEq] at hseen
      have hwhole := (Stream.Outlet.send_whole_iff (frame_ne_nil _) hsend).mp hseen.1.1
      cases hwhole
    · have hwhole := (Stream.Outlet.send_whole_iff (frame_ne_nil _) hsend).mpr rfl
      simp only [reply, Reply.encode_eq hf, hframe, hsend]
      refine ⟨rfl, .inl ⟨trivial, descriptorsOf chunks, ?_⟩⟩
      simp only [seen, List.map_cons, List.map_nil, hwhole]
  · have hfull : (served.reply.encode c.scratch).1 = .error .full :=
      Wire.Message.extend_full Wire.Message.empty served.reply.entries (Nat.lt_of_not_le hf)
    rcases he : served.reply.encode c.scratch with ⟨fault | done, scratch⟩
    · simp only [reply, he]
      exact ⟨rfl, .inr ⟨trivial, fun _ hseen => List.cons_ne_nil _ _ hseen.symm⟩⟩
    · simp [he] at hfull

end Connection

namespace Broker

/-- What a move does to a connection on which some bodies are still to come: the connection takes
the first of them, if it serves one, and goes on; or it gives up, or finds that nothing else
arrives; or the reply that it was to send does not go out whole. -/
inductive Turned (g : Gate) (k : Kernel σ δ) (bodies : List Bytes) (ending : Ending)
    (moves : List Move) (before after : Connection δ) (e : Event σ δ) : Prop where
  | goesOn {more : List Bytes} (hd : e.Delivered)
      (ht : after.toCome? moves = some (more, ending))
      (hb : bodies = e.body?.toList ++ more)
      (hr : before.awaiting ++ (e.entry? g k).toList = e.recorded ++ after.awaiting)
  | givesUp (hd : e.Delivered) (he : ending = .oversized) (hb : bodies = [])
      (hn : e.body? = none) (hp : after.Final) (hbefore : before.awaiting = [])
      (hr : [malformedEntry g] = e.recorded ++ after.awaiting)
  | finishes (hd : e.Delivered) (he : ending = .incomplete) (hb : bodies = [])
      (hn : e.body? = none) (hc : after.closed = true) (hp : after.phase = .ended)
      (hbefore : before.awaiting = [])
      (hr : e.recorded = [])
  | cutsOff {v : Served δ} (hn : e.body? = none) (hv : e.Undelivered v) (hp : after.phase = .ended)
      (hbefore : before.awaiting = [v.entry]) (hr : e.recorded = [])

/-- All that a step can do to what is still to come. -/
lemma turned_step {i : ℕ} {c : Connection δ} {s : σ} {r : Stepped σ δ} (hr : Step g k true c s r)
    {moves : List Move} {bodies : List Bytes} {ending : Ending}
    (ht : c.toCome? moves = some (bodies, ending)) :
    Turned g k bodies ending moves c r.connection
      ⟨⟨i, .step true⟩, c.phase, s, r.system, r.effects⟩ := by
  cases hr with
  | @receives body rest hp hf =>
    obtain ⟨hflat, hb⟩ := Connection.flatten_of_nextFrame hf
    -- the reference cuts the same frame off
    simp only [Connection.toCome?, hp, Connection.ahead, hflat, List.append_assoc,
      Connection.cut_frame_append hb] at ht
    refine .goesOn (Event.delivered_of_phase (by simp [hp])) ht ?_ ?_
    · simp only [Event.body?, hp, served?]
      rfl
    · simp only [Event.entry?, Event.body?, hp, served?, Connection.awaiting]
      rfl
  | givesUp hp hf =>
    simp only [Connection.toCome?, hp, Connection.ahead, Connection.cut_of_oversized hf,
      Option.some.injEq, Prod.mk.injEq] at ht
    obtain ⟨rfl, rfl⟩ := ht
    refine .givesUp (Event.delivered_of_phase (by simp [hp])) rfl rfl ?_ (.inr ⟨_, rfl⟩) ?_ rfl
    · simp only [Event.body?, hp, served?]
    · simp only [Connection.awaiting, hp]
  | ends hp hf hc =>
    simp only [Connection.toCome?, hp, Connection.ahead_of_closed hc,
      Connection.cut_of_incomplete hf, Option.some.injEq, Prod.mk.injEq] at ht
    obtain ⟨rfl, rfl⟩ := ht
    refine .finishes (Event.delivered_of_phase (by simp [hp])) rfl rfl ?_ hc rfl ?_ rfl
    · simp only [Event.body?, hp, served?]
    · simp only [Connection.awaiting, hp]
  | @serves body hp =>
    simp only [Connection.toCome?, hp, Option.some.injEq, Prod.mk.injEq] at ht
    obtain ⟨rfl, rfl⟩ := ht
    refine .goesOn (Event.delivered_of_phase (by simp [hp])) rfl ?_ ?_
    · simp only [Event.body?, hp, served?]
      rfl
    · simp only [Event.entry?, Event.body?, hp, served?, Connection.awaiting]
      rfl
  | @replies served hp =>
    obtain ⟨-, hsegments, hclosed, -⟩ := Connection.reply_frame c served s
    obtain ⟨hnone, ⟨hlive, descriptors, hwhole⟩ | ⟨hend, hcut⟩⟩ := Connection.reply_cases c served s
    · simp only [Connection.toCome?, hp] at ht
      have hsame : (c.reply served s).connection.toCome? moves = some (bodies, ending) := by
        simp only [Connection.toCome?, hlive, Connection.ahead_congr hsegments hclosed]
        exact ht
      refine .goesOn (fun v hv => ?_) hsame ?_ ?_
      · obtain ⟨hv, -, hlost⟩ := hv
        obtain rfl := Phase.replying.inj (hp.symm.trans hv)
        exact hlost descriptors hwhole
      · simp only [Event.body?, hp, served?]
        rfl
      · simp only [Event.entry?, Event.body?, hp, served?, Connection.awaiting, hlive,
          Event.recorded, hnone]
        rfl
    · refine .cutsOff ?_ ⟨hp, ⟨true, rfl⟩, hcut⟩ hend ?_ hnone
      · simp only [Event.body?, hp, served?]
      · simp only [Connection.awaiting, hp]
  | @records entry last hp =>
    cases last with
    | true => simp [Connection.toCome?, hp] at ht
    | false =>
      simp only [Connection.toCome?, hp] at ht
      refine .goesOn (Event.delivered_of_phase (by simp [hp])) ht ?_ ?_
      · simp only [Event.body?, hp, served?]
        rfl
      · simp only [Event.entry?, Event.body?, hp, served?, Connection.awaiting]
        rfl

/-- All that a move can do to what is still to come. -/
lemma turned_move {i : ℕ} {m : Move} (hm : m ≠ .step false) {c : Connection δ}
    {moves : List Move} {bodies : List Bytes} {ending : Ending}
    (ht : c.toCome? (m :: moves) = some (bodies, ending)) (s : σ) :
    let r := c.move g k m s
    Turned g k bodies ending moves c r.connection ⟨⟨i, m⟩, c.phase, s, r.system, r.effects⟩ := by
  cases m with
  | arrive segment =>
    have hsame : (c.move g k (.arrive segment) s).connection.toCome? moves =
        some (bodies, ending) := by
      rw [← ht]
      simp only [Connection.toCome?, Connection.ahead_arrive, Connection.phase_arrive]
    refine .goesOn ?_ hsame rfl ?_
    · rintro v ⟨-, ⟨logs, hstep⟩, -⟩
      cases hstep
    · simp only [Connection.awaiting, Connection.phase_arrive]
      exact List.append_nil _
  | close =>
    have hsame : (c.move g k .close s).connection.toCome? moves = some (bodies, ending) := by
      rw [← ht]
      simp only [Connection.toCome?, Connection.move, Connection.ahead_close]
      rfl
    refine .goesOn ?_ hsame rfl ?_
    · rintro v ⟨-, ⟨logs, hstep⟩, -⟩
      cases hstep
    · exact List.append_nil _
  | step logs =>
    obtain rfl := Move.logs_eq_true hm
    rw [Connection.move]
    cases hr : c.step? g k true s with
    | some r => exact turned_step (Connection.step_of_step? hr) ht
    | none =>
      obtain ⟨hn, hquiet⟩ := Connection.idle_of_still hr
      refine .goesOn (Event.delivered_of_phase hquiet) ht ?_ ?_
      · simp only [Event.body?, hn]
        rfl
      · simp only [Event.entry?, Event.body?, hn]
        exact List.append_nil _

/-! ### Courses -/

namespace Course

variable {i : ℕ} {c c' : Connection δ} {moves : List Move} {events : List (Event σ δ)}

/-- A client that sends no more at the end has said so before, or in one of the moves. -/
lemma closed_iff (h : Course g k i c moves events c') :
    c'.closed = true ↔ c.closed = true ∨ .close ∈ moves := by
  induction h with
  | nil c => simp
  | @cons c c' m moves events s h ih =>
    rw [ih, Connection.closed_move_iff, List.mem_cons, or_assoc, eq_comm (a := m)]

/-- A connection that is final serves nothing in its course. -/
lemma of_final (h : Course g k i c moves events c') (hl : .step false ∉ moves) (hc : c.Final) :
    c'.Final ∧ (∀ e ∈ events, e.Delivered) ∧ served events = [] ∧
      logged events ++ c'.awaiting = c.awaiting ∧ (c.phase = .ended → c'.phase = .ended) := by
  induction h with
  | nil c => exact ⟨hc, List.forall_mem_nil _, rfl, rfl, id⟩
  | @cons c c' m moves events s h ih =>
    obtain ⟨hfinal, hserved, haw, hend⟩ :=
      Connection.move_of_final (g := g) (k := k) (List.ne_of_not_mem_cons hl).symm hc s
    obtain ⟨hfinal', hd', hserved', haw', hend'⟩ := ih (List.not_mem_of_not_mem_cons hl) hfinal
    have hquiet (v : Served δ) : c.phase ≠ .replying v := by
      obtain hp | ⟨entry, hp⟩ := hc <;> simp [hp]
    refine ⟨hfinal', List.forall_mem_cons.mpr ⟨Event.delivered_of_phase hquiet, hd'⟩, ?_, ?_,
      fun hp => hend' (hend hp)⟩
    · have hbody : Event.body?
          ⟨⟨i, m⟩, c.phase, s, (c.move g k m s).system, (c.move g k m s).effects⟩ = none := hserved
      rw [served_cons, hbody, hserved']
      rfl
    · rw [logged, List.flatMap_cons, List.append_assoc, ← haw]
      exact congrArg _ haw'

/-- Nothing happens any more on a connection that has ended. -/
lemma of_ended (h : Course g k i c moves events c') (hl : .step false ∉ moves)
    (hc : c.phase = .ended) :
    (∀ e ∈ events, e.Delivered) ∧ served events = [] ∧ logged events = [] ∧
      c'.phase = .ended := by
  obtain ⟨-, hd, hserved, haw, hend⟩ := h.of_final hl (.inl hc)
  have hnone : c.awaiting = [] := by simp only [Connection.awaiting, hc]
  rw [hnone] at haw
  exact ⟨hd, hserved, (List.append_eq_nil_iff.mp haw).1, hend hc⟩

/-- How the course of a connection ends on which some bodies are to be served. -/
theorem fate (h : Course g k i c moves events c') (hl : .step false ∉ moves)
    {bodies : List Bytes} {ending : Ending} (ht : c.toCome? moves = some (bodies, ending)) :
    Fate g bodies ending (c.awaiting ++ entries g k events) events c' := by
  induction h generalizing bodies with
  | nil c => exact .alive (List.forall_mem_nil _) ht rfl (by simp [entries, logged])
  | @cons c c' m moves events s h ih =>
    have hl' := List.not_mem_of_not_mem_cons hl
    set e : Event σ δ :=
      ⟨⟨i, m⟩, c.phase, s, (c.move g k m s).system, (c.move g k m s).effects⟩
    have hmade : entries g k (e :: events) = (e.entry? g k).toList ++ entries g k events :=
      entries_cons e events
    -- an event that serves nothing makes no entry
    have hmade' (hn : e.body? = none) (hserved : served events = []) :
        entries g k (e :: events) = [] :=
      entries_eq_nil (by rw [served_cons, hn, hserved]; rfl)
    cases turned_move (i := i) (g := g) (k := k) (List.ne_of_not_mem_cons hl).symm ht s with
    | goesOn hd ht' hb hr =>
      refine (ih hl' ht').precede hd hb ?_
      rw [hmade, ← List.append_assoc, hr, List.append_assoc]
    | givesUp hd he hb hn hp hbefore hr =>
      obtain ⟨hfinal, hd', hserved, haw, -⟩ := h.of_final hl' hp
      refine .gaveUp (List.forall_mem_cons.mpr ⟨hd, hd'⟩) he hfinal ?_ ?_
      · rw [hb, served_cons, hn, hserved]
        rfl
      · rw [hbefore, hmade' hn hserved, logged_cons, List.append_assoc e.recorded, haw]
        exact hr
    | finishes hd he hb hn hc hp hbefore hr =>
      obtain ⟨hd', hserved, hlogged, hend⟩ := h.of_ended hl' hp
      refine .finished (List.forall_mem_cons.mpr ⟨hd, hd'⟩) he (h.closed_iff.mpr (.inl hc)) hend
        ?_ ?_
      · rw [hb, served_cons, hn, hserved]
        rfl
      · rw [hbefore, hmade' hn hserved, logged_cons, hr, hlogged]
    | @cutsOff v hn hv hp hbefore hr =>
      obtain ⟨-, hserved, hlogged, hend⟩ := h.of_ended hl' hp
      refine .cutOff List.mem_cons_self hv hend ?_ ?_
      · rw [served_cons, hn, hserved]
        exact List.nil_prefix
      · rw [hbefore, hmade' hn hserved, logged_cons, hr, hlogged]
        rfl

end Course

end Broker

end FileBroker
