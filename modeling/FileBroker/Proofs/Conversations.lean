/-
Conversations: many calls of one client on one connection.

The client sends one request after another and waits for the reply to each; the broker receives,
serves and replies step by step; and on both ways bytes are cut and joined as it happens. A
conversation is everything that has happened once both have come to rest. It is required of it that
neither side goes away and that either receives what the other has sent, but not that anything is
sent before it is received: every course that calls can take is a conversation.

The proof follows the bytes around. What the client sends depends on its requests alone, so it is
known what the broker serves, so it is known what comes back, and each call finds its reply there.

* `inOrder`: doing things one after another.
* `Client.calls`, `Client.calls_sent`: calls one after another, and what is sent for them.
* `Connection.play_cargo`: what the broker sends is what is seen of it.
* `Client.calls_answered`: calls whose replies are on their way.
* `Conversation`: everything that happens in some calls.
* `Conversation.course`: each call is answered, whatever the course.
* `Conversation.nonempty`: all calls can be made.
* `Conversation.results_direct`: each call gives what it gives without a broker.
-/
import FileBroker.Session
import FileBroker.Proofs.Answers
import FileBroker.Proofs.Cargo
import FileBroker.Proofs.Transcripts

namespace FileBroker

open FileBroker.Connection (Effect Move Step Stepped accepted cut frame play received)
open FileBroker.Stream (Arrival Chunk Outlet bytesOf descriptorsOf laden cargo)

variable {σ δ : Type} {g : Gate} {k : Kernel σ δ}

/-- Doing something with each of some things in order, each on the state that the one before has
left. -/
def inOrder {α β τ : Type} (f : α → τ → β × τ) : List α → τ → List β × τ
  | [], t => ([], t)
  | a :: as, t =>
    let first := f a t
    let others := inOrder f as first.2
    (first.1 :: others.1, others.2)

/-! ### What a client sends -/

namespace Client

/-- Calls one after another on one connection. -/
def calls (c : Client) : List Query → Line δ → List (Called δ) × Line δ :=
  inOrder fun q line =>
    let called := c.call q.request q.buffer line
    (called, called.line)

/-- The body that is sent for a call, if one is. -/
def body? (c : Client) (q : Query) : Option Bytes :=
  match c.prepare q.request with
  | .error _ => none
  | .ok message => some message.body

/-- The bytes that are sent for a call: a frame, or nothing. -/
def sending (c : Client) (q : Query) : Bytes := ((c.body? q).map frame).getD []

/-- A call whose message cannot be made ends at once. -/
lemma call_of_error {c : Client} {q : Query} {errno : Errno}
    (h : c.prepare q.request = .error errno) (line : Line δ) :
    c.call q.request q.buffer line = ⟨.error errno, [], line⟩ := by
  rw [call, h]

/-- A call ends at once, or it sends its frame and waits for the reply. -/
lemma call_cases (c : Client) (q : Query) {line : Line δ} (ho : line.outlet.Patient .interrupted) :
    (∃ errno, c.prepare q.request = .error errno ∧
      c.call q.request q.buffer line = ⟨.error errno, [], line⟩) ∨
    ∃ message chunks outlet, c.prepare q.request = .ok message ∧
      Outlet.Patient outlet .interrupted ∧ bytesOf chunks = frame message.body ∧
      c.call q.request q.buffer line =
        let concluded := conclude q.request q.buffer line.inlet
        ⟨concluded.1, chunks, ⟨concluded.2, outlet⟩⟩ := by
  cases hp : c.prepare q.request with
  | error errno => exact .inl ⟨errno, rfl, call_of_error hp line⟩
  | ok message =>
    obtain ⟨chunks, outlet, hsend, hpat, hbytes, -⟩ := Outlet.send_of_patient ho
      (Connection.frame_ne_nil message.body) (none : Option δ)
    have hsend' : line.outlet.send .interrupted message.frame (none : Option δ) =
        (.ok (), chunks, outlet) := hsend
    exact .inr ⟨message, chunks, outlet, rfl, hpat, hbytes, by simp only [call, hp, hsend']⟩

/-- What is sent for some calls depends neither on what comes back nor on how it is cut. -/
lemma calls_sent (c : Client) (queries : List Query) (line : Line δ)
    (ho : line.outlet.Patient .interrupted) :
    (c.calls queries line).1.map (fun called => bytesOf called.sent) =
      queries.map c.sending := by
  induction queries generalizing line with
  | nil => rfl
  | cons q queries ih =>
    obtain ⟨errno, hp, hcall⟩ | ⟨message, chunks, outlet, hp, hpat, hbytes, hcall⟩ :=
      c.call_cases q ho
    · simp only [calls, inOrder, List.map_cons, hcall, sending, body?, hp]
      exact congrArg (_ :: ·) (ih line ho)
    · simp only [calls, inOrder, List.map_cons, hcall, hbytes, sending, body?, hp]
      exact congrArg (_ :: ·) (ih ⟨_, outlet⟩ hpat)

/-- Together, the frames of some bodies are sent. -/
lemma flatten_sending (c : Client) (queries : List Query) :
    (queries.map c.sending).flatten = (queries.filterMap c.body?).flatMap frame := by
  induction queries with
  | nil => rfl
  | cons q queries ih =>
    rw [List.map_cons, List.flatten_cons, ih, sending]
    cases hb : c.body? q with
    | none => rw [List.filterMap_cons_none hb]; rfl
    | some body => rw [List.filterMap_cons_some hb]; rfl

lemma body?_length_le {c : Client} {q : Query} {body : Bytes} (h : c.body? q = some body) :
    body.length ≤ Wire.capacity := by
  rw [body?] at h
  split at h
  · cases h
  · next message _ =>
    obtain rfl := Option.some.inj h
    exact message.body_length_le

end Client

/-- The frames of some bodies are cut into these bodies. -/
lemma Connection.cut_frames {bodies : List Bytes} (h : ∀ body ∈ bodies, body.length ≤ 4096) :
    cut (bodies.flatMap frame) = (bodies, .incomplete) := by
  induction bodies with
  | nil =>
    rw [List.flatMap_nil, cut]
    rfl
  | cons body bodies ih =>
    rw [List.flatMap_cons, cut_frame_append (h body List.mem_cons_self),
      ih fun b hb => h b (List.mem_cons_of_mem _ hb)]

/-! ### What a broker sends -/

/-- The bytes that are seen, each with the descriptors that come with it. -/
def Sighting.cargo : Sighting δ → List (UInt8 × List δ)
  | reply bytes descriptors => laden bytes descriptors
  | recorded _ => []

/-- The bytes of a reply that is sent, the first of which comes with the descriptor. -/
def Broker.Served.cargo (v : Broker.Served δ) : List (UInt8 × List δ) :=
  laden (frame v.reply.bytes) v.descriptor.toList

lemma sightings_cargo (v : Broker.Served δ) : v.sightings.flatMap Sighting.cargo = v.cargo := by
  simp [Broker.Served.sightings, Sighting.cargo, Broker.Served.cargo]

/-- Chunks that go out have their descriptors with the first byte. -/
lemma Stream.Outlet.send_cargo (o : Outlet) (again : Errno) (bytes : Bytes) (fd : Option δ) :
    let chunks := (o.send again bytes fd).2.1
    chunks.flatMap Chunk.cargo = laden (bytesOf chunks) (descriptorsOf chunks) := by
  rw [send]
  split
  · rfl
  · obtain ⟨-, -, hfd, -⟩ := transmit_spec again o.attempts bytes fd
    dsimp only
    rw [transmit_cargo, hfd]
    split
    · next hnil =>
      rw [hnil]
      rfl
    · rfl

namespace Connection

/-- The bytes that go out in some effects, each with the descriptors that come with it. -/
def sentCargo (effects : List (Effect δ)) : List (UInt8 × List δ) :=
  (Session.replies effects).flatMap Chunk.cargo

lemma sentCargo_append (effects more : List (Effect δ)) :
    sentCargo (effects ++ more) = sentCargo effects ++ sentCargo more := by
  simp [sentCargo, Session.replies]

lemma reply_cargo (c : Connection δ) (served : Broker.Served δ) (s : σ) :
    let r := c.reply served s
    sentCargo r.effects = (seen r.effects).flatMap Sighting.cargo := by
  have hsent {again : Errno} {bytes : Bytes} {fd : Option δ} {result : Except Errno Unit}
      {chunks : List (Chunk δ)} {o : Outlet} (h : c.outlet.send again bytes fd = (result, chunks, o)) :
      sentCargo [.sent chunks] = (seen [.sent chunks]).flatMap Sighting.cargo := by
    have hcargo := c.outlet.send_cargo again bytes fd
    rw [h] at hcargo
    simpa [sentCargo, Session.replies, seen, Sighting.cargo] using hcargo
  rw [reply]
  split
  · rfl
  · split
    · next h => exact hsent h
    · next h => exact hsent h

/-- What goes out in a move is what is seen of it. -/
lemma move_cargo (m : Move) (c : Connection δ) (s : σ) :
    let r := c.move g k m s
    sentCargo r.effects = (seen r.effects).flatMap Sighting.cargo := by
  cases m with
  | arrive segment => rfl
  | close => rfl
  | step logs =>
    rw [move]
    cases hr : c.step? g k logs s with
    | none => rfl
    | some r =>
      cases step_of_step? hr with
      | replies hp => exact c.reply_cargo _ s
      | @records entry last hp => cases logs <;> rfl
      | _ => rfl

/-- What goes out in some moves is what is seen of them. -/
lemma play_cargo (moves : List Move) (c : Connection δ) (s : σ) :
    let r := play g k moves c s
    sentCargo r.effects = (seen r.effects).flatMap Sighting.cargo := by
  induction moves generalizing c s with
  | nil => rfl
  | cons m moves ih =>
    simp only [play, sentCargo_append, seen_append, List.flatMap_append, ih, move_cargo]

/-- Nothing is outstanding of a connection that stands still, if nothing else arrives. -/
lemma outstanding_of_still {c : Connection δ} {s : σ} (h : c.step? g k true s = none) :
    outstanding g k c [] s = ([], s) := by
  obtain hp | ⟨hp, hopen, hf⟩ := step?_eq_none h
  · simp only [outstanding, hp]
  · have hahead : c.ahead [] = c.segments.flatten := by simp [ahead, hopen, received]
    simp only [outstanding, hp, hahead, cut_of_incomplete hf]
    rfl

end Connection

/-! ### Calls and their replies -/

/-- Calls whose replies are on their way, in the order of the calls, find them there. -/
lemma Client.calls_answered (hk : k.Fits) (c : Client) (queries : List Query) (line : Line δ)
    (ho : line.outlet.Patient .interrupted) (s : σ) {post : List (UInt8 × List δ)}
    (hin : cargo line.inlet.arrivals =
      (Broker.serveAll g k (queries.filterMap c.body?) s).1.flatMap Broker.Served.cargo ++ post) :
    let called := c.calls queries line
    let answers := inOrder (Query.answered c g k) queries s
    called.1.map (·.result) = answers.1 ∧
      (Broker.serveAll g k (queries.filterMap c.body?) s).2 = answers.2 ∧
      cargo called.2.inlet.arrivals = post := by
  induction queries generalizing line s with
  | nil => exact ⟨rfl, rfl, hin⟩
  | cons q queries ih =>
    obtain ⟨errno, hp, hcall⟩ | ⟨message, chunks, outlet, hp, hpat, -, hcall⟩ := c.call_cases q ho
    · have hb : c.body? q = none := by simp only [body?, hp]
      have ha : q.answered c g k s = (.error errno, s) := by simp only [Query.answered, hp]
      rw [List.filterMap_cons_none hb] at hin ⊢
      obtain ⟨hresults, hsystem, hrest⟩ := ih line ho s hin
      simp only [calls, inOrder, ha, hcall, List.map_cons]
      exact ⟨congrArg (_ :: ·) hresults, hsystem, hrest⟩
    · have hb : c.body? q = some message.body := by simp only [body?, hp]
      rw [List.filterMap_cons_some hb, Broker.serveAll, List.flatMap_cons, List.append_assoc] at hin
      rw [List.filterMap_cons_some hb, Broker.serveAll]
      set served := Broker.serve g k message.body s
      have ha : q.answered c g k s =
          (interpret q.request q.buffer ⟨served.1.reply.bytes, served.1.descriptor⟩, served.2) := by
        simp only [Query.answered, hp, served]
      obtain ⟨rest, hframe, hrest⟩ :=
        Stream.receiveFrame_own (Broker.serve_fits hk g message.body s) hin
      have hconclude : conclude q.request q.buffer line.inlet =
          (interpret q.request q.buffer ⟨served.1.reply.bytes, served.1.descriptor⟩,
            ⟨rest, line.inlet.ended⟩) := by
        simp only [conclude, hframe, served]
      obtain ⟨hresults, hsystem, hrest'⟩ :=
        ih ⟨⟨rest, line.inlet.ended⟩, outlet⟩ hpat served.2 hrest
      simp only [calls, inOrder, ha, hcall, hconclude, List.map_cons]
      exact ⟨congrArg (_ :: ·) hresults, hsystem, hrest'⟩

/-- Everything that happens in some calls of a client on one connection of a broker, until both have
come to rest: all that ever arrives at the client, the writes of either side, and the moves of the
broker's connection. Writes may be short and may have to be tried again, but no side goes away, and
every entry is recorded. What is brought to either side is what the other has sent, in pieces of any
size. -/
structure Conversation (g : Gate) (k : Kernel σ δ) (c : Client) (queries : List Query)
    (s : σ) where
  line : Client.Line δ
  outlet : Outlet
  moves : List Move
  patient : line.outlet.Patient .interrupted
  reliable : outlet.Reliable
  logged : .step false ∉ moves
  carried : received moves = ((c.calls queries line).1.map fun called => bytesOf called.sent).flatten
  brought : cargo line.inlet.arrivals =
    Connection.sentCargo (play g k moves (accepted outlet) s).effects
  settled : (play g k moves (accepted outlet) s).connection.step? g k true
    (play g k moves (accepted outlet) s).system = none

namespace Conversation

variable {c : Client} {queries : List Query} {s : σ}

/-- What becomes of each call. -/
def called (v : Conversation g k c queries s) : List (Client.Called δ) :=
  (c.calls queries v.line).1

/-- The result of each call. -/
def results (v : Conversation g k c queries s) : List (Except Errno (Client.Answer δ)) :=
  v.called.map (·.result)

/-- The bytes that are sent for each call. -/
def sent (v : Conversation g k c queries s) : List Bytes :=
  v.called.map fun called => bytesOf called.sent

/-- The state that the calls leave. -/
def system (v : Conversation g k c queries s) : σ := (play g k v.moves (accepted v.outlet) s).system

/-- What is left on its way to the client after the last call. -/
def left (v : Conversation g k c queries s) : List (Arrival δ) :=
  (c.calls queries v.line).2.inlet.arrivals

/-- The broker serves the bodies that are sent, and what goes out is their replies. -/
lemma brought_eq (hk : k.Fits) (v : Conversation g k c queries s) :
    let served := Broker.serveAll g k (queries.filterMap c.body?) s
    cargo v.line.inlet.arrivals = served.1.flatMap Broker.Served.cargo ∧ v.system = served.2 := by
  set bodies := queries.filterMap c.body?
  have hbodies : ∀ body ∈ bodies, body.length ≤ 4096 := by
    intro body hb
    obtain ⟨q, -, hq⟩ := List.mem_filterMap.mp hb
    exact Client.body?_length_le hq
  have hcut : cut (received v.moves) = (bodies, .incomplete) := by
    rw [v.carried, c.calls_sent queries v.line v.patient, c.flatten_sending]
    exact Connection.cut_frames hbodies
  have hc : (accepted v.outlet : Connection δ).Sound := ⟨v.reliable, nofun⟩
  obtain ⟨-, hplay⟩ := Connection.outstanding_play (g := g) hk v.logged hc s
  rw [Connection.outstanding_of_still v.settled] at hplay
  have hseen : transcript g k (bodies, .incomplete) s =
      (seen (play g k v.moves (accepted v.outlet) s).effects, v.system) := by
    rw [← hcut]
    refine hplay.trans ?_
    simp only [preceded, List.append_nil, system]
  have hsightings : (Broker.serveAll g k bodies s).1.flatMap Broker.Served.sightings =
      seen (play g k v.moves (accepted v.outlet) s).effects := by
    have hfirst := congrArg Prod.fst hseen
    simpa [transcript, Connection.Ending.sightings] using hfirst
  refine ⟨?_, (congrArg Prod.snd hseen).symm⟩
  rw [v.brought, Connection.play_cargo, ← hsightings, List.flatMap_assoc]
  exact List.flatMap_congr fun served _ => sightings_cargo served

/-- Each call is answered as if its frame and the reply to it arrived whole, and the replies are
used up. -/
lemma course (hk : k.Fits) (v : Conversation g k c queries s) :
    let answers := inOrder (Query.answered c g k) queries s
    v.results = answers.1 ∧ v.system = answers.2 ∧ v.sent = queries.map c.sending ∧
      cargo v.left = [] := by
  obtain ⟨hin, hsystem⟩ := v.brought_eq hk
  rw [← List.append_nil (List.flatMap _ _)] at hin
  obtain ⟨hresults, hsystem', hleft⟩ := c.calls_answered hk queries v.line v.patient s hin
  exact ⟨hresults, hsystem.trans hsystem', c.calls_sent queries v.line v.patient, hleft⟩

end Conversation

/-! ### Coming to rest -/

namespace Connection

/-- A connection that stands still stays as it is. -/
lemma play_of_still {c : Connection δ} {s : σ} (h : c.step? g k true s = none) (n : ℕ) :
    play g k (List.replicate n (.step true)) c s = ⟨c, s, []⟩ := by
  induction n with
  | zero => rfl
  | succ n ih => simp only [List.replicate_succ, play, move, h, Option.getD_none, ih, List.nil_append]

/-- A connection stands still after as many steps as are left. -/
lemma play_settles {c : Connection δ} {s : σ} {n : ℕ} (h : c.remaining ≤ n) :
    let r := play g k (List.replicate n (.step true)) c s
    r.connection.step? g k true r.system = none := by
  induction n generalizing c s with
  | zero =>
    cases hr : c.step? g k true s with
    | none => exact hr
    | some r =>
      have := remaining_step_lt hr
      omega
  | succ n ih =>
    cases hr : c.step? g k true s with
    | none =>
      rw [play_of_still hr]
      exact hr
    | some r =>
      have := remaining_step_lt hr
      simp only [List.replicate_succ, play, move, hr, Option.getD_some]
      exact ih (by omega)

end Connection

namespace Conversation

variable {c : Client} {queries : List Query} {s : σ}

/-- All calls can be made: for instance, everything that is sent arrives at once on either side. -/
lemma nonempty (g : Gate) (k : Kernel σ δ) (c : Client) (queries : List Query) (s : σ) :
    Nonempty (Conversation g k c queries s) := by
  set bytes := (queries.map c.sending).flatten
  set moves : List Move := .arrive bytes ::
    List.replicate ((accepted {} : Connection δ).arrive bytes).remaining (.step true) with hmoves
  set played := play g k moves (accepted {}) s with hplayed
  set line : Client.Line δ := ⟨Stream.Inlet.empty.push (Session.replies played.effects), {}⟩
  have hpat : line.outlet.Patient .interrupted := ⟨rfl, by simp [line]⟩
  have hcargo (chunks : List (Chunk δ)) :
      cargo (Stream.Inlet.empty.push chunks).arrivals = chunks.flatMap Chunk.cargo := by
    simp [Stream.Inlet.push, Stream.Inlet.empty, cargo, List.flatMap_map]
  have hreceived : received moves = bytes := by
    rw [hmoves, received, Connection.received_steps, List.append_nil]
  have hstill : played.connection.step? g k true played.system = none := by
    rw [hplayed, hmoves]
    exact Connection.play_settles le_rfl
  exact ⟨{
    line, outlet := {}, moves
    patient := hpat
    reliable := ⟨rfl, by simp⟩
    logged := by simp [hmoves, List.mem_replicate]
    carried := by rw [hreceived, c.calls_sent queries line hpat]
    brought := hcargo _
    settled := hstill }⟩

end Conversation

/-! ### Calls through a broker -/

namespace Client

/-- What is sent for a call that the client does not refuse itself. -/
lemma sending_of_asked {c : Client} {q : Query} (h : ¬ c.Refuses q.request) :
    c.sending q =
      if q.request.wireSize ≤ Wire.capacity then frame q.request.onWire.bytes else [] := by
  by_cases hl : q.request.wireSize ≤ Wire.capacity
  · have hb : q.request.onWire.bytes.length ≤ Wire.capacity :=
      q.request.onWire_bytes_length.trans_le hl
    simp only [sending, body?, prepare_of_fits h hb, if_pos hl, Option.map_some, Option.getD_some]
  · simp only [sending, body?, prepare_of_long h (by omega), if_neg hl, Option.map_none,
      Option.getD_none]

/-- A client that does not ask its gate refuses nothing itself. -/
lemma not_refuses {c : Client} (hc : c.fastCheck = false) (r : Request) : ¬ c.Refuses r := by
  rintro ⟨h, -⟩
  simp [hc] at h

end Client

/-- **Calls through a broker are calls on the kernel.** However the bytes are cut on both ways and
whenever the broker steps, each call of a client that does not ask its own gate gives what it gives
without a broker on the state that the earlier calls left: it is too long, or denied, or answered by
the kernel. Nothing is sent for a call that is too long, and nothing is left of the replies, so that
no call is taken for another. -/
theorem Conversation.results_direct {c : Client} (hc : c.fastCheck = false) (hk : k.Fits)
    (hp : k.Positive) (hd : 0 < g.policy.deniedErrno.code) {queries : List Query} {s : σ}
    (v : Conversation g k c queries s) :
    (v.results, v.system) = inOrder (Query.direct g k) queries s ∧
      v.sent = queries.map (fun q =>
        if q.request.wireSize ≤ Wire.capacity then frame q.request.onWire.bytes else []) ∧
      cargo v.left = [] := by
  have hdirect : (Query.answered c g k : Query → σ → _) = Query.direct g k :=
    funext₂ fun q s => Query.answered_of_asked hk hp hd (Client.not_refuses hc q.request) s
  obtain ⟨hresults, hsystem, hsent, hleft⟩ := v.course hk
  rw [hdirect] at hresults hsystem
  refine ⟨Prod.ext hresults hsystem, ?_, hleft⟩
  rw [hsent]
  exact List.map_congr_left fun q _ => Client.sending_of_asked (Client.not_refuses hc q.request)

/-- A client opens a file that is to lose its name, is denied a renaming, reads a link into a buffer
that is too small, and asks for access that the kernel denies. Requests arrive in pieces and replies
in others; some writes are short, and some are tried again. -/
theorem Conversation.results_direct_in_pieces :
    let k : Kernel ℕ ℕ := ⟨fun
      | .openFile .., s => (.ok (7 : ℕ), s + 1)
      | .unlink _, s => (.ok (), s + 10)
      | .readlink _ room, s => (.ok ([98, 99, 100].take room), s)
      | _, s => (.error .notFound, s)⟩
    let t : Path := ⟨[47, 116], by decide⟩
    let l : Path := ⟨[47, 108], by decide⟩
    let g : Gate := ⟨.all, .accessDenied,
      [⟨t, .readWriteCreateTemporary, false, by decide, by decide⟩,
        ⟨l, .readOnly, false, by decide, by decide⟩]⟩
    let c : Client := ⟨⟨.empty, .notPermitted, []⟩, false⟩
    let queries : List Query :=
      [⟨.openFile t (OpenFlags.exclusiveCreate ||| 2 ||| OpenFlags.closeOnExec), []⟩,
        ⟨.rename l t, []⟩, ⟨.readlink l, [0, 0]⟩, ⟨.access l 4, []⟩]
    let line : Client.Line ℕ :=
      ⟨⟨[.pause, .chunk ⟨[5, 0], [7]⟩, .chunk ⟨[0, 0, 1, 0, 0, 0, 0, 5, 0, 0], []⟩, .pause,
          .chunk ⟨[0, 1, 243, 255, 255, 255, 13], []⟩, .chunk ⟨[0, 0, 0, 1, 3, 0, 0, 0, 2, 3, 0], []⟩,
          .chunk ⟨[0, 0, 98, 99, 100, 5, 0, 0, 0, 1, 254, 255, 255, 255], []⟩], false⟩,
        ⟨[.fails .interrupted, .takes 3], false⟩⟩
    let moves : List Move :=
      [.arrive [18, 0, 0], .step true,
        .arrive [0, 1, 2, 0, 0, 0, 2, 3, 0, 0, 0, 47, 116, 0, 1, 194, 0, 0, 0, 21]] ++
      List.replicate 4 (.step true) ++
      [.arrive [0, 0, 0, 1, 4, 0, 0, 0, 2, 3, 0, 0, 0, 47, 108, 0, 2, 3, 0, 0, 0, 47, 116, 0, 13, 0],
        .arrive [0, 0, 1, 3, 0, 0, 0, 2, 3, 0, 0, 0, 47, 108, 0],
        .arrive [18, 0, 0, 0, 1, 1, 0, 0, 0, 2, 3, 0, 0, 0, 47, 108, 0, 1, 4, 0, 0, 0]] ++
      List.replicate 12 (.step true)
    c.fastCheck = false ∧ k.Fits ∧ k.Positive ∧ 0 < g.policy.deniedErrno.code ∧
      ∃ v : Conversation g k c queries 0, v.line = line ∧ v.moves = moves ∧
        v.results = [.ok (.opened 7 true), .error .accessDenied, .ok (.link 2 [98, 99]),
          .error .notFound] ∧ v.system = 11 := by
  intro k t l g c queries line moves
  have hk : k.Fits := by
    intro path room s target h
    obtain rfl : [98, 99, 100].take room = target := Except.ok.inj h
    exact List.length_take_le ..
  have hp : k.Positive := by
    intro call s errno h
    cases call with
    | openFile | unlink | readlink => cases h
    | access | rename | stat =>
      obtain rfl : Errno.notFound = errno := Except.error.inj h
      decide
  have hd : 0 < g.policy.deniedErrno.code := by decide
  have hpat : line.outlet.Patient .interrupted := ⟨rfl, by simp [line]⟩
  obtain ⟨v, hline, hmoves⟩ :
      ∃ v : Conversation g k c queries 0, v.line = line ∧ v.moves = moves :=
    ⟨{ line, moves
       outlet := ⟨[.takes 2, .fails .wouldBlock], false⟩
       patient := hpat
       reliable := ⟨rfl, by simp⟩
       logged := by decide
       carried := by
        rw [c.calls_sent queries line hpat]
        decide +kernel
       brought := by decide +kernel
       settled := Option.isNone_iff_eq_none.mp (by decide +kernel) }, rfl, rfl⟩
  have hdirect : inOrder (Query.direct g k) queries 0 =
      ([.ok (.opened 7 true), .error .accessDenied, .ok (.link 2 [98, 99]), .error .notFound],
        11) := by
    decide +kernel
  obtain ⟨hv, -, -⟩ := Conversation.results_direct rfl hk hp hd v
  obtain ⟨hresults, hsystem⟩ := Prod.mk.inj (hv.trans hdirect)
  exact ⟨rfl, hk, hp, hd, v, hline, hmoves, hresults, hsystem⟩

end FileBroker
