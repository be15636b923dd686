/-
What a connection shows, against the frames of a byte string.

The reference cuts everything that the client sends into frames at once and serves the bodies one
after another, each on the state that the earlier ones left. Whatever the client's segments are and
whenever the broker steps, the same replies and entries are seen, in the same order.

The proof follows what is still outstanding: the replies and entries that will be seen if so many
bytes still arrive. A step takes from it what the step shows, and nothing else changes it.

* `Sighting`, `seen`: what the outside sees of a connection.
* `Broker.serveAll`, `transcript`: the reference.
* `Broker.Consistent`: what is sent and what is recorded of a body agree.
* `Connection.outstanding`: what will still be seen of a connection.
* `Connection.life`: everything that happens on a connection.
* `Connection.life_follows_frames`: what is seen of a connection is the transcript of its frames.
-/
import FileBroker.Proofs.Schedules

namespace FileBroker

open FileBroker.Connection (Effect Ending Move Stepped Step cut frame nextFrame received)
open FileBroker.Stream (Outlet bytesOf descriptorsOf)

variable {σ δ : Type} {g : Gate} {k : Kernel σ δ}

/-! ### The reference -/

/-- What the outside sees of a connection: a reply, with the descriptors beside it and without the
limits of its chunks, or an entry in the audit log. -/
inductive Sighting (δ : Type) where
  | reply (bytes : Bytes) (descriptors : List δ)
  | recorded (entry : Audit.Entry)
  deriving DecidableEq, Repr

/-- What is seen of some effects. -/
def seen (effects : List (Effect δ)) : List (Sighting δ) :=
  effects.map fun
    | .sent chunks => .reply (bytesOf chunks) (descriptorsOf chunks)
    | .recorded entry => .recorded entry

namespace Broker

/-- What is seen of a body that was served: its reply, and then its entry. -/
def Served.sightings (v : Served δ) : List (Sighting δ) :=
  [.reply (frame v.reply.bytes) v.descriptor.toList, .recorded v.entry]

/-- Serving some bodies, each on the state that the one before has left. -/
def serveAll (g : Gate) (k : Kernel σ δ) : List Bytes → σ → List (Served δ) × σ
  | [], s => ([], s)
  | body :: bodies, s =>
    let first := serve g k body s
    let others := serveAll g k bodies first.2
    (first.1 :: others.1, others.2)

/-- What is sent and what is recorded of a body agree: the reply can be written, it is read as the
return code of the entry with the payload, the entry tells of an approval where there was one, and
it tells a reason where there was none. -/
structure Consistent (g : Gate) (body : Bytes) (v : Served δ) : Prop where
  fits : ∀ m, ∃ m', v.reply.encode m = (.ok (), m') ∧ m'.frame = frame v.reply.bytes
  readable : Reply.decode v.reply.bytes = .ok ⟨v.entry.returnCode, v.payload⟩
  allowed : v.entry.decision = .allowed ↔
    ∃ request a, Request.decode body = .ok request ∧ g.evaluate request = .ok a
  reasoned : v.entry.reason.isSome = true ↔ v.entry.decision = .denied

lemma serve_consistent (hk : k.Fits) (g : Gate) (body : Bytes) (s : σ) :
    Consistent g body (serve g k body s).1 := by
  have hf := serve_fits hk g body s
  have hd := Reply.decode_bytes hf
  obtain ⟨reason, hr⟩ | ⟨request, a, hdec, he⟩ := refused_or_approved g body
  · obtain ⟨hdenied, hreason, -⟩ := refusalEntry_eq g body reason
    have hentry : (serve g k body s).1.entry = refusalEntry g body reason := by
      rw [serve_of_refused hr]
      rfl
    refine ⟨fun m => ⟨_, Reply.encode_eq hf m, rfl⟩, hd, ?_, ?_⟩
    · rw [hentry, hdenied]
      constructor
      · intro h
        cases h
      · rintro ⟨request, a, hdec, he⟩
        exact absurd he (hr.not_approved hdec)
    · rw [hentry, hdenied, hreason]
      exact ⟨fun _ => rfl, fun _ => rfl⟩
  · obtain ⟨code, hentry⟩ : ∃ code, (serve g k body s).1.entry = allowedEntry request code := by
      rw [serve_of_approved hdec he]
      exact fulfil_entry request _
    refine ⟨fun m => ⟨_, Reply.encode_eq hf m, rfl⟩, hd, ?_, ?_⟩
    · rw [hentry]
      exact ⟨fun _ => ⟨request, a, hdec, he⟩, fun _ => rfl⟩
    · rw [hentry]
      exact ⟨nofun, nofun⟩

lemma serveAll_consistent (hk : k.Fits) (g : Gate) (bodies : List Bytes) (s : σ) :
    List.Forall₂ (Consistent g) bodies (serveAll g k bodies s).1 := by
  induction bodies generalizing s with
  | nil => exact .nil
  | cons body bodies ih => exact .cons (serve_consistent hk g body s) (ih _)

end Broker

/-- What is seen at the end of the frames: a header that announces too long a body is recorded. -/
def Connection.Ending.sightings (g : Gate) : Ending → List (Sighting δ)
  | .incomplete => []
  | .oversized => [.recorded (Broker.malformedEntry g)]

/-- What is seen of some bodies and their ending, and the state that they leave. -/
def transcript (g : Gate) (k : Kernel σ δ) (cutting : List Bytes × Ending) (s : σ) :
    List (Sighting δ) × σ :=
  let all := Broker.serveAll g k cutting.1 s
  (all.1.flatMap Broker.Served.sightings ++ cutting.2.sightings g, all.2)

/-- Sightings that come before others. -/
def preceded (first : List (Sighting δ)) (later : List (Sighting δ) × σ) :
    List (Sighting δ) × σ := (first ++ later.1, later.2)

lemma preceded_preceded (first second : List (Sighting δ)) (later : List (Sighting δ) × σ) :
    preceded first (preceded second later) = preceded (first ++ second) later := by
  simp [preceded]

/-- The first body is served first, and the others on the state that it leaves. -/
lemma transcript_cons (body : Bytes) (bodies : List Bytes) (ending : Ending) (s : σ) :
    transcript g k (body :: bodies, ending) s =
      preceded (Broker.serve g k body s).1.sightings
        (transcript g k (bodies, ending) (Broker.serve g k body s).2) := by
  simp [transcript, preceded, Broker.serveAll]

/-! ### What is outstanding -/

namespace Connection

/-- What will be seen of a connection, and the state that it will leave, if some moves are still to
come before the client sends no more. -/
def outstanding (g : Gate) (k : Kernel σ δ) (c : Connection δ) (moves : List Move) (s : σ) :
    List (Sighting δ) × σ :=
  let rest := transcript g k (cut (c.ahead moves))
  match c.phase with
  | .receiving => rest s
  | .serving body =>
    preceded (Broker.serve g k body s).1.sightings (rest (Broker.serve g k body s).2)
  | .replying served => preceded served.sightings (rest s)
  | .recording entry true => ([.recorded entry], s)
  | .recording entry false => preceded [.recorded entry] (rest s)
  | .ended => ([], s)

/-- A connection whose outlet lets everything out, and whose reply fits if there is one. -/
structure Sound (c : Connection δ) : Prop where
  outlet : c.outlet.Reliable
  fits : ∀ served, c.phase = .replying served → served.reply.bytes.length ≤ Wire.capacity

/-- Sending a reply that fits on a reliable outlet shows it whole. -/
lemma reply_of_sound {c : Connection δ} (hc : c.Sound) {served : Broker.Served δ}
    (hp : c.phase = .replying served) (s : σ) :
    ∃ scratch outlet, Outlet.Reliable outlet ∧
      (c.reply served s).connection =
        { c with scratch, outlet, phase := .recording served.entry false } ∧
      (c.reply served s).system = s ∧
      seen (c.reply served s).effects =
        [.reply (frame served.reply.bytes) served.descriptor.toList] := by
  have hf := hc.fits served hp
  obtain ⟨chunks, outlet, hsend, ho, hb, hd⟩ :=
    Stream.Outlet.send_of_reliable hc.outlet (frame_ne_nil served.reply.bytes) served.descriptor
  refine ⟨⟨served.reply.bytes, hf⟩, outlet, ho, ?_⟩
  have hframe : Wire.Message.frame ⟨served.reply.bytes, hf⟩ = frame served.reply.bytes := rfl
  simp only [reply, Reply.encode_eq hf, hframe, hsend, seen, List.map_cons, List.map_nil, hb, hd,
    and_self]

/-- A step shows the first of what is outstanding. -/
lemma outstanding_step (hk : k.Fits) {c : Connection δ} {s : σ} {r : Stepped σ δ} (hc : c.Sound)
    (hr : Step g k true c s r) (moves : List Move) :
    r.connection.Sound ∧ r.connection.closed = c.closed ∧
      outstanding g k c moves s =
        preceded (seen r.effects) (outstanding g k r.connection moves r.system) := by
  cases hr with
  | @receives body rest hp hf =>
    obtain ⟨hflat, hb⟩ := flatten_of_nextFrame hf
    refine ⟨⟨hc.outlet, fun _ h => by cases h⟩, rfl, ?_⟩
    simp only [outstanding, hp]
    -- the reference cuts the same frame off, and has served nothing yet
    rw [ahead, hflat, List.append_assoc, cut_frame_append hb, transcript_cons]
    rfl
  | givesUp hp hf =>
    refine ⟨⟨hc.outlet, fun _ h => by cases h⟩, rfl, ?_⟩
    simp only [outstanding, hp]
    rw [ahead, cut_of_oversized hf]
    rfl
  | ends hp hf hcl =>
    refine ⟨⟨hc.outlet, fun _ h => by cases h⟩, rfl, ?_⟩
    simp only [outstanding, hp]
    -- nothing arrives any more, so what is not complete now will never be
    rw [ahead_of_closed hcl, cut_of_incomplete hf]
    rfl
  | @serves body hp =>
    refine ⟨⟨hc.outlet, ?_⟩, rfl, ?_⟩
    · rintro served hs
      obtain rfl := Phase.replying.inj hs
      exact Broker.serve_fits hk g body s
    · simp only [outstanding, hp]
      rfl
  | @replies served hp =>
    obtain ⟨scratch, outlet, ho, hcon, hsys, hseen⟩ := reply_of_sound hc hp s
    rw [hcon, hsys, hseen]
    refine ⟨⟨ho, fun _ h => by cases h⟩, rfl, ?_⟩
    simp only [outstanding, hp, preceded_preceded]
    rfl
  | @records entry last hp =>
    cases last with
    | true =>
      refine ⟨⟨hc.outlet, fun _ h => by cases h⟩, rfl, ?_⟩
      simp only [outstanding, hp]
      rfl
    | false =>
      refine ⟨⟨hc.outlet, fun _ h => by cases h⟩, rfl, ?_⟩
      simp only [outstanding, hp]
      rfl

/-- A move shows the first of what is outstanding if it is still to come. -/
lemma outstanding_move (hk : k.Fits) {m : Move} (hm : m ≠ .step false) {c : Connection δ}
    (hc : c.Sound) (s : σ) (moves : List Move) :
    let r := c.move g k m s
    r.connection.Sound ∧
      outstanding g k c (m :: moves) s =
        preceded (seen r.effects) (outstanding g k r.connection moves r.system) := by
  cases m with
  | arrive segment =>
    refine ⟨?_, ?_⟩
    · rw [move]
      split
      · exact hc
      · exact ⟨hc.outlet, hc.fits⟩
    · simp only [outstanding, ahead_arrive, phase_arrive]
      rfl
  | close =>
    refine ⟨⟨hc.outlet, hc.fits⟩, ?_⟩
    simp only [outstanding, move, ahead_close]
    rfl
  | step logs =>
    obtain rfl : logs = true := by
      cases logs with
      | false => exact absurd rfl hm
      | true => rfl
    rw [move]
    cases hr : c.step? g k true s with
    | none => exact ⟨hc, rfl⟩
    | some r =>
      obtain ⟨hs, -, ho⟩ := outstanding_step hk hc (step_of_step? hr) moves
      exact ⟨hs, ho⟩

lemma seen_append (effects more : List (Effect δ)) :
    seen (effects ++ more) = seen effects ++ seen more := List.map_append

/-- Moves show the first of what is outstanding if they are still to come. -/
lemma outstanding_play (hk : k.Fits) {moves : List Move} (hm : .step false ∉ moves)
    {c : Connection δ} (hc : c.Sound) (s : σ) :
    let r := play g k moves c s
    r.connection.Sound ∧
      outstanding g k c moves s =
        preceded (seen r.effects) (outstanding g k r.connection [] r.system) := by
  induction moves generalizing c s with
  | nil => exact ⟨hc, rfl⟩
  | cons m moves ih =>
    obtain ⟨hs, ho⟩ := outstanding_move (g := g) hk (List.ne_of_not_mem_cons hm).symm hc s moves
    obtain ⟨hs', ho'⟩ := ih (List.not_mem_of_not_mem_cons hm) hs (c.move g k m s).system
    refine ⟨hs', ?_⟩
    set r := c.move g k m s
    set final := play g k moves r.connection r.system
    calc outstanding g k c (m :: moves) s
        = preceded (seen r.effects) (outstanding g k r.connection moves r.system) := ho
      _ = preceded (seen r.effects)
            (preceded (seen final.effects) (outstanding g k final.connection [] final.system)) := by
          rw [ho']
      _ = preceded (seen (r.effects ++ final.effects))
            (outstanding g k final.connection [] final.system) := by
          rw [preceded_preceded, seen_append]

/-- All steps together show what is outstanding once the client sends no more, and end the
connection. -/
lemma outstanding_run (hk : k.Fits) {c : Connection δ} (hc : c.Sound) (hcl : c.closed = true)
    (s : σ) :
    let r := c.run g k true s
    r.connection.phase = .ended ∧ outstanding g k c [] s = (seen r.effects, r.system) := by
  fun_induction run g k true c s with
  | case1 c s h =>
    obtain hp | ⟨-, hopen, -⟩ := step?_eq_none h
    · refine ⟨hp, ?_⟩
      simp only [outstanding, hp]
      rfl
    · simp [hcl] at hopen
  | case2 c s r h _ final ih =>
    obtain ⟨hs, hcl', ho⟩ := outstanding_step hk hc (step_of_step? h) []
    obtain ⟨hend, ho'⟩ := ih hs (hcl'.trans hcl)
    refine ⟨hend, ?_⟩
    rw [ho, ho', seen_append]
    rfl

/-- Everything that happens on a connection: some moves, after which the client sends no more and
the broker makes all steps that are left. -/
def life (g : Gate) (k : Kernel σ δ) (outlet : Outlet) (moves : List Move) (s : σ) :
    Stepped σ δ :=
  let played := play g k moves (accepted outlet) s
  let final := played.connection.close.run g k true played.system
  { final with effects := played.effects ++ final.effects }

/-- **Connections follow the frames of what is sent.** However the bytes arrive and whenever the
broker steps, a connection on which no reply and no entry is lost comes to its end; it shows a reply
and an entry for each frame before the first that is too long or not complete, in the order of the
frames, each served on its own body and on the state that the earlier ones left, and agreeing with
one another. -/
theorem life_follows_frames (hk : k.Fits) {outlet : Outlet} (ho : outlet.Reliable)
    {moves : List Move} (hm : .step false ∉ moves) (g : Gate) (s : σ) :
    let cutting := cut (received moves)
    let l := life g k outlet moves s
    l.connection.phase = .ended ∧
      (seen l.effects, l.system) = transcript g k cutting s ∧
      List.Forall₂ (Broker.Consistent g) cutting.1 (Broker.serveAll g k cutting.1 s).1 ∧
      ∀ request a t m, ∃ m', (Broker.fulfil request (Approval.perform k a t).1).reply.encode m =
        (.ok (), m') := by
  have hc : (accepted outlet : Connection δ).Sound := ⟨ho, nofun⟩
  obtain ⟨hs, hp⟩ := outstanding_play (g := g) hk hm hc s
  have hs' : (play g k moves (accepted outlet) s).connection.close.Sound := ⟨hs.outlet, hs.fits⟩
  obtain ⟨hend, hr⟩ := outstanding_run (g := g) hk hs' rfl
    (play g k moves (accepted outlet) s).system
  refine ⟨hend, ?_, Broker.serveAll_consistent hk g _ s,
    fun request a t m => ⟨_, Reply.encode_eq (Broker.fulfil_fits hk request a t) m⟩⟩
  have hclose (c : Connection δ) (t : σ) :
      outstanding g k c.close [] t = outstanding g k c [] t := by
    have ha : c.close.ahead [] = c.ahead [] := ahead_close c []
    simp only [outstanding, ha]
    rfl
  calc (seen (life g k outlet moves s).effects, (life g k outlet moves s).system)
      = preceded (seen (play g k moves (accepted outlet) s).effects)
          (outstanding g k (play g k moves (accepted outlet) s).connection.close []
            (play g k moves (accepted outlet) s).system) := by
        rw [hr, life, seen_append]
        rfl
    _ = outstanding g k (accepted outlet) moves s := by rw [hclose, ← hp]
    _ = transcript g k (cut (received moves)) s := rfl

/-- A broker that lets the link `/a` be read. A request for it comes in two segments, and then a body
that holds no request and a header that is too large; the first reply takes three writes. -/
theorem life_of_link_reader :
    let k : Kernel Unit Unit := ⟨fun
      | .readlink _ room, s => (.ok ([98, 99, 100].take room), s)
      | _, s => (.error .notFound, s)⟩
    let path : Path := ⟨[47, 97], by decide⟩
    let g : Gate := ⟨.all, .notPermitted, [⟨path, .readOnly, false, by decide, by decide⟩]⟩
    let outlet : Outlet := ⟨[.takes 2, .fails .wouldBlock], false⟩
    let moves : List Move := [.arrive [13, 0, 0, 0, 1, 3, 0, 0, 0, 2, 3, 0], .step true,
      .arrive [0, 0, 47, 97, 0, 1, 0, 0, 0, 9], .step true, .step true, .arrive [1, 16, 0, 0, 7]]
    k.Fits ∧ outlet.Reliable ∧ .step false ∉ moves ∧
      seen (life g k outlet moves ()).effects =
        [.reply (frame (Reply.bytes ⟨3, some [98, 99, 100]⟩)) [],
          .recorded ⟨some .readlink, [Utf8.toStringLossy path.bytes], .allowed, none, 3⟩,
          .reply (frame (Reply.bytes ⟨-1, none⟩)) [],
          .recorded ⟨none, [], .denied, some .malformed, -1⟩,
          .recorded ⟨none, [], .denied, some .malformed, -1⟩] := by
  intro k path g outlet moves
  have hk : k.Fits := by
    intro path room s target h
    obtain rfl : [98, 99, 100].take room = target := Except.ok.inj h
    exact List.length_take_le ..
  have ho : outlet.Reliable := ⟨rfl, by simp [outlet]⟩
  have hm : .step false ∉ moves := by simp [moves]
  obtain ⟨-, hseen, -, -⟩ := life_follows_frames hk ho hm g ()
  have hcut : cut (received moves) =
      ([[1, 3, 0, 0, 0, 2, 3, 0, 0, 0, 47, 97, 0], [9]], .oversized) := by
    have hr : received moves =
        frame [1, 3, 0, 0, 0, 2, 3, 0, 0, 0, 47, 97, 0] ++ (frame [9] ++ [1, 16, 0, 0, 7]) := rfl
    have hrest : cut [1, 16, 0, 0, 7] = ([], .oversized) := by
      rw [cut]
      rfl
    rw [hr, cut_frame_append (by decide), cut_frame_append (by decide), hrest]
  rw [hcut] at hseen
  exact ⟨hk, ho, hm, (congrArg Prod.fst hseen).trans (by rfl)⟩

end Connection

end FileBroker
