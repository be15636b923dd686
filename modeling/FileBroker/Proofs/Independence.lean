/-
Connections that do not disturb one another.

A broker serves any number of connections at once, and what one client does may change the file
system under the others. What is decided of a request does not depend on it: for each connection the
decisions, the refusals that are sent and what is recorded of them are the same as when the
connection runs alone, over another kernel and on another schedule. Only what comes of an approval
may differ.

* `Broker.ruling`, `Broker.refusal?`, `Broker.judgement`: what is decided, sent and recorded of a
  body, as far as it depends on the body alone.
* `Broker.Faultless`: a run in which no reply and no entry is lost.
* `Broker.System.run_faultless`: a run is faultless where writes go through and links fit.
* `Broker.System.exists_alone`: a connection can be alone with any bytes.
* `Broker.Interleaving`: one list that is made up of many, each in order.
* `Broker.Follows`: a connection does in one run what it begins with in another.
* `Broker.System.connections_independent`: connections are independent.
-/
import FileBroker.Proofs.Courses
import FileBroker.Proofs.Refusals

namespace FileBroker

open FileBroker.Connection (Ending Move Phase Step accepted cut entriesIn frame received served?)
open FileBroker.Stream (Outlet)

variable {σ σ' δ : Type} {g : Gate} {k : Kernel σ δ}

/-! ### What depends on the body alone -/

namespace Broker

/-- What is decided of a body: why it is refused, or else the approval with its arguments. -/
def ruling (g : Gate) (body : Bytes) : Except Refusal Approval :=
  match Request.decode body with
  | .error _ => .error .malformed
  | .ok request => g.evaluate request

lemma RefusedFor.ruling_eq {body : Bytes} {reason : Refusal} (h : RefusedFor g body reason) :
    ruling g body = .error reason := by
  cases h with
  | malformed hd => simp only [ruling, hd]
  | denied hd he => simp only [ruling, hd, he]

lemma ruling_of_approved {body : Bytes} {request : Request} {a : Approval}
    (hd : Request.decode body = .ok request) (he : g.evaluate request = .ok a) :
    ruling g body = .ok a := by
  simp only [ruling, hd, he]

/-- What is seen of the refusal with an entry: the entry, and the reply that goes out. -/
def refusalSeen (g : Gate) (entry : Audit.Entry) : Audit.Entry × List (Sighting δ) :=
  (entry, [.reply (refusalFrame g.policy.deniedErrno) []])

/-- What is seen of a body if it is refused. -/
def refusal? (g : Gate) (body : Bytes) : Option (Audit.Entry × List (Sighting δ)) :=
  match ruling g body with
  | .error reason => some (refusalSeen g (refusalEntry g body reason))
  | .ok _ => none

/-- What is recorded of a request but for its return code. -/
structure Judgement where
  command : Option Command
  paths : List String
  decision : Audit.Decision
  reason : Option Refusal
  deriving DecidableEq, Repr

/-- An entry but for its return code. -/
def Judgement.ofEntry (entry : Audit.Entry) : Judgement :=
  ⟨entry.command, entry.paths, entry.decision, entry.reason⟩

/-- What is recorded of a body but for its return code. -/
def judgement (g : Gate) (body : Bytes) : Judgement :=
  match Request.decode body with
  | .error _ => ⟨none, [], .denied, some .malformed⟩
  | .ok request =>
    match g.evaluate request with
    | .error reason => ⟨some request.command, recordedPaths request, .denied, some reason⟩
    | .ok _ => ⟨some request.command, recordedPaths request, .allowed, none⟩

/-- Whatever the kernel does, the entry of a body is recorded with the judgement on it. -/
lemma serve_judgement (g : Gate) (k : Kernel σ δ) (body : Bytes) (s : σ) :
    Judgement.ofEntry (serve g k body s).1.entry = judgement g body := by
  rw [judgement]
  cases hd : Request.decode body with
  | error fault =>
    rw [serve_of_refused (.malformed hd)]
    simp only [refuse, refusalEntry, hd]
    rfl
  | ok request =>
    cases he : g.evaluate request with
    | error reason =>
      rw [serve_of_refused (.denied hd he)]
      simp only [refuse, refusalEntry, hd, he]
      rfl
    | ok a =>
      obtain ⟨code, hentry⟩ := fulfil_entry request (a.perform k s).1
      simp only [serve_of_approved hd he, hentry, he]
      rfl

end Broker

/-! ### Runs -/

namespace Broker

namespace Event

/-- The state of the kernel changes in an event only where an approval is carried out, and then as
the kernel changes it. -/
def Obeys (g : Gate) (k : Kernel σ δ) (e : Event σ δ) : Prop :=
  e.after = match e.body?.map (ruling g) with
    | some (.ok a) => (a.perform k e.before).2
    | _ => e.before

/-- The refusal that is sent in an event, with its entry. -/
def refusal? (e : Event σ δ) : Option (Audit.Entry × List (Sighting δ)) :=
  match e.turn.move, e.phase with
  | .step _, .replying v =>
    if v.entry.decision = .denied then some (v.entry, seen e.effects) else none
  | _, _ => none

end Event

/-- No reply and no entry is lost in some events. -/
def Faultless (events : List (Event σ δ)) : Prop :=
  ∀ e ∈ events, e.turn.move ≠ .step false ∧ e.Delivered

/-- What is decided in some events of the bodies that are served on a connection. -/
def rulingsOn (g : Gate) (i : ℕ) (events : List (Event σ δ)) : List (Except Refusal Approval) :=
  (servedOn i events).map (ruling g)

/-- The refusals that are sent on a connection. -/
def refusalsOn (i : ℕ) (events : List (Event σ δ)) : List (Audit.Entry × List (Sighting δ)) :=
  (eventsOn i events).filterMap Event.refusal?

/-- What a connection does in some events is what it begins with in others. Only the return codes in
what is recorded may differ. -/
structure Follows (g : Gate) (i : ℕ) (events : List (Event σ δ)) (others : List (Event σ' δ)) :
    Prop where
  rulings : rulingsOn g i events <+: rulingsOn g i others
  refusals : refusalsOn i events <+: refusalsOn i others
  judgements : (loggedOn i events).map .ofEntry <+: (loggedOn i others).map Judgement.ofEntry

/-! ### Interleavings -/

/-- A list that is made up of the entries of many lists, each in its order. -/
inductive Interleaving {α : Type} : (ℕ → List α) → List α → Prop where
  | nil : Interleaving (fun _ => []) []
  | cons {parts : ℕ → List α} {whole : List α} (i : ℕ) (a : α) (h : Interleaving parts whole) :
      Interleaving (Function.update parts i (a :: parts i)) (a :: whole)

lemma Interleaving.append {α : Type} {parts : ℕ → List α} {whole : List α}
    (h : Interleaving parts whole) (i : ℕ) (front : List α) :
    Interleaving (Function.update parts i (front ++ parts i)) (front ++ whole) := by
  induction front with
  | nil =>
    rw [List.nil_append, Function.update_eq_self]
    exact h
  | cons a front ih =>
    have hmore := ih.cons i a
    rw [Function.update_self, Function.update_idem] at hmore
    exact hmore

/-- What is recorded in some events is made up of what is recorded on each connection. -/
lemma interleaving_logged (events : List (Event σ δ)) :
    Interleaving (fun i => loggedOn i events) (logged events) := by
  induction events with
  | nil => exact .nil
  | cons e events ih =>
    have hparts : (fun i => loggedOn i (e :: events)) =
        Function.update (fun i => loggedOn i events) e.turn.index
          (e.recorded ++ loggedOn e.turn.index events) := by
      funext i
      by_cases hi : e.turn.index = i
      · subst hi
        rw [Function.update_self, loggedOn, eventsOn_cons_self, logged_cons]
        rfl
      · rw [Function.update_of_ne (Ne.symm hi), loggedOn, eventsOn_cons_of_ne hi]
        rfl
    rw [hparts, logged_cons]
    exact ih.append e.turn.index e.recorded

/-! ### Rulings -/

/-- Serving a body changes the state of the kernel as its ruling says. -/
lemma serve_system (g : Gate) (k : Kernel σ δ) (body : Bytes) (s : σ) :
    (serve g k body s).2 = match ruling g body with
      | .ok a => (a.perform k s).2
      | .error _ => s := by
  obtain ⟨reason, hr⟩ | ⟨request, a, hd, he⟩ := refused_or_approved g body
  · rw [serve_of_refused hr, hr.ruling_eq]
  · rw [serve_of_approved hd he, ruling_of_approved hd he]

/-- A turn changes the state of the kernel only where it carries out an approval. -/
lemma System.act_obeys (t : Turn) (y : System σ δ) : (y.act g k t).2.Obeys g k := by
  obtain ⟨i, m⟩ := t
  rw [Event.Obeys]
  cases m with
  | arrive segment => rfl
  | close => rfl
  | step logs =>
    simp only [act, Event.body?, Connection.move]
    cases hr : (y.connections i).step? g k logs y.state with
    | none =>
      simp only [(Connection.idle_of_still hr).1, Option.getD_none, Option.map_none]
    | some r =>
      rw [Option.getD_some]
      cases Connection.step_of_step? hr with
      | receives hp hf => simp only [hp, served?, Option.map_none]
      | givesUp hp hf => simp only [hp, served?, Option.map_none]
      | ends hp hf hc => simp only [hp, served?, Option.map_none]
      | @serves body hp =>
        simp only [hp, served?, Option.map_some, serve_system]
        split <;> simp_all
      | @replies served hp =>
        simp only [hp, served?, Option.map_none]
        exact (Connection.reply_frame _ served y.state).1
      | @records entry last hp =>
        simp only [hp, served?, Option.map_none]
        exact (Connection.record_frame _ entry last logs y.state).1

lemma System.run_obeys (turns : List Turn) (y : System σ δ) :
    ∀ e ∈ (y.run g k turns).2, e.Obeys g k := by
  induction turns generalizing y with
  | nil => exact List.forall_mem_nil _
  | cons t turns ih => exact List.forall_mem_cons.mpr ⟨y.act_obeys t, ih (y.act g k t).1⟩

/-! ### Refusals -/

/-- The refusal that a connection has yet to send. -/
def pending (g : Gate) (c : Connection δ) : List (Audit.Entry × List (Sighting δ)) :=
  match c.phase with
  | .replying v => if v.entry.decision = .denied then [refusalSeen g v.entry] else []
  | _ => []

/-- A reply that tells of a refusal is the one that every refusal gets. -/
def Honest (g : Gate) (c : Connection δ) : Prop :=
  ∀ v, c.phase = .replying v → v.entry.decision = .denied →
    v = refuse v.entry ∧ v.entry.returnCode = g.policy.deniedErrno.returnCode

/-- What is made of a body is a refusal just where it is refused. -/
lemma serve_denied (g : Gate) (k : Kernel σ δ) (body : Bytes) (s : σ) :
    let v := (serve g k body s).1
    (v.entry.decision = .denied →
      v = refuse v.entry ∧ v.entry.returnCode = g.policy.deniedErrno.returnCode) ∧
      (if v.entry.decision = .denied then [refusalSeen g v.entry] else []) =
        (refusal? g body : Option (_ × List (Sighting δ))).toList := by
  obtain ⟨reason, hr⟩ | ⟨request, a, hd, he⟩ := refused_or_approved g body
  · obtain ⟨hdenied, -, hcode⟩ := refusalEntry_eq g body reason
    simp only [serve_of_refused hr, refusal?, hr.ruling_eq, refuse, hdenied, if_true]
    exact ⟨fun _ => ⟨trivial, hcode⟩, rfl⟩
  · obtain ⟨code, hentry⟩ := fulfil_entry request (a.perform k s).1
    simp only [serve_of_approved hd he, refusal?, ruling_of_approved hd he, hentry, allowedEntry]
    exact ⟨fun hdenied => (by cases hdenied), rfl⟩

/-- A reply that is not lost shows the refusal that was to be sent. -/
lemma refusal?_of_replying {c : Connection δ} (hc : Honest g c) {v : Served δ}
    (hp : c.phase = .replying v) {e : Event σ δ} (he : e.phase = .replying v)
    (hm : e.turn.move = .step true) {s : σ} (heffects : e.effects = (c.reply v s).effects)
    (hv : e.Delivered) : e.refusal?.toList = pending g c := by
  simp only [Event.refusal?, hm, he, pending, hp]
  by_cases hdenied : v.entry.decision = .denied
  · obtain ⟨hrefuse, hcode⟩ := hc v hp hdenied
    obtain ⟨descriptors, hwhole⟩ : ∃ descriptors,
        seen e.effects = [.reply (frame v.reply.bytes) descriptors] := by
      by_contra hnone
      exact hv v ⟨he, ⟨true, hm⟩, not_exists.mp hnone⟩
    obtain ⟨-, -, bytes, hseen, -, -⟩ := Connection.reply_refuse c hcode s
    rw [← hrefuse, ← heffects, hwhole] at hseen
    have hframe : frame v.reply.bytes = refusalFrame g.policy.deniedErrno := by
      rw [hrefuse]
      exact Connection.frame_refuse hcode
    simp only [List.cons.injEq, Sighting.reply.injEq, and_true] at hseen
    rw [if_pos hdenied, if_pos hdenied, hwhole, hframe, hseen.2]
    rfl
  · rw [if_neg hdenied, if_neg hdenied]
    rfl

/-- What a move does about refusals: it takes up that of the body that it serves, or sends the one
that was to be sent. -/
def Passes (g : Gate) (before after : Connection δ) (e : Event σ δ) : Prop :=
  Honest g after ∧
    pending g before ++ (e.body?.bind (refusal? g)).toList = e.refusal?.toList ++ pending g after

/-- A move that leaves the phase as it is does nothing about refusals. -/
lemma passes_of_same {c c' : Connection δ} (hc : Honest g c) (hp : c'.phase = c.phase)
    {e : Event σ δ} (hb : e.body? = none) (hr : e.refusal? = none) : Passes g c c' e := by
  rw [Passes, Honest, pending, pending, hp, hb, hr]
  exact ⟨hc, List.append_nil _⟩

/-- A step that loses nothing passes on what is to be said of refusals. -/
lemma passes_step {i : ℕ} {c : Connection δ} (hc : Honest g c) {s : σ} {r : Connection.Stepped σ δ}
    (hr : Step g k true c s r)
    (hv : (⟨⟨i, .step true⟩, c.phase, s, r.system, r.effects⟩ : Event σ δ).Delivered) :
    Passes g c r.connection ⟨⟨i, .step true⟩, c.phase, s, r.system, r.effects⟩ := by
  cases hr with
  | receives hp hf =>
    refine ⟨fun v hreplying => (by cases hreplying), ?_⟩
    simp only [pending, hp, Event.body?, Event.refusal?, served?]
    rfl
  | givesUp hp hf =>
    refine ⟨fun v hreplying => (by cases hreplying), ?_⟩
    simp only [pending, hp, Event.body?, Event.refusal?, served?]
    rfl
  | ends hp hf hcl =>
    refine ⟨fun v hreplying => (by cases hreplying), ?_⟩
    simp only [pending, hp, Event.body?, Event.refusal?, served?]
    rfl
  | @serves body hp =>
    obtain ⟨hhonest, hpending⟩ := serve_denied g k body s
    refine ⟨?_, ?_⟩
    · rintro v hreplying
      obtain rfl := Phase.replying.inj hreplying
      exact hhonest
    · simp only [pending, hp, Event.body?, Event.refusal?, served?, hpending]
      rfl
  | @replies v hp =>
    have hsent := refusal?_of_replying hc hp (e := ⟨⟨i, .step true⟩, c.phase, s,
      (c.reply v s).system, (c.reply v s).effects⟩) hp rfl rfl hv
    obtain ⟨-, -, -, hend | hrec⟩ := Connection.reply_frame c v s
    · refine ⟨fun v' h => by simp [hend] at h, ?_⟩
      rw [hsent]
      simp only [pending, hend, Event.body?, hp, served?]
      rfl
    · refine ⟨fun v' h => by simp [hrec] at h, ?_⟩
      rw [hsent]
      simp only [pending, hrec, Event.body?, hp, served?]
      rfl
  | @records entry last hp =>
    obtain ⟨-, -, -, hend | ⟨-, hrec⟩⟩ := Connection.record_frame c entry last true s
    · refine ⟨fun v' h => by simp [hend] at h, ?_⟩
      simp only [pending, hp, hend, Event.body?, Event.refusal?, served?]
      rfl
    · refine ⟨fun v' h => by simp [hrec] at h, ?_⟩
      simp only [pending, hp, hrec, Event.body?, Event.refusal?, served?]
      rfl

/-- A move that loses nothing passes on what is to be said of refusals. -/
lemma passes_move {i : ℕ} {m : Move} (hm : m ≠ .step false) {c : Connection δ} (hc : Honest g c)
    (s : σ) :
    let r := c.move g k m s
    let e : Event σ δ := ⟨⟨i, m⟩, c.phase, s, r.system, r.effects⟩
    e.Delivered → Passes g c r.connection e := by
  intro r e hv
  cases m with
  | arrive segment => exact passes_of_same hc (Connection.phase_arrive c segment s) rfl rfl
  | close => exact passes_of_same hc rfl rfl rfl
  | step logs =>
    obtain rfl := Connection.Move.logs_eq_true hm
    cases hr : c.step? g k true s with
    | some r' =>
      have hmoved : r = r' := by
        show (c.step? g k true s).getD _ = r'
        rw [hr, Option.getD_some]
      subst hmoved
      exact passes_step hc (Connection.step_of_step? hr) hv
    | none =>
      have hmoved : r = ⟨c, s, []⟩ := by
        show (c.step? g k true s).getD _ = _
        rw [hr, Option.getD_none]
      have hphase : e.body? = none ∧ e.refusal? = none := by
        obtain hp | ⟨hp, -⟩ := Connection.step?_eq_none hr
        · simp only [e, Event.body?, Event.refusal?, hp, served?, and_self]
        · simp only [e, Event.body?, Event.refusal?, hp, served?, and_self]
      exact passes_of_same hc (by rw [hmoved]) hphase.1 hphase.2

/-- In a course that loses nothing, the refusals that are sent and the one that is yet to be sent
are those of the bodies that are served. -/
lemma Course.refusals {i : ℕ} {c c' : Connection δ} {moves : List Move} {events : List (Event σ δ)}
    (h : Course g k i c moves events c') (hf : Faultless events) (hc : Honest g c) :
    pending g c ++ (served events).filterMap (refusal? g) =
      events.filterMap Event.refusal? ++ pending g c' := by
  induction h with
  | nil c => exact List.append_nil _
  | @cons c c' m moves events s h ih =>
    obtain ⟨⟨hm, hv⟩, hf'⟩ := List.forall_mem_cons.mp hf
    obtain ⟨hc', hpass⟩ := passes_move (i := i) hm hc s hv
    have hrest := ih hf' hc'
    set e : Event σ δ :=
      ⟨⟨i, m⟩, c.phase, s, (c.move g k m s).system, (c.move g k m s).effects⟩
    have hserved : (served (e :: events)).filterMap (refusal? g) =
        (e.body?.bind (refusal? g)).toList ++
          (served events).filterMap (refusal? g : _ → Option (_ × List (Sighting δ))) := by
      rw [served_cons, List.filterMap_append]
      cases e.body? with
      | none => rfl
      | some body =>
        cases hbody : (refusal? g body : Option (_ × List (Sighting δ))) <;> simp [hbody]
    have hsent : (e :: events).filterMap Event.refusal? =
        e.refusal?.toList ++ events.filterMap Event.refusal? := by
      cases he : e.refusal? <;> simp [he]
    set moved := (c.move g k m s).connection
    calc pending g c ++ (served (e :: events)).filterMap (refusal? g)
      _ = (pending g c ++ (e.body?.bind (refusal? g)).toList) ++
          (served events).filterMap (refusal? g) := by rw [hserved, List.append_assoc]
      _ = e.refusal?.toList ++ (pending g moved ++ (served events).filterMap (refusal? g)) := by
        rw [hpass, List.append_assoc]
      _ = e.refusal?.toList ++ (events.filterMap Event.refusal? ++ pending g c') := by rw [hrest]
      _ = (e :: events).filterMap Event.refusal? ++ pending g c' := by
        rw [hsent, List.append_assoc]

/-! ### One connection -/

/-- The judgements that are recorded in entries are those on the bodies that were served. -/
lemma Course.judgements {i : ℕ} {c c' : Connection δ} {moves : List Move}
    {events : List (Event σ δ)}
    (h : Course g k i c moves events c') :
    (entries g k events).map .ofEntry = (served events).map (judgement g) := by
  induction h with
  | nil c => rfl
  | @cons c c' m moves events s h ih =>
    rw [entries_cons, served_cons, List.map_append, List.map_append, ih, Event.entry?]
    cases (⟨⟨i, m⟩, c.phase, s, (c.move g k m s).system, (c.move g k m s).effects⟩ :
        Event σ δ).body? with
    | none => rfl
    | some body => exact congrArg (· :: _) (serve_judgement g k body s)

/-- What a connection on which nothing is lost has done, if some bytes have arrived. -/
structure Kept (g : Gate) (k : Kernel σ δ) (bytes : Bytes) (events : List (Event σ δ))
    (c : Connection δ) : Prop where
  served : served events <+: (cut bytes).1
  refused : events.filterMap Event.refusal? <+: (cut bytes).1.filterMap (refusal? g)
  judged : (logged events).map .ofEntry <+:
    (cut bytes).1.map (judgement g) ++ ((cut bytes).2.entries g).map .ofEntry
  recorded : ∃ last, last <+: (cut bytes).2.entries g ∧
    logged events ++ c.awaiting = entries g k events ++ last
  ended : c.phase = .ended → (cut bytes).2 = .oversized ∨ c.closed = true

/-- What a connection on which nothing is lost has done where no step is left to make. -/
structure Completed (g : Gate) (k : Kernel σ δ) (bytes : Bytes) (events : List (Event σ δ))
    (c : Connection δ) : Prop where
  served : Broker.served events = (cut bytes).1
  refused : events.filterMap Event.refusal? = (cut bytes).1.filterMap (refusal? g)
  judged : (logged events).map .ofEntry =
    (cut bytes).1.map (judgement g) ++ ((cut bytes).2.entries g).map .ofEntry
  recorded : logged events = entries g k events ++ (cut bytes).2.entries g
  ended : c.phase = .ended ↔ (cut bytes).2 = .oversized ∨ c.closed = true

namespace Course

variable {i : ℕ} {outlet : Outlet} {moves : List Move} {events : List (Event σ δ)}
  {c c' : Connection δ}

lemma moves_eq (h : Course g k i c moves events c') : moves = events.map (·.turn.move) := by
  induction h with
  | nil c => rfl
  | cons s h ih => exact congrArg (_ :: ·) ih

/-- How the course of a connection ends on which nothing is lost. -/
lemma fate_of_accepted (h : Course g k i (accepted outlet) moves events c) (hf : Faultless events) :
    Fate g (cut (received moves)).1 (cut (received moves)).2 (entries g k events) events c := by
  have hm : .step false ∉ moves := by
    rw [h.moves_eq, List.mem_map]
    rintro ⟨e, he, hlogs⟩
    exact (hf e he).1 hlogs
  exact h.fate hm (Connection.toCome?_accepted outlet moves)

lemma kept (h : Course g k i (accepted outlet) moves events c) (hf : Faultless events) :
    Kept g k (received moves) events c := by
  have hj := h.judgements
  have hrefused (hs : served events <+: (cut (received moves)).1) :
      events.filterMap Event.refusal? <+: (cut (received moves)).1.filterMap (refusal? g) := by
    have hsent := h.refusals hf nofun
    exact (List.prefix_append _ (pending g c)).trans (hsent ▸ hs.filterMap _)
  cases h.fate_of_accepted hf with
  | @alive left hd ht hb hr =>
    have hserved : served events <+: (cut (received moves)).1 := ⟨left, hb.symm⟩
    refine ⟨hserved, hrefused hserved, ?_, ⟨[], List.nil_prefix, ?_⟩, fun hend => ?_⟩
    · rw [hr, List.map_append] at hj
      rw [hb, List.map_append, ← hj, List.append_assoc, List.append_assoc]
      exact List.prefix_append ..
    · rw [List.append_nil, hr]
    · rw [Connection.Final.toCome?_eq_none (.inl hend)] at ht
      cases ht
  | gaveUp hd he hp hb hr =>
    have hserved : served events <+: (cut (received moves)).1 := hb ▸ List.prefix_rfl
    refine ⟨hserved, hrefused hserved, ?_, ⟨_, List.prefix_rfl, ?_⟩, fun _ => .inl he⟩
    · rw [hb, ← hj, he, Ending.entries, ← List.map_append, hr, List.map_append]
      exact List.prefix_append ..
    · rw [he, Ending.entries, hr]
  | finished hd he hc hp hb hr =>
    have hnone : c.awaiting = [] := by simp only [Connection.awaiting, hp]
    have hserved : served events <+: (cut (received moves)).1 := hb ▸ List.prefix_rfl
    refine ⟨hserved, hrefused hserved, ?_, ⟨[], List.nil_prefix, ?_⟩, fun _ => .inr hc⟩
    · rw [hb, ← hj, hr]
      exact List.prefix_append ..
    · rw [hnone, hr]
  | cutOff he hv hp hb hr => exact absurd hv ((hf _ he).2 _)

/-- Where no step is left to make, the connection has ended, or it waits and all frames are served.
-/
lemma served_of_still (h : Course g k i (accepted outlet) moves events c) (hf : Faultless events)
    {s : σ} (hs : c.step? g k true s = none) :
    served events = (cut (received moves)).1 ∧
      logged events = entries g k events ++ (cut (received moves)).2.entries g ∧
      (c.phase = .ended ↔ (cut (received moves)).2 = .oversized ∨ c.closed = true) := by
  have hstill := Connection.step?_eq_none hs
  have hnone : c.awaiting = [] := by
    obtain hp | ⟨hp, -⟩ := hstill <;> simp only [Connection.awaiting, hp]
  cases h.fate_of_accepted hf with
  | @alive left hd ht hb hr =>
    obtain hp | ⟨hp, hopen, hi⟩ := hstill
    · rw [Connection.Final.toCome?_eq_none (.inl hp)] at ht
      cases ht
    · have ha : c.ahead [] = c.segments.flatten := by simp [Connection.ahead, received]
      simp only [Connection.toCome?, hp, ha, Connection.cut_of_incomplete hi, Option.some.injEq,
        Prod.mk.injEq] at ht
      obtain ⟨rfl, he⟩ := ht
      refine ⟨?_, ?_, ?_⟩
      · rw [hb, List.append_nil]
      · rw [hr, hnone, ← he, Ending.entries, List.append_nil, List.append_nil]
      · simp [hp, ← he, hopen]
  | gaveUp hd he hp hb hr =>
    have hend : c.phase = .ended := by
      obtain hend | ⟨hp', -⟩ := hstill
      · exact hend
      · simp [Connection.Final, hp'] at hp
    refine ⟨hb.symm, ?_, ?_⟩
    · rw [he, Ending.entries, hr, hnone, List.append_nil]
    · simp [hend, he]
  | finished hd he hc hp hb hr =>
    refine ⟨hb.symm, ?_, ?_⟩
    · rw [he, hr, Ending.entries, List.append_nil]
    · simp [hp, hc]
  | cutOff he hv hp hb hr => exact absurd hv ((hf _ he).2 _)

lemma completed (h : Course g k i (accepted outlet) moves events c) (hf : Faultless events)
    {s : σ} (hs : c.step? g k true s = none) : Completed g k (received moves) events c := by
  obtain ⟨hserved, hlogged, hended⟩ := h.served_of_still hf hs
  refine ⟨hserved, ?_, ?_, hlogged, hended⟩
  · have hpending : pending g c = [] := by
      obtain hp | ⟨hp, -⟩ := Connection.step?_eq_none hs <;> simp only [pending, hp]
    have hsent := h.refusals hf nofun
    rw [hpending, List.append_nil, hserved] at hsent
    exact hsent.symm
  · rw [hlogged, List.map_append, h.judgements, hserved]

end Course

/-! ### All connections -/

namespace System

/-- No step is left to make on a connection: it waits for its client, or it has ended. -/
def AtRest (g : Gate) (k : Kernel σ δ) (y : System σ δ) (i : ℕ) : Prop :=
  (y.connections i).step? g k true y.state = none

end System

/-- What a connection does in two runs is the same, but for the return codes in what is recorded. -/
structure Alike (g : Gate) (i : ℕ) (events : List (Event σ δ)) (others : List (Event σ' δ)) :
    Prop where
  rulings : rulingsOn g i events = rulingsOn g i others
  refusals : refusalsOn i events = refusalsOn i others
  judgements : (loggedOn i events).map .ofEntry = (loggedOn i others).map Judgement.ofEntry

lemma Faultless.eventsOn {events : List (Event σ δ)} (h : Faultless events) (i : ℕ) :
    Faultless (eventsOn i events) := fun e he => h e (List.mem_of_mem_filter he)

section Comparison

variable {i : ℕ} {bytes : Bytes} {events : List (Event σ δ)} {others : List (Event σ' δ)}
  {c c' : Connection δ} {k' : Kernel σ' δ}

/-- A connection does what it begins with where the same bytes have come and no step is left. -/
lemma Kept.follows (h : Kept g k bytes (eventsOn i events) c)
    (h' : Completed g k' bytes (eventsOn i others) c') : Follows g i events others := by
  refine ⟨?_, ?_, ?_⟩
  · show (Broker.served (eventsOn i events)).map _ <+: (Broker.served (eventsOn i others)).map _
    rw [h'.served]
    exact h.served.map _
  · rw [refusalsOn, refusalsOn, h'.refused]
    exact h.refused
  · rw [loggedOn, loggedOn, h'.judged]
    exact h.judged

lemma Completed.alike (h : Completed g k bytes (eventsOn i events) c)
    (h' : Completed g k' bytes (eventsOn i others) c') : Alike g i events others := by
  refine ⟨?_, ?_, ?_⟩
  · show (Broker.served (eventsOn i events)).map _ = (Broker.served (eventsOn i others)).map _
    rw [h.served, h'.served]
  · rw [refusalsOn, refusalsOn, h.refused, h'.refused]
  · rw [loggedOn, loggedOn, h.judged, h'.judged]

end Comparison

lemma movesOn_alone (i : ℕ) (moves : List Move) : movesOn i (moves.map (Turn.mk i)) = moves := by
  induction moves with
  | nil => rfl
  | cons m moves ih => rw [List.map_cons, movesOn_cons_self ⟨i, m⟩, ih]

namespace System

/-- The end of what a client sends is known on the connection once it is said. -/
lemma run_closed_iff (outlets : ℕ → Outlet) (s : σ) (turns : List Turn) (i : ℕ) :
    (((idle outlets s : System σ δ).run g k turns).1.connections i).closed = true ↔
      .close ∈ movesOn i turns := by
  rw [(run_course turns (idle outlets s) i).closed_iff]
  simp [idle, accepted, Connection.opened]

/-- Where writes go through and links fit, no reply and no entry is lost. -/
lemma run_faultless (hk : k.Fits) {turns : List Turn} (hm : ∀ t ∈ turns, t.move ≠ .step false)
    {y : System σ δ} (hy : ∀ i, (y.connections i).Sound) : Faultless (y.run g k turns).2 := by
  induction turns generalizing y with
  | nil => exact List.forall_mem_nil _
  | cons t turns ih =>
    obtain ⟨ht, hm'⟩ := List.forall_mem_cons.mp hm
    refine List.forall_mem_cons.mpr ⟨⟨ht, ?_⟩, ih hm' fun i => ?_⟩
    · rintro v ⟨hp, ⟨logs, hstep⟩, hlost⟩
      have hp : (y.connections t.index).phase = .replying v := hp
      obtain ⟨scratch, outlet, -, -, -, hseen⟩ :=
        Connection.reply_of_sound (hy t.index) hp y.state
      refine hlost v.descriptor.toList ?_
      have hstep : t.move = .step logs := hstep
      simp only [act, Connection.move, hstep, Connection.step?, hp, Option.getD_some]
      exact hseen
    · by_cases hi : i = t.index
      · subst hi
        have hsound := (Connection.outstanding_move (g := g) hk ht (hy t.index) y.state []).1
        simp only [act, Function.update_self]
        exact hsound
      · simp only [act, Function.update_of_ne hi]
        exact hy i

/-- The steps that are left on a connection come to an end. -/
lemma exists_rest (g : Gate) (k : Kernel σ δ) (i : ℕ) (y : System σ δ) :
    ∃ n, ((y.run g k (List.replicate n ⟨i, .step true⟩)).1).AtRest g k i := by
  induction hn : (y.connections i).remaining using Nat.strong_induction_on generalizing y with
  | _ n ih =>
    subst hn
    cases hr : (y.connections i).step? g k true y.state with
    | none => exact ⟨0, hr⟩
    | some r =>
      have hcon : ((y.act g k ⟨i, .step true⟩).1.connections i) = r.connection := by
        simp only [act, Connection.move, hr, Option.getD_some, Function.update_self]
      obtain ⟨n, hrest⟩ := ih _ (hcon ▸ Connection.remaining_step_lt hr)
        (y.act g k ⟨i, .step true⟩).1 rfl
      exact ⟨n + 1, hrest⟩

/-- A connection can be alone with any bytes, lose nothing and come to where no step is left. -/
lemma exists_alone (hk : k.Fits) (g : Gate) (i : ℕ) (bytes : Bytes) (s : σ) :
    ∃ moves, received moves = bytes ∧
      let alone := (idle (fun _ => {}) s).run g k (moves.map (Turn.mk i))
      Faultless alone.2 ∧ alone.1.AtRest g k i := by
  obtain ⟨n, hrest⟩ :=
    exists_rest g k i ((idle (fun _ => {}) s).act g k ⟨i, .arrive bytes⟩).1
  refine ⟨.arrive bytes :: List.replicate n (.step true), ?_, run_faultless hk ?_ fun j => ?_, ?_⟩
  · rw [received, Connection.received_steps, List.append_nil]
  · intro t ht
    obtain ⟨m, hm, rfl⟩ := List.mem_map.mp ht
    obtain rfl | hm := List.mem_cons.mp hm
    · simp
    · rw [List.eq_of_mem_replicate hm]
      simp
  · exact ⟨⟨rfl, by simp [idle, accepted]⟩, fun v hreplying => by cases hreplying⟩
  · rw [List.map_cons, List.map_replicate]
    exact hrest

/-- **Connections do not disturb one another.** In a run of any number of connections on which no
reply and no entry is lost, whatever the clients send, however the moves are mixed and whatever the
kernel does, the state of the kernel changes only where an approval is carried out, and the log is
made up of what is recorded on each connection, in its order. On each connection, every entry that
is made is recorded or about to be, and a header that announces too long a body adds one at the end;
the connection ends because of what its own client sends. Compare it with a run, over any kernel, in
which it is alone and gets the same bytes, and in which no step is left to make: what it does is
what it begins with there, in the decisions with their arguments, in the refusals with their
replies, and in what is recorded but for return codes; and it is the same if no step is left to make
here either. There is such a run over the same kernel, unless links can be too long to be told. -/
theorem connections_independent (g : Gate) (k : Kernel σ δ) (outlets : ℕ → Outlet) (s : σ)
    (turns : List Turn) (hf : Faultless ((idle outlets s).run g k turns).2) :
    let run := (idle outlets s).run g k turns
    (∀ e ∈ run.2, e.Obeys g k) ∧
      Interleaving (fun i => loggedOn i run.2) (logged run.2) ∧
      ∀ i,
        let c := run.1.connections i
        let ending := (cut (received (movesOn i turns))).2
        (∃ last, last <+: ending.entries g ∧
          loggedOn i run.2 ++ c.awaiting = entriesOn g k i run.2 ++ last) ∧
        (run.1.AtRest g k i →
          loggedOn i run.2 = entriesOn g k i run.2 ++ ending.entries g) ∧
        (c.phase = .ended → ending = .oversized ∨ .close ∈ movesOn i turns) ∧
        (run.1.AtRest g k i → ending = .oversized ∨ .close ∈ movesOn i turns → c.phase = .ended) ∧
        (k.Fits → ∃ moves, received moves = received (movesOn i turns) ∧
          let alone := (idle (fun _ => {}) s).run g k (moves.map (Turn.mk i))
          Faultless alone.2 ∧ alone.1.AtRest g k i) ∧
        ∀ (σ' : Type) (k' : Kernel σ' δ) (outlets' : ℕ → Outlet) (s' : σ') (moves : List Move),
          let alone := (idle outlets' s').run g k' (moves.map (Turn.mk i))
          received moves = received (movesOn i turns) → Faultless alone.2 →
            alone.1.AtRest g k' i →
            Follows g i run.2 alone.2 ∧ (run.1.AtRest g k i → Alike g i run.2 alone.2) := by
  intro run
  refine ⟨run_obeys turns _, interleaving_logged _, fun i => ?_⟩
  have hcourse := run_course (g := g) (k := k) turns (idle outlets s) i
  have hkept := hcourse.kept (hf.eventsOn i)
  have hcompleted (hr : run.1.AtRest g k i) := hcourse.completed (hf.eventsOn i) hr
  have hclosed := run_closed_iff (g := g) (k := k) outlets s turns i
  refine ⟨hkept.recorded, fun hr => (hcompleted hr).recorded, fun hend => ?_, fun hr hend => ?_,
    fun hk => exists_alone hk g i _ s, ?_⟩
  · rw [← hclosed]
    exact hkept.ended hend
  · rw [← hclosed] at hend
    exact (hcompleted hr).ended.mpr hend
  · intro σ' k' outlets' s' moves alone hreceived hf' hr'
    have hcourse' := run_course (g := g) (k := k') (moves.map (Turn.mk i)) (idle outlets' s') i
    rw [movesOn_alone] at hcourse'
    have hcompleted' := hcourse'.completed (hf'.eventsOn i) hr'
    rw [hreceived] at hcompleted'
    exact ⟨hkept.follows hcompleted', fun hr => (hcompleted hr).alike hcompleted'⟩

/-- Two clients ask for the link `/a`, whose target grows each time that it is read. The first also
sends a body that holds no request, and the second a header that is too large. The first is told of
a longer link than it would be alone; it is refused alike, and it stays when the second is gone. -/
theorem link_readers_independent :
    let k : Kernel ℕ Unit := ⟨fun
      | .readlink _ room, n => (.ok ((List.replicate n 98).take room), n + 1)
      | _, n => (.error .notFound, n)⟩
    let path : Path := ⟨[47, 97], by decide⟩
    let g : Gate := ⟨.all, .notPermitted, [⟨path, .readOnly, false, by decide, by decide⟩]⟩
    let asks : Move := .arrive [13, 0, 0, 0, 1, 3, 0, 0, 0, 2, 3, 0, 0, 0, 47, 97, 0]
    let steps (i n : ℕ) : List Turn := List.replicate n ⟨i, .step true⟩
    let turns : List Turn := [⟨0, asks⟩, ⟨1, asks⟩] ++ steps 1 3 ++ [⟨1, .arrive [1, 16, 0, 0]⟩] ++
      steps 0 2 ++ steps 1 3 ++ steps 0 2 ++ [⟨0, .arrive [1, 0, 0, 0, 9]⟩] ++ steps 0 4
    let moves : List Move := [asks, .arrive [1, 0, 0, 0], .arrive [9]] ++
      List.replicate 8 (.step true)
    let run := (idle (fun _ => {}) 1).run g k turns
    let alone := (idle (fun _ => {}) 1).run g k (moves.map (Turn.mk 0))
    Faultless run.2 ∧ Faultless alone.2 ∧ received moves = received (movesOn 0 turns) ∧
      run.1.AtRest g k 0 ∧ alone.1.AtRest g k 0 ∧ (run.1.connections 1).phase = .ended ∧
      (run.1.connections 0).phase = .receiving ∧
      (loggedOn 0 run.2).map (·.returnCode) = [2, -1] ∧
      (loggedOn 0 alone.2).map (·.returnCode) = [1, -1] ∧ Alike g 0 run.2 alone.2 := by
  intro k path g asks steps turns moves run alone
  have hk : k.Fits := by
    intro path room n target h
    obtain rfl : (List.replicate n 98).take room = target := Except.ok.inj h
    exact List.length_take_le ..
  have hy (i : ℕ) : ((idle (fun _ => {}) 1 : System ℕ Unit).connections i).Sound :=
    ⟨⟨rfl, by simp [idle, accepted]⟩, nofun⟩
  have hf : Faultless run.2 := run_faultless hk (by decide) hy
  have hf' : Faultless alone.2 := run_faultless hk (by decide) hy
  have hreceived : received moves = received (movesOn 0 turns) := by rfl
  have hr : run.1.AtRest g k 0 := Option.isNone_iff_eq_none.mp (by decide +kernel)
  have hr' : alone.1.AtRest g k 0 := Option.isNone_iff_eq_none.mp (by decide +kernel)
  obtain ⟨-, -, hrun⟩ := connections_independent g k (fun _ => {}) 1 turns hf
  obtain ⟨-, -, -, -, -, halone⟩ := hrun 0
  refine ⟨hf, hf', hreceived, hr, hr', by decide +kernel, by decide +kernel, by decide +kernel,
    by decide +kernel, ?_⟩
  exact (halone ℕ k (fun _ => {}) 1 moves hreceived hf' hr').2 hr

end System

end Broker

end FileBroker
