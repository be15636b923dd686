/-
Clients that ask the broker's gate before they send anything.

Such a client should notice nothing but the time it saves: what it refuses itself the broker would
have denied, with the same error and without an effect, and everything else it sends as it would
have done anyway. The one difference is that the gate is asked before the length is looked at.

* `inOrder_related`: two ways of doing the same things in order.
* `Query.answered_alike`: what a call gives, with the check and without.
* `Query.Alike`: results of the same call with the check and without.
* `Query.Checked`: what the check does to a call before anything is sent.
* `Conversation.fast_check_transparent`: the check is transparent.
-/
import FileBroker.Proofs.Conversations

namespace FileBroker

open FileBroker.Connection (frame)
open FileBroker.Stream (bytesOf)

variable {σ δ : Type} {g : Gate} {k : Kernel σ δ}

/-- If two ways of doing one thing leave the same state and give related results, so do both ways of
doing several things in order. -/
lemma inOrder_related {α β τ : Type} {f f' : α → τ → β × τ} {R : α → β → β → Prop}
    (hstate : ∀ a t, (f a t).2 = (f' a t).2) (hresult : ∀ a t, R a (f a t).1 (f' a t).1)
    (as : List α) (t : τ) :
    (inOrder f as t).2 = (inOrder f' as t).2 ∧
      ∀ (i : ℕ) (a : α), as[i]? = some a → ∃ b b', (inOrder f as t).1[i]? = some b ∧
        (inOrder f' as t).1[i]? = some b' ∧ R a b b' := by
  induction as generalizing t with
  | nil => exact ⟨rfl, fun i a h => by simp at h⟩
  | cons a as ih =>
    obtain ⟨hlast, hall⟩ := ih (f a t).2
    rw [hstate] at hlast
    refine ⟨?_, fun i a' hi => ?_⟩
    · rw [inOrder, inOrder, hstate, hlast]
    · cases i with
      | zero =>
        obtain rfl : a = a' := by simpa using hi
        exact ⟨_, _, rfl, rfl, hresult a t⟩
      | succ i =>
        obtain ⟨b, b', hb, hb', hR⟩ := hall i a' hi
        refine ⟨b, b', hb, ?_, hR⟩
        rw [hstate] at hb'
        exact hb'

/-! ### One call -/

namespace Client

/-- A client with the check refuses itself what the gate refuses. -/
lemma refuses_checking_iff (r : Request) :
    Refuses ⟨g, true⟩ r ↔ ∃ reason, g.evaluate r = .error reason := by
  simp [Refuses]

/-- For a request that the gate lets pass the same is done with the check and without. -/
lemma prepare_of_approved {r : Request} {a : Approval} (h : g.evaluate r = .ok a) :
    prepare ⟨g, true⟩ r = prepare ⟨g, false⟩ r := by
  have hr : (g.check r).allowed = true := by
    by_contra hn
    obtain ⟨reason, he⟩ := (g.check_allowed_iff r).mp (by simpa using hn)
    simp [he] at h
  simp [prepare, hr]

end Client

namespace Query

/-- Results of a call with the check and without are the same if the request fits. One that does not
fit is too long without the check; with it, it is too long only if the gate lets it pass, and
denied otherwise. -/
structure Alike (g : Gate) (q : Query) (on off : Except Errno (Client.Answer δ)) : Prop where
  fits : q.request.wireSize ≤ Wire.capacity → on = off
  long : Wire.capacity < q.request.wireSize → off = .error .nameTooLong
  long_refused : Wire.capacity < q.request.wireSize →
    ∀ reason, g.evaluate q.request = .error reason → on = .error g.policy.deniedErrno
  long_approved : Wire.capacity < q.request.wireSize →
    ∀ a, g.evaluate q.request = .ok a → on = .error .nameTooLong

/-- With the check or without, a call leaves the same state and gives like results. -/
lemma answered_alike (hd : 0 < g.policy.deniedErrno.code) (q : Query) (s : σ) :
    (q.answered ⟨g, true⟩ g k s).2 = (q.answered ⟨g, false⟩ g k s).2 ∧
      q.Alike g (q.answered ⟨g, true⟩ g k s).1 (q.answered ⟨g, false⟩ g k s).1 := by
  have hoff : ¬ Client.Refuses ⟨g, false⟩ q.request := Client.not_refuses rfl q.request
  cases he : g.evaluate q.request with
  | error reason =>
    have hon : Client.Refuses ⟨g, true⟩ q.request :=
      (Client.refuses_checking_iff q.request).mpr ⟨reason, he⟩
    rw [answered_of_refuses hon]
    obtain hl | hl := Nat.lt_or_ge Wire.capacity q.request.wireSize
    · -- the gate is asked before the length is looked at
      rw [answered_of_long hoff hl]
      refine ⟨rfl, fun h => absurd hl (Nat.not_lt.mpr h), fun _ => rfl, fun _ _ _ => rfl, ?_⟩
      intro _ a ha
      simp [he] at ha
    · rw [answered_of_denied hd hoff hl he]
      have hn := Nat.not_lt.mpr hl
      exact ⟨rfl, fun _ => rfl, fun h => absurd h hn, fun h => absurd h hn, fun h => absurd h hn⟩
  | ok a =>
    have hsame : q.answered ⟨g, true⟩ g k s = q.answered ⟨g, false⟩ g k s := by
      rw [answered, answered, Client.prepare_of_approved he]
    have hlong (h : Wire.capacity < q.request.wireSize) :
        (q.answered ⟨g, false⟩ g k s).1 = .error .nameTooLong := by
      rw [answered_of_long hoff h]
    rw [hsame]
    refine ⟨rfl, fun _ => rfl, hlong, ?_, fun h _ _ => hlong h⟩
    intro _ reason hr
    simp [he] at hr

/-- What the check does to a call on a connection. A call that the gate refuses ends at once, nothing
is sent for it and nothing received; any other goes on as without the check, where it ends at once if
it is too long. If it fits, it is what would be sent that decides. -/
structure Checked (g : Gate) (q : Query) (line : Client.Line δ) : Prop where
  refused : ∀ reason, g.evaluate q.request.onWire = .error reason →
    Client.call ⟨g, true⟩ q.request q.buffer line = ⟨.error g.policy.deniedErrno, [], line⟩
  approved : ∀ a, g.evaluate q.request.onWire = .ok a →
    Client.call ⟨g, true⟩ q.request q.buffer line = Client.call ⟨g, false⟩ q.request q.buffer line
  long : Wire.capacity < q.request.wireSize →
    Client.call ⟨g, false⟩ q.request q.buffer line = ⟨.error .nameTooLong, [], line⟩
  at_once_iff : q.request.wireSize ≤ Wire.capacity → line.outlet.Patient .interrupted →
    let called := Client.call ⟨g, true⟩ q.request q.buffer line
    (bytesOf called.sent = [] ∧ called.line = line ↔
      ∃ reason, g.evaluate q.request.onWire = .error reason)

/-- A call that the gate lets pass is sent if it fits, with the check as without. -/
lemma sent_of_approved {q : Query} {a : Approval} (he : g.evaluate q.request = .ok a)
    (hl : q.request.wireSize ≤ Wire.capacity) {line : Client.Line δ}
    (ho : line.outlet.Patient .interrupted) :
    bytesOf (Client.call ⟨g, true⟩ q.request q.buffer line).sent =
      frame q.request.onWire.bytes := by
  have hr : ¬ Client.Refuses ⟨g, true⟩ q.request := by
    rw [Client.refuses_checking_iff]
    simp [he]
  have hp := Client.prepare_of_fits hr (q.request.onWire_bytes_length.trans_le hl)
  obtain ⟨errno, hp', -⟩ | ⟨message, chunks, outlet, hp', -, hbytes, hcall⟩ :=
    Client.call_cases ⟨g, true⟩ q ho
  · simp [hp] at hp'
  · obtain rfl := Except.ok.inj (hp.symm.trans hp')
    rw [hcall]
    exact hbytes

lemma checked (g : Gate) (q : Query) (line : Client.Line δ) : q.Checked g line := by
  have hrefused (reason : Refusal) (he : g.evaluate q.request = .error reason) :
      Client.call ⟨g, true⟩ q.request q.buffer line = ⟨.error g.policy.deniedErrno, [], line⟩ :=
    Client.call_of_error
      (Client.prepare_of_refuses ((Client.refuses_checking_iff q.request).mpr ⟨reason, he⟩)) line
  refine ⟨fun reason he => ?_, fun a he => ?_, fun hl => ?_, fun hl ho => ⟨fun h => ?_, ?_⟩⟩
  · rw [g.evaluate_onWire] at he
    exact hrefused reason he
  · rw [g.evaluate_onWire] at he
    rw [Client.call, Client.call, Client.prepare_of_approved he]
  · exact Client.call_of_error (Client.prepare_of_long (Client.not_refuses rfl q.request) hl) line
  · rw [g.evaluate_onWire]
    cases he : g.evaluate q.request with
    | error reason => exact ⟨reason, rfl⟩
    | ok a =>
      -- a frame is never empty
      exact absurd ((sent_of_approved he hl ho).symm.trans h.1) (Connection.frame_ne_nil _)
  · rintro ⟨reason, he⟩
    rw [g.evaluate_onWire] at he
    rw [hrefused reason he]
    exact ⟨rfl, rfl⟩

end Query

/-- **The fast check is transparent.** Of the same calls on the same state, made with the check and
without it, through a broker with the same gate and however either goes on, each gives the same
result if it fits, and the same state is left. A call that does not fit ends at once in both, but
with the check it is denied if the gate refuses it. With the check a call ends at once, and nothing
is sent or received, if the gate refuses what would be sent; what it lets pass is sent, and the call
goes on as without the check. -/
theorem Conversation.fast_check_transparent (hk : k.Fits) (hd : 0 < g.policy.deniedErrno.code)
    {queries : List Query} {s : σ} (on : Conversation g k ⟨g, true⟩ queries s)
    (off : Conversation g k ⟨g, false⟩ queries s) :
    on.system = off.system ∧
      (∀ (i : ℕ) (q : Query), queries[i]? = some q → ∃ r r', on.results[i]? = some r ∧
        off.results[i]? = some r' ∧ q.Alike g r r') ∧
      ∀ (q : Query) (line : Client.Line δ), q.Checked g line := by
  obtain ⟨honr, hons, -, -⟩ := on.course hk
  obtain ⟨hoffr, hoffs, -, -⟩ := off.course hk
  obtain ⟨hsystem, hresults⟩ := inOrder_related (R := fun q r r' => q.Alike g r r')
    (fun q s => (Query.answered_alike (k := k) hd q s).1)
    (fun q s => (Query.answered_alike (k := k) hd q s).2) queries s
  rw [honr, hons, hoffr, hoffs]
  exact ⟨hsystem, hresults, fun q line => q.checked g line⟩

/-- A link is read, and a renaming that is not served is too long: denied with the check, and too long
without. -/
theorem Conversation.fast_check_transparent_of_link_reader :
    let k : Kernel Unit Unit := ⟨fun
      | .readlink _ room, s => (.ok ([98, 99, 100].take room), s)
      | _, s => (.error .notFound, s)⟩
    let link : Path := ⟨[47, 97], by decide⟩
    let long : Path := ⟨47 :: List.replicate 4096 97,
      by rw [List.mem_cons, List.mem_replicate]; decide⟩
    let g : Gate := ⟨.ofList [.readlink], .accessDenied,
      [⟨link, .readOnly, false, by decide, by decide⟩]⟩
    let queries : List Query := [⟨.readlink link, [0, 0]⟩, ⟨.rename long link, []⟩]
    k.Fits ∧ 0 < g.policy.deniedErrno.code ∧
      ∃ (on : Conversation g k ⟨g, true⟩ queries ()) (off : Conversation g k ⟨g, false⟩ queries ()),
        on.results[0]? = off.results[0]? ∧ on.results[1]? = some (.error .accessDenied) ∧
          off.results[1]? = some (.error .nameTooLong) := by
  intro k link long g queries
  have hk : k.Fits := by
    intro path room s target h
    obtain rfl : [98, 99, 100].take room = target := Except.ok.inj h
    exact List.length_take_le ..
  have hd : 0 < g.policy.deniedErrno.code := by decide
  obtain ⟨on⟩ := Conversation.nonempty g k ⟨g, true⟩ queries ()
  obtain ⟨off⟩ := Conversation.nonempty g k ⟨g, false⟩ queries ()
  obtain ⟨-, hall, -⟩ := Conversation.fast_check_transparent hk hd on off
  obtain ⟨r, r', hr, hr', hlink⟩ := hall 0 ⟨.readlink link, [0, 0]⟩ rfl
  obtain ⟨l, l', hl, hl', hrename⟩ := hall 1 ⟨.rename long link, []⟩ rfl
  have hlong : long.bytes.length = 4097 := by
    rw [List.length_cons, List.length_replicate]
  have hsize : Wire.capacity < (Request.rename long link).wireSize := by
    rw [Request.wireSize, Request.paths, List.map_cons, List.sum_cons, hlong, Wire.capacity]
    omega
  have hrefused : g.evaluate (.rename long link) = .error .commandDisabled := by rfl
  refine ⟨hk, hd, on, off, ?_, ?_, ?_⟩
  · rw [hr, hr', hlink.fits (by decide)]
  · rw [hl, hrename.long_refused hsize _ hrefused]
  · rw [hl', hrename.long hsize]

end FileBroker
