/-
Replies that come late.

A client tells by their order alone to which of its requests a reply belongs. A call that has sent
its request may give up before the reply is there, and the client can be used again; the reply then
comes to a later call. So the reply that a call gets is the broker's answer to its own request as
long as no call before it has sent something and gone without a reply, and not beyond that.

* `Stream.Brings`, `Stream.receiveFrame_eq_ok`: what is taken from a stream for a frame.
* `Client.Timed`, `Client.timedCalls`: calls, each with what arrives until it ends.
* `Client.Heard.Tidy`, `Client.heard_in_order`: the frames that are heard are the answers, in order.
* `Client.reply_is_own`: a call gets its own reply if every call before it got one.
* `Client.late_reply_taken`: a call takes the reply of the call before it.
-/
import FileBroker.Proofs.Conversations

namespace FileBroker

open FileBroker.Connection (cut)

variable {δ : Type}

/-! ### Frames that are taken from a stream -/

namespace Stream

/-- The cargo of a frame: the descriptor comes with the first byte. -/
def Frame.cargo (f : Frame δ) : List (UInt8 × List δ) :=
  laden (Connection.frame f.body) f.descriptor.toList

/-- Some cargo brings a frame: its bytes are those of the frame, and the frame has the first of the
descriptors that come with them. -/
structure Brings (taken : List (UInt8 × List δ)) (f : Frame δ) : Prop where
  bytes : taken.map Prod.fst = Connection.frame f.body
  short : f.body.length ≤ Wire.capacity
  descriptor : f.descriptor = (taken.flatMap Prod.snd).head?

/-- A receive that is interrupted takes nothing. -/
lemma cargo_of_interrupted {ended : Bool} {want : ℕ} (hw : 0 < want)
    {arrivals rest : List (Arrival δ)}
    (h : receiveFrom ended want arrivals = (.interrupted, rest)) : cargo rest = cargo arrivals := by
  obtain ⟨rest', hr, hc⟩ | ⟨hr, -⟩ | ⟨_, _, -, -, -, hr⟩ := receiveFrom_cases ended hw arrivals
  · rw [hr] at h
    cases h
    exact hc
  · rw [hr] at h
    split at h <;> cases h
  · rw [hr] at h
    split at h <;> cases h

/-- What a receive delivers comes from the front of the cargo. -/
lemma cargo_of_delivered {ended : Bool} {want : ℕ} (hw : 0 < want)
    {arrivals rest : List (Arrival δ)} {bytes : Bytes} {descriptors : List δ}
    (h : receiveFrom ended want arrivals = (.delivered bytes descriptors, rest)) :
    ∃ taken, cargo arrivals = taken ++ cargo rest ∧ taken.length ≤ want ∧
      bytes = taken.map Prod.fst ∧ descriptors = taken.flatMap Prod.snd := by
  obtain ⟨_, hr, -⟩ | ⟨hr, -⟩ | ⟨taken, rest', -, hle, hc, hr⟩ :=
    receiveFrom_cases ended hw arrivals
  · rw [hr] at h
    cases h
  · rw [hr] at h
    split at h <;> cases h
  · rw [hr] at h
    split at h
    · cases h
    · cases h
      exact ⟨taken, hc, hle, rfl, rfl⟩

/-- Bytes that were filled in come from the front of the cargo. -/
lemma fill_eq_ok {want : ℕ} {fd fd' : Option δ} {s s' : Inlet δ} {bytes : Bytes}
    (h : fill want fd s = (.ok (bytes, fd'), s')) :
    ∃ taken, cargo s.arrivals = taken ++ cargo s'.arrivals ∧ taken.map Prod.fst = bytes ∧
      bytes.length = want ∧ fd' = (fd <|> (taken.flatMap Prod.snd).head?) := by
  fun_induction fill want fd s generalizing bytes fd' s' with
  | case1 fd s =>
    cases h
    refine ⟨[], rfl, rfl, rfl, ?_⟩
    cases fd <;> rfl
  | case2 want fd s hw rest hr _ ih =>
    obtain ⟨taken, hcargo, hbytes, hlen, hfd⟩ := ih h
    refine ⟨taken, ?_, hbytes, hlen, hfd⟩
    rw [← cargo_of_interrupted (Nat.pos_of_ne_zero hw) hr]
    exact hcargo
  | case3 => cases h
  | case4 => cases h
  | case5 want fd s hw bytes' descriptors rest hr _ _ more fd'' s'' hf ih =>
    cases h
    obtain ⟨taken, hcargo, hbytes, hlen, hfd⟩ := ih hf
    obtain ⟨first, hc, hle, rfl, rfl⟩ := cargo_of_delivered (Nat.pos_of_ne_zero hw) hr
    refine ⟨first ++ taken, ?_, ?_, ?_, ?_⟩
    · rw [hc, List.append_assoc]
      exact congrArg _ hcargo
    · rw [List.map_append, hbytes]
    · rw [List.length_append, hlen, List.length_map]
      omega
    · rw [hfd, List.flatMap_append, List.head?_append]
      cases fd <;> cases (first.flatMap Prod.snd).head? <;> rfl
  | case6 => cases h

/-- A frame that was received comes from the front of the cargo. -/
lemma receiveFrame_eq_ok {s s' : Inlet δ} {f : Frame δ} (h : receiveFrame s = (.ok f, s')) :
    ∃ taken, cargo s.arrivals = taken ++ cargo s'.arrivals ∧ Brings taken f := by
  rw [receiveFrame] at h
  split at h
  · cases h
  · next header fd rest hheader =>
    obtain ⟨first, hfirst, hbytes, hlen, hfd⟩ := fill_eq_ok hheader
    split at h
    · cases h
    · next length hlength =>
      split at h
      · cases h
      · next body fd' rest' hbody =>
        cases h
        obtain ⟨second, hsecond, hbytes', hlen', hfd'⟩ := fill_eq_ok hbody
        rw [Connection.bodyLength_eq hlen] at hlength
        split at hlength
        · next hshort =>
          obtain rfl := Except.ok.inj hlength
          refine ⟨first ++ second, ?_, ?_, ?_, ?_⟩
          · rw [hfirst, hsecond, List.append_assoc]
          · rw [List.map_append, hbytes, hbytes', Connection.frame, hlen',
              Connection.wordBytes_littleEndian hlen]
          · rw [hlen']
            exact hshort
          · rw [hfd', hfd, List.flatMap_append, List.head?_append]
            cases (first.flatMap Prod.snd).head? <;> rfl
        · cases hlength

/-- What is taken from the front of a frame's cargo for a frame is all of it, and brings that
frame. -/
lemma Brings.eq_of_prefix {taken post : List (UInt8 × List δ)} {f a : Frame δ} (h : Brings taken f)
    (ha : a.body.length ≤ Wire.capacity) (hp : taken <+: a.cargo ++ post) :
    f = a ∧ taken = a.cargo := by
  obtain ⟨rest, hrest⟩ := hp
  have hbytes : Connection.frame f.body ++ rest.map Prod.fst =
      Connection.frame a.body ++ post.map Prod.fst := by
    have hall := congrArg (List.map Prod.fst) hrest
    rw [List.map_append, List.map_append, h.bytes, Frame.cargo, laden_bytes] at hall
    exact hall
  -- frames tell their own length, so both begin with the same one
  have hcut := congrArg Connection.cut hbytes
  rw [Connection.cut_frame_append h.short, Connection.cut_frame_append ha] at hcut
  have hbody : f.body = a.body := (List.cons.inj (congrArg Prod.fst hcut)).1
  have hlen : taken.length = a.cargo.length := by
    rw [Frame.cargo, laden_length, ← hbody, ← h.bytes, List.length_map]
  have htaken : taken = a.cargo := List.append_inj_left hrest hlen
  have hfd : f.descriptor = a.descriptor := by
    rw [h.descriptor, htaken, Frame.cargo, laden_descriptors (Connection.frame_ne_nil a.body)]
    cases a.descriptor <;> rfl
  refine ⟨?_, htaken⟩
  obtain ⟨body, fd⟩ := f
  obtain ⟨body', fd'⟩ := a
  subst hbody hfd
  rfl

/-- Frames that are taken one after another from the cargo of others are the first of these. -/
lemma heard_prefix {takens : List (List (UInt8 × List δ))} {heard answers : List (Frame δ)}
    (h : List.Forall₂ Brings takens heard) (ha : ∀ a ∈ answers, a.body.length ≤ Wire.capacity)
    (hp : takens.flatten <+: answers.flatMap Frame.cargo) : heard <+: answers := by
  induction h generalizing answers with
  | nil => exact List.nil_prefix
  | @cons taken f takens heard hf h ih =>
    cases answers with
    | nil =>
      -- a frame has at least its header
      have hnone : taken = [] := (List.append_eq_nil_iff.mp (List.prefix_nil.mp hp)).1
      have hbytes := hf.bytes
      rw [hnone] at hbytes
      exact absurd hbytes.symm (Connection.frame_ne_nil f.body)
    | cons a answers =>
      obtain ⟨hshort, ha'⟩ := List.forall_mem_cons.mp ha
      rw [List.flatten_cons, List.flatMap_cons] at hp
      obtain ⟨rfl, rfl⟩ := hf.eq_of_prefix hshort ((List.prefix_append ..).trans hp)
      have hp' := (List.prefix_append_right_inj _).mp hp
      exact (List.prefix_append_right_inj [f]).mpr (ih ha' hp')

end Stream

/-! ### Calls that may give up -/

open FileBroker.Stream (Arrival Brings Frame Inlet Outlet bytesOf cargo receiveFrame)

/-- Doing one thing more after some things. -/
lemma inOrder_concat {α β τ : Type} (f : α → τ → β × τ) (as : List α) (a : α) (t : τ) :
    (inOrder f (as ++ [a]) t).1 = (inOrder f as t).1 ++ [(f a (inOrder f as t).2).1] := by
  induction as generalizing t with
  | nil => rfl
  | cons a' as ih => exact congrArg (_ :: ·) (ih (f a' t).2)

/-- The answers of a broker that answers each frame it receives: the answer to a frame may depend on
the frames before it. -/
def answered (respond : List Bytes → Bytes → Frame δ) : List Bytes → List Bytes → List (Frame δ)
  | _, [] => []
  | before, body :: bodies => respond before body :: answered respond (before ++ [body]) bodies

lemma answered_concat (respond : List Bytes → Bytes → Frame δ) (before bodies : List Bytes)
    (body : Bytes) : answered respond before (bodies ++ [body]) =
      answered respond before bodies ++ [respond (before ++ bodies) body] := by
  induction bodies generalizing before with
  | nil => rw [List.append_nil]; rfl
  | cons first bodies ih =>
    rw [List.cons_append, answered, answered, ih, List.append_assoc]
    rfl

lemma answered_length (respond : List Bytes → Bytes → Frame δ) (before bodies : List Bytes) :
    (answered respond before bodies).length = bodies.length := by
  induction bodies generalizing before with
  | nil => rfl
  | cons body bodies ih => rw [answered, List.length_cons, List.length_cons, ih]

/-- The answers are as long as the broker makes them. -/
lemma answered_short {respond : List Bytes → Bytes → Frame δ} {n : ℕ}
    (h : ∀ before body, (respond before body).body.length ≤ n) (before bodies : List Bytes) :
    ∀ a ∈ answered respond before bodies, a.body.length ≤ n := by
  induction bodies generalizing before with
  | nil => exact List.forall_mem_nil _
  | cons body bodies ih => exact List.forall_mem_cons.mpr ⟨h before body, ih _⟩

namespace Client

/-- A call, and what arrives after the call before it and until it has its reply or gives up. -/
structure Timed (δ : Type) where
  arrivals : List (Arrival δ)
  query : Query

/-- What became of such a call: what it found on its way to the client, what came of it, and the
frame that it took for its reply, if it took one. -/
structure Heard (δ : Type) where
  found : Inlet δ
  called : Called δ
  frame? : Option (Frame δ)

/-- The frame that a call takes for its reply. -/
def heard? (c : Client) (q : Query) (line : Line δ) : Option (Frame δ) :=
  match c.prepare q.request with
  | .error _ => none
  | .ok message =>
    match (line.outlet.send .interrupted message.frame (none : Option δ)).1 with
    | .error _ => none
    | .ok () => (receiveFrame line.inlet).1.toOption

/-- A call, with what arrives until it ends. -/
def timed (c : Client) (x : Timed δ) (line : Line δ) : Heard δ × Line δ :=
  let found : Inlet δ := { line.inlet with arrivals := line.inlet.arrivals ++ x.arrivals }
  let called := c.call x.query.request x.query.buffer { line with inlet := found }
  (⟨found, called, c.heard? x.query { line with inlet := found }⟩, called.line)

/-- Calls one after another, each with what arrives until it ends. -/
def timedCalls (c : Client) : List (Timed δ) → Line δ → List (Heard δ) × Line δ :=
  inOrder c.timed

namespace Heard

/-- The bytes that a call has sent. -/
def sent (v : Heard δ) : Bytes := bytesOf v.called.sent

/-- A call that has sent nothing, or has taken a frame for its reply. -/
def Settled (v : Heard δ) : Prop := v.sent = [] ∨ v.frame?.isSome = true

/-- A call that has sent a frame or nothing, and has taken a frame or nothing. -/
structure Tidy (v : Heard δ) : Prop where
  sends : v.sent = [] ∨ ∃ body, body.length ≤ Wire.capacity ∧ v.sent = Connection.frame body
  takes : v.frame?.isSome = true ∨ cargo v.called.line.inlet.arrivals = cargo v.found.arrivals

end Heard

/-- A call that takes a frame has sent its own, and means by it what the frame tells. -/
lemma call_of_heard {c : Client} {q : Query} {line : Line δ} {f : Frame δ}
    (h : c.heard? q line = some f) :
    ∃ body, c.body? q = some body ∧
      bytesOf (c.call q.request q.buffer line).sent = Connection.frame body ∧
      receiveFrame line.inlet = (.ok f, (c.call q.request q.buffer line).line.inlet) ∧
      (c.call q.request q.buffer line).result = interpret q.request q.buffer f := by
  rw [heard?] at h
  cases hp : c.prepare q.request with
  | error errno => simp [hp] at h
  | ok message =>
    rcases hsend : line.outlet.send .interrupted message.frame (none : Option δ) with
      ⟨errno | done, chunks, outlet⟩
    · simp [hp, hsend] at h
    · rcases hframe : receiveFrame line.inlet with ⟨fault | frame, inlet⟩
      · simp [hp, hsend, hframe, Except.toOption] at h
      · obtain rfl : frame = f := by simpa [hp, hsend, hframe, Except.toOption] using h
        obtain ⟨-, hall, -⟩ := Stream.Outlet.send_prefix hsend
        refine ⟨message.body, by simp only [body?, hp], ?_, ?_, ?_⟩
        · simp only [call, hp, hsend]
          exact hall rfl
        · simp only [call, hp, hsend, conclude, hframe]
        · simp only [call, hp, hsend, conclude, hframe]

/-- A call that sends nothing takes nothing. -/
lemma call_of_silent {c : Client} {q : Query} {line : Line δ}
    (h : bytesOf (c.call q.request q.buffer line).sent = []) :
    c.heard? q line = none ∧ (c.call q.request q.buffer line).line.inlet = line.inlet := by
  rw [heard?]
  cases hp : c.prepare q.request with
  | error errno => simp only [call, hp, and_self]
  | ok message =>
    rcases hsend : line.outlet.send .interrupted message.frame (none : Option δ) with
      ⟨errno | done, chunks, outlet⟩
    · simp only [call, hp, hsend, and_self]
    · obtain ⟨-, hall, -⟩ := Stream.Outlet.send_prefix hsend
      simp only [call, hp, hsend] at h
      exact absurd ((hall rfl).symm.trans h) (Connection.frame_ne_nil message.body)

/-- A call that succeeds has taken a frame. -/
lemma heard_of_ok {c : Client} {q : Query} {line : Line δ} {answer : Answer δ}
    (h : (c.call q.request q.buffer line).result = .ok answer) :
    (c.heard? q line).isSome = true := by
  rw [heard?]
  cases hp : c.prepare q.request with
  | error errno => simp [call, hp] at h
  | ok message =>
    rcases hsend : line.outlet.send .interrupted message.frame (none : Option δ) with
      ⟨errno | done, chunks, outlet⟩
    · simp [call, hp, hsend] at h
    · rcases hframe : receiveFrame line.inlet with ⟨fault | frame, inlet⟩
      · simp only [call, hp, hsend, conclude, hframe] at h
        cases fault <;> cases h
      · simp [hsend, Except.toOption]

lemma Heard.Settled.tidy {c : Client} {x : Timed δ} {line : Line δ}
    (h : (c.timed x line).1.Settled) : (c.timed x line).1.Tidy := by
  by_cases hf : (c.timed x line).1.frame?.isSome = true
  · obtain ⟨f, hf'⟩ := Option.isSome_iff_exists.mp hf
    obtain ⟨body, hbody, hsent, -, -⟩ := call_of_heard hf'
    exact ⟨.inr ⟨body, body?_length_le hbody, hsent⟩, .inl hf⟩
  · have hsent : (c.timed x line).1.sent = [] := h.resolve_right hf
    exact ⟨.inl hsent, .inr (congrArg (cargo ·.arrivals) (call_of_silent hsent).2)⟩

lemma timedCalls_tidy {c : Client} {xs : List (Timed δ)} {line : Line δ}
    (h : ∀ v ∈ (c.timedCalls xs line).1, v.Settled) : ∀ v ∈ (c.timedCalls xs line).1, v.Tidy := by
  induction xs generalizing line with
  | nil => exact List.forall_mem_nil _
  | cons x xs ih =>
    obtain ⟨hx, hxs⟩ := List.forall_mem_cons.mp h
    exact List.forall_mem_cons.mpr ⟨hx.tidy, ih hxs⟩

/-- What some calls have done to the stream: the frames that they have taken are brought by what
came first, and what they have sent is frames, as many if each call that has sent something has
taken one. -/
structure Exchanged (arrived : List (UInt8 × List δ)) (vs : List (Heard δ)) (line : Line δ)
    (takens : List (List (UInt8 × List δ))) (bodies : List Bytes) : Prop where
  brings : List.Forall₂ Brings takens (vs.filterMap (·.frame?))
  taken : arrived = takens.flatten ++ cargo line.inlet.arrivals
  sent : vs.flatMap Heard.sent = bodies.flatMap Connection.frame
  short : ∀ body ∈ bodies, body.length ≤ Wire.capacity
  settled : (∀ v ∈ vs, v.Settled) → (vs.filterMap (·.frame?)).length = bodies.length

/-- What one tidy call does to the stream. -/
lemma exchanged_one {c : Client} {x : Timed δ} {line : Line δ} (h : (c.timed x line).1.Tidy) :
    ∃ takens bodies, Exchanged (cargo line.inlet.arrivals ++ cargo x.arrivals)
      [(c.timed x line).1] (c.timed x line).2 takens bodies := by
  have hfound : cargo (c.timed x line).1.found.arrivals =
      cargo line.inlet.arrivals ++ cargo x.arrivals := List.flatMap_append
  cases hf : (c.timed x line).1.frame? with
  | some f =>
    obtain ⟨body, hbody, hsent, hreceived, -⟩ := call_of_heard hf
    obtain ⟨taken, htaken, hbrings⟩ := Stream.receiveFrame_eq_ok hreceived
    refine ⟨[taken], [body], ?_, ?_, ?_, ?_, ?_⟩
    · rw [List.filterMap_cons_some hf]
      exact .cons hbrings .nil
    · rw [← hfound, List.flatten_singleton]
      exact htaken
    · rw [List.flatMap_singleton, List.flatMap_singleton]
      exact hsent
    · simpa using body?_length_le hbody
    · intro _
      rw [List.filterMap_cons_some hf]
      rfl
  | none =>
    have htakes : cargo (c.timed x line).1.called.line.inlet.arrivals =
        cargo (c.timed x line).1.found.arrivals := h.takes.resolve_left (by simp [hf])
    have hnone : [(c.timed x line).1].filterMap (·.frame?) = [] := List.filterMap_cons_none hf
    obtain ⟨bodies, hshort, hsent⟩ : ∃ bodies : List Bytes,
        (∀ body ∈ bodies, body.length ≤ Wire.capacity) ∧
          (c.timed x line).1.sent = bodies.flatMap Connection.frame := by
      obtain hsent | ⟨body, hshort, hsent⟩ := h.sends
      · exact ⟨[], List.forall_mem_nil _, hsent⟩
      · exact ⟨[body], by simpa using hshort, by rw [List.flatMap_singleton, hsent]⟩
    refine ⟨[], bodies, ?_, ?_, ?_, hshort, ?_⟩
    · rw [hnone]
      exact .nil
    · exact hfound.symm.trans htakes.symm
    · rw [List.flatMap_singleton]
      exact hsent
    · intro hsettled
      have hsilent : (c.timed x line).1.sent = [] :=
        (hsettled _ List.mem_cons_self).resolve_right (by simp [hf])
      have hbodies : bodies = [] := by
        cases bodies with
        | nil => rfl
        | cons body bodies =>
          rw [hsilent, List.flatMap_cons] at hsent
          exact absurd (List.append_eq_nil_iff.mp hsent.symm).1 (Connection.frame_ne_nil body)
      rw [hnone, hbodies]
      rfl

/-- What tidy calls do to the stream. -/
lemma exchanged {c : Client} {xs : List (Timed δ)} {line : Line δ}
    (h : ∀ v ∈ (c.timedCalls xs line).1, v.Tidy) :
    ∃ takens bodies, Exchanged (cargo line.inlet.arrivals ++ cargo (xs.flatMap (·.arrivals)))
      (c.timedCalls xs line).1 (c.timedCalls xs line).2 takens bodies := by
  induction xs generalizing line with
  | nil => exact ⟨[], [], .nil, List.append_nil _, rfl, List.forall_mem_nil _, fun _ => rfl⟩
  | cons x xs ih =>
    obtain ⟨hx, hxs⟩ := List.forall_mem_cons.mp h
    obtain ⟨takens, bodies, hfirst⟩ := exchanged_one hx
    obtain ⟨takens', bodies', hothers⟩ := ih hxs
    have hvs : (c.timedCalls (x :: xs) line).1 =
        [(c.timed x line).1] ++ (c.timedCalls xs (c.timed x line).2).1 := rfl
    have harrived : cargo ((x :: xs).flatMap (·.arrivals)) =
        cargo x.arrivals ++ cargo (xs.flatMap (·.arrivals)) := List.flatMap_append
    refine ⟨takens ++ takens', bodies ++ bodies', ?_, ?_, ?_, ?_, ?_⟩
    · rw [hvs, List.filterMap_append]
      exact List.rel_append hfirst.brings hothers.brings
    · rw [harrived, ← List.append_assoc, hfirst.taken, List.append_assoc, hothers.taken,
        List.flatten_append, List.append_assoc]
      rfl
    · rw [hvs, List.flatMap_append, hfirst.sent, hothers.sent, List.flatMap_append]
    · intro body hbody
      obtain hbody | hbody := List.mem_append.mp hbody
      · exact hfirst.short body hbody
      · exact hothers.short body hbody
    · intro hsettled
      obtain ⟨hsettled, hsettled'⟩ := List.forall_mem_append.mp (hvs ▸ hsettled)
      rw [hvs, List.filterMap_append, List.length_append, List.length_append,
        hfirst.settled hsettled, hothers.settled hsettled']

/-- What tidy calls have sent is cut into the frames that they have sent. -/
lemma cut_sent_concat {c : Client} {xs : List (Timed δ)} {line : Line δ} {last : Heard δ}
    {body : Bytes} (h : ∀ v ∈ (c.timedCalls xs line).1, v.Tidy)
    (hshort : body.length ≤ Wire.capacity) (hsent : last.sent = Connection.frame body) :
    let earlier := (c.timedCalls xs line).1
    (cut ((earlier ++ [last]).flatMap Heard.sent)).1 =
      (cut (earlier.flatMap Heard.sent)).1 ++ [body] := by
  intro earlier
  obtain ⟨takens, bodies, he⟩ := exchanged h
  have hframes : (earlier ++ [last]).flatMap Heard.sent =
      (bodies ++ [body]).flatMap Connection.frame := by
    rw [List.flatMap_append, List.flatMap_append, he.sent, List.flatMap_singleton,
      List.flatMap_singleton, hsent]
  rw [hframes, he.sent, Connection.cut_frames he.short, Connection.cut_frames]
  exact List.forall_mem_append.mpr ⟨he.short, List.forall_mem_singleton.mpr hshort⟩

section Answers

variable {respond : List Bytes → Bytes → Frame δ}

/-- **Replies are taken in order.** A broker answers the frames that it receives, one after another,
and the answers arrive when they like. If each call sends its frame or nothing, and takes a frame
for its reply or nothing, then the frames that are taken are the broker's answers in order from the
first, whichever calls they are answers to. -/
theorem heard_in_order (c : Client) (outlet : Outlet) (ended : Bool)
    (hr : ∀ before body, (respond before body).body.length ≤ Wire.capacity)
    (xs : List (Timed δ)) :
    let vs := (c.timedCalls xs ⟨⟨[], ended⟩, outlet⟩).1
    let answers := answered respond [] (cut (vs.flatMap Heard.sent)).1
    (∀ v ∈ vs, v.Tidy) → cargo (xs.flatMap (·.arrivals)) <+: answers.flatMap Frame.cargo →
      vs.filterMap (·.frame?) <+: answers := by
  intro vs answers ht ha
  obtain ⟨takens, bodies, h⟩ := exchanged ht
  refine Stream.heard_prefix h.brings (answered_short hr _ _) ?_
  have htaken : cargo (xs.flatMap (·.arrivals)) = takens.flatten ++ _ := h.taken
  exact (List.prefix_append ..).trans (htaken ▸ ha)

/-- If each call that sends something takes a frame, all answers are taken. -/
lemma heard_all (c : Client) (outlet : Outlet) (ended : Bool)
    (hr : ∀ before body, (respond before body).body.length ≤ Wire.capacity)
    (xs : List (Timed δ)) :
    let vs := (c.timedCalls xs ⟨⟨[], ended⟩, outlet⟩).1
    let answers := answered respond [] (cut (vs.flatMap Heard.sent)).1
    (∀ v ∈ vs, v.Settled) → cargo (xs.flatMap (·.arrivals)) <+: answers.flatMap Frame.cargo →
      vs.filterMap (·.frame?) = answers := by
  intro vs answers hs ha
  obtain ⟨takens, bodies, h⟩ := exchanged (timedCalls_tidy hs)
  refine (heard_in_order c outlet ended hr xs (timedCalls_tidy hs) ha).eq_of_length ?_
  calc (vs.filterMap (·.frame?)).length
      = bodies.length := h.settled hs
    _ = (cut (vs.flatMap Heard.sent)).1.length := by rw [h.sent, Connection.cut_frames h.short]
    _ = answers.length := (answered_length ..).symm

/-- **A call gets its own reply if every call before it got one.** A broker answers the frames that
it receives, one after another, and the answers arrive when they like. If each call before a call
has taken a frame for its reply, or has sent nothing, then what the call takes for its reply is the
broker's answer to the frame that it has sent itself. A call that succeeds has taken a frame. -/
theorem reply_is_own (c : Client) (outlet : Outlet) (ended : Bool)
    (hr : ∀ before body, (respond before body).body.length ≤ Wire.capacity)
    (xs : List (Timed δ)) (x : Timed δ) :
    let earlier := c.timedCalls xs ⟨⟨[], ended⟩, outlet⟩
    let last := (c.timed x earlier.2).1
    let before := (cut (earlier.1.flatMap Heard.sent)).1
    let answers := answered respond [] (cut ((earlier.1 ++ [last]).flatMap Heard.sent)).1
    (∀ v ∈ earlier.1, v.Settled) →
      cargo ((xs ++ [x]).flatMap (·.arrivals)) <+: answers.flatMap Frame.cargo →
      (∀ answer, last.called.result = .ok answer → last.frame?.isSome = true) ∧
        ∀ f, last.frame? = some f → ∃ body, c.body? x.query = some body ∧
          last.sent = Connection.frame body ∧ f = respond before body ∧
          last.called.result = interpret x.query.request x.query.buffer f := by
  intro earlier last before answers hs ha
  refine ⟨fun answer => heard_of_ok, fun f hf => ?_⟩
  obtain ⟨body, hbody, hsent, -, hresult⟩ := call_of_heard hf
  refine ⟨body, hbody, hsent, ?_, hresult⟩
  have hall : (c.timedCalls (xs ++ [x]) ⟨⟨[], ended⟩, outlet⟩).1 = earlier.1 ++ [last] :=
    inOrder_concat c.timed xs x _
  -- all calls are settled, this one too, so all answers are taken
  have hs' : ∀ v ∈ earlier.1 ++ [last], v.Settled := by
    refine List.forall_mem_append.mpr ⟨hs, ?_⟩
    intro v hv
    obtain rfl := List.mem_singleton.mp hv
    exact .inr (by rw [hf]; rfl)
  have hheard : (earlier.1 ++ [last]).filterMap (·.frame?) = answers := by
    have htaken := heard_all c outlet ended hr (xs ++ [x])
    simp only [hall] at htaken
    exact htaken hs' ha
  have hcut : (cut ((earlier.1 ++ [last]).flatMap Heard.sent)).1 = before ++ [body] :=
    cut_sent_concat (timedCalls_tidy hs) (body?_length_le hbody) hsent
  have hanswers : answers = answered respond [] before ++ [respond before body] := by
    show answered respond [] (cut ((earlier.1 ++ [last]).flatMap Heard.sent)).1 = _
    rw [hcut, answered_concat, List.nil_append]
  have hlast : [last].filterMap (·.frame?) = [f] := List.filterMap_cons_some hf
  rw [hanswers, List.filterMap_append, hlast] at hheard
  exact (List.cons.inj (List.append_inj_right' hheard rfl)).1

end Answers

/-- A broker that grants access once, and then refuses it. -/
def grudging : List Bytes → Bytes → Frame Unit
  | [], _ => ⟨Reply.bytes ⟨0, none⟩, none⟩
  | _ :: _, _ => ⟨Reply.bytes ⟨-13, none⟩, none⟩

/-- A client that does not ask its own gate. -/
def asker : Client := ⟨⟨.all, ⟨.accessDenied, []⟩⟩, false⟩

lemma asked_nul_free : (0 : UInt8) ∉ [47, 97] := by decide

/-- A call that asks whether the file `/a` exists, with what arrives until it ends. -/
def asking (chunks : List Bytes) : Timed Unit :=
  ⟨chunks.map fun bytes => .chunk ⟨bytes, []⟩, ⟨.access ⟨[47, 97], asked_nul_free⟩ 0, []⟩⟩

/-- The first call gets its reply, and so the second, whose reply comes in two pieces, gets its own.
-/
theorem second_reply_is_own :
    let first := asking [[5, 0, 0, 0, 1, 0, 0, 0, 0]]
    let second := asking [[5, 0, 0], [0, 1, 243, 255, 255, 255]]
    let earlier := asker.timedCalls [first] ⟨⟨[], false⟩, {}⟩
    let last := (asker.timed second earlier.2).1
    let before := (cut (earlier.1.flatMap Heard.sent)).1
    (∀ v ∈ earlier.1, v.Settled) ∧ last.called.result = .error .accessDenied ∧
      ∃ body, last.sent = Connection.frame body ∧ last.frame? = some (grudging before body) := by
  intro first second earlier last before
  have hr (before : List Bytes) (body : Bytes) :
      (grudging before body).body.length ≤ Wire.capacity := by
    cases before <;> exact Nat.le_of_ble_eq_true rfl
  have hs : ∀ v ∈ earlier.1, v.Settled := by
    intro v hv
    obtain rfl : v = (asker.timed first ⟨⟨[], false⟩, {}⟩).1 := List.mem_singleton.mp hv
    exact .inr (by cbv)
  have ha : cargo (([first] ++ [second]).flatMap (·.arrivals)) =
      (answered grudging [] (cut ((earlier.1 ++ [last]).flatMap Heard.sent)).1).flatMap
        Frame.cargo := by cbv
  have hf : last.frame? = some ⟨Reply.bytes ⟨-13, none⟩, none⟩ := by cbv
  obtain ⟨body, -, hsent, hown, -⟩ :=
    (reply_is_own asker {} false hr [first] second hs (ha ▸ List.prefix_rfl)).2 _ hf
  exact ⟨hs, by cbv, body, hsent, hf.trans (congrArg some hown)⟩

/-- The reply to the first call arrives after that call has given up. The second call takes it for
its own and succeeds, although the broker has refused it. -/
theorem late_reply_taken :
    let calls :=
      [asking [], asking [[5, 0, 0, 0, 1, 0, 0, 0, 0], [5, 0, 0, 0, 1, 243, 255, 255, 255]]]
    let vs := (asker.timedCalls calls ⟨⟨[], false⟩, {}⟩).1
    let bodies := (cut (vs.flatMap Heard.sent)).1
    bodies.length = 2 ∧
      cargo (calls.flatMap (·.arrivals)) = (answered grudging [] bodies).flatMap Frame.cargo ∧
      vs.map (·.called.result) = [.error .wouldBlock, .ok .done] ∧
      vs.map (·.frame?) = [none, (answered grudging [] bodies)[0]?] ∧
      (answered grudging [] bodies)[1]?.map (interpret (asking []).query.request []) =
        some (.error .accessDenied) := by
  cbv
  exact ⟨rfl, rfl, rfl⟩

end Client

end FileBroker
