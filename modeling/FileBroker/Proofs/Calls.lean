/-
The calls that a broker makes for a request.

A kernel can be made to write down its calls. It answers as before, so that what is carried out
with it is what is carried out without it, and the list that it leaves behind is the list of calls.

* `Answered`, `Kernel.traced`: calls with their answers, and the kernel that writes them down.
* `Approval.perform_traced`: nothing changes but that the calls of an approval are written down.
* `Broker.RefusedFor`: the bodies that are refused, each for a reason.
* `Broker.serve_of_refused`, `Broker.serve_of_approved`: the two ways in which a body is served.
* `Backed`: the calls that a table of rules allows for a request.
* `Broker.serve_authorised`: serving a body makes the calls that the table allows, and no others.
-/
import FileBroker.Broker
import FileBroker.Proofs.Grants

namespace FileBroker

variable {σ δ : Type}

/-! ### Writing down calls -/

/-- A call that was made, with the kernel's answer. -/
structure Answered (δ : Type) where
  call : Call
  result : Except Errno (call.Result δ)

/-- The kernel that answers as before and writes down its calls in order. -/
def Kernel.traced (k : Kernel σ δ) : Kernel (σ × List (Answered δ)) δ where
  answer c s :=
    let answered := k.answer c s.1
    (answered.1, (answered.2, s.2 ++ [⟨c, answered.1⟩]))

lemma Kernel.traced_answer (k : Kernel σ δ) (c : Call) (s : σ) (log : List (Answered δ)) :
    k.traced.answer c (s, log) =
      ((k.answer c s).1, ((k.answer c s).2, log ++ [⟨c, (k.answer c s).1⟩])) := rfl

namespace Approval

/-- The calls that carrying out an approval makes. -/
def calls (k : Kernel σ δ) (a : Approval) (s : σ) : List (Answered δ) :=
  (a.perform k.traced (s, [])).2.2

/-- Writing down the calls changes nothing else. -/
lemma perform_traced (k : Kernel σ δ) (a : Approval) (s : σ) (log : List (Answered δ)) :
    a.perform k.traced (s, log) =
      ((a.perform k s).1, ((a.perform k s).2, log ++ a.calls k s)) := by
  cases a with
  | openFile path flags unlink =>
    simp only [calls, perform, Kernel.traced_answer]
    rcases k.answer (.openFile path (flags ||| OpenFlags.closeOnExec) createdPermissions) s with
      ⟨errno | fd, s'⟩
    · rfl
    · cases unlink with
      | false => rfl
      | true =>
        simp only [unlinkOpened, Kernel.traced_answer]
        rcases k.answer (.unlink path) s' with ⟨errno | done, s''⟩ <;> simp
  | access path mode =>
    simp only [calls, perform, Kernel.traced_answer]
    rcases k.answer (.access path mode) s with ⟨errno | done, s'⟩ <;> rfl
  | readlink path =>
    simp only [calls, perform, Kernel.traced_answer]
    rcases k.answer (.readlink path linkRoom) s with ⟨errno | target, s'⟩ <;> rfl
  | rename old new =>
    simp only [calls, perform, Kernel.traced_answer]
    rcases k.answer (.rename old new) s with ⟨errno | done, s'⟩ <;> rfl
  | stat path follow large =>
    simp only [calls, perform, Kernel.traced_answer]
    rcases k.answer (.stat path follow large) s with ⟨errno | bytes, s'⟩ <;> rfl

/-- The call that carries an approval out. -/
def call : Approval → Call
  | access path mode => .access path mode
  | openFile path flags _ =>
    .openFile path (flags ||| OpenFlags.closeOnExec) createdPermissions
  | readlink path => .readlink path linkRoom
  | rename old new => .rename old new
  | stat path follow large => .stat path follow large

/-- An approval is carried out by its call alone, or else by opening a file and removing its name
afterwards. -/
lemma calls_cases (k : Kernel σ δ) (a : Approval) (s : σ) :
    a.calls k s = [⟨a.call, (k.answer a.call s).1⟩] ∨
      ∃ path flags fd result, a = .openFile path flags true ∧
        a.calls k s =
          [⟨.openFile path (flags ||| OpenFlags.closeOnExec) createdPermissions, .ok fd⟩,
            ⟨.unlink path, result⟩] := by
  cases a with
  | openFile path flags unlink =>
    simp only [calls, perform, call, Kernel.traced_answer]
    rcases k.answer (.openFile path (flags ||| OpenFlags.closeOnExec) createdPermissions) s with
      ⟨errno | fd, s'⟩
    · exact .inl rfl
    · cases unlink with
      | false => exact .inl rfl
      | true =>
        refine .inr ⟨path, flags, fd, (k.answer (.unlink path) s').1, rfl, ?_⟩
        simp only [unlinkOpened, Kernel.traced_answer]
        rcases k.answer (.unlink path) s' with ⟨errno | done, s''⟩ <;> rfl
  | access path mode =>
    simp only [calls, perform, call, Kernel.traced_answer]
    rcases k.answer (.access path mode) s with ⟨errno | done, s'⟩ <;> exact .inl rfl
  | readlink path =>
    simp only [calls, perform, call, Kernel.traced_answer]
    rcases k.answer (.readlink path linkRoom) s with ⟨errno | target, s'⟩ <;> exact .inl rfl
  | rename old new =>
    simp only [calls, perform, call, Kernel.traced_answer]
    rcases k.answer (.rename old new) s with ⟨errno | done, s'⟩ <;> exact .inl rfl
  | stat path follow large =>
    simp only [calls, perform, call, Kernel.traced_answer]
    rcases k.answer (.stat path follow large) s with ⟨errno | bytes, s'⟩ <;> exact .inl rfl

end Approval

/-! ### Serving a body -/

namespace Broker

/-- The body is refused for a reason: it holds no request, or the gate refuses the request. -/
inductive RefusedFor (g : Gate) (body : Bytes) : Refusal → Prop where
  | malformed {fault : Wire.Fault} (hd : Request.decode body = .error fault) :
      RefusedFor g body .malformed
  | denied {request : Request} {reason : Refusal} (hd : Request.decode body = .ok request)
      (he : g.evaluate request = .error reason) : RefusedFor g body reason

/-- A body is refused, or the gate lets its request pass. -/
lemma refused_or_approved (g : Gate) (body : Bytes) :
    (∃ reason, RefusedFor g body reason) ∨
      ∃ request a, Request.decode body = .ok request ∧ g.evaluate request = .ok a := by
  cases hd : Request.decode body with
  | error fault => exact .inl ⟨_, .malformed hd⟩
  | ok request =>
    cases he : g.evaluate request with
    | error reason => exact .inl ⟨_, .denied hd he⟩
    | ok a => exact .inr ⟨request, a, rfl, he⟩

/-- A refused body is not let pass. -/
lemma RefusedFor.not_approved {g : Gate} {body : Bytes} {reason : Refusal}
    (h : RefusedFor g body reason) {request : Request} {a : Approval}
    (hd : Request.decode body = .ok request) : g.evaluate request ≠ .ok a := by
  cases h with
  | malformed hd' => simp [hd] at hd'
  | denied hd' he =>
    obtain rfl := Except.ok.inj (hd.symm.trans hd')
    simp [he]

/-- What is recorded of a body that is refused for a reason. -/
def refusalEntry (g : Gate) (body : Bytes) (reason : Refusal) : Audit.Entry :=
  match Request.decode body with
  | .error _ => refusedEntry g none [] reason
  | .ok request => refusedEntry g (some request.command) (recordedPaths request) reason

/-- The entry of a refused body has its reason, and the return code that every refusal has. -/
lemma refusalEntry_eq (g : Gate) (body : Bytes) (reason : Refusal) :
    (refusalEntry g body reason).decision = .denied ∧
      (refusalEntry g body reason).reason = some reason ∧
      (refusalEntry g body reason).returnCode = g.policy.deniedErrno.returnCode := by
  rw [refusalEntry]
  split <;> exact ⟨rfl, rfl, rfl⟩

/-- Refusing a body depends on neither the kernel nor its state, and does not ask the kernel. -/
lemma serve_of_refused {g : Gate} {body : Bytes} {reason : Refusal} (h : RefusedFor g body reason)
    (k : Kernel σ δ) (s : σ) : serve g k body s = (refuse (refusalEntry g body reason), s) := by
  cases h with
  | malformed hd => simp only [serve, refusalEntry, hd, malformedEntry]
  | denied hd he => simp only [serve, refusalEntry, hd, he]

lemma serve_of_approved {g : Gate} {body : Bytes} {request : Request} {a : Approval}
    (hd : Request.decode body = .ok request) (he : g.evaluate request = .ok a) (k : Kernel σ δ)
    (s : σ) : serve g k body s = (fulfil request (a.perform k s).1, (a.perform k s).2) := by
  simp only [serve, hd, he]

/-- What came of an approval shows in its entry by the return code alone. -/
lemma fulfil_entry (request : Request) (outcome : Except Errno (Outcome δ)) :
    ∃ code, (fulfil request outcome).entry = allowedEntry request code := by
  cases outcome with
  | error errno => exact ⟨_, rfl⟩
  | ok outcome => exact ⟨_, rfl⟩

/-- The calls that serving a body makes. -/
def calls (g : Gate) (k : Kernel σ δ) (body : Bytes) (s : σ) : List (Answered δ) :=
  (serve g k.traced body (s, [])).2.2

/-- Writing down the calls changes nothing else. -/
lemma serve_traced (g : Gate) (k : Kernel σ δ) (body : Bytes) (s : σ) (log : List (Answered δ)) :
    serve g k.traced body (s, log) =
      ((serve g k body s).1, ((serve g k body s).2, log ++ calls g k body s)) := by
  obtain ⟨reason, hr⟩ | ⟨request, a, hd, he⟩ := refused_or_approved g body
  · simp only [calls, serve_of_refused hr, List.append_nil]
  · simp only [calls, serve_of_approved hd he, Approval.perform_traced, List.nil_append]

end Broker

/-! ### The calls that a table of rules allows -/

/-- The calls that a table of rules allows for a request. There is one call, with what the request
says and nothing else; only an open that a temporary rule allows may be followed by the removal of
the name, and only if it succeeded. -/
inductive Backed (rules : List Rule) : Request → List (Answered δ) → Prop where
  | access {path : Path} {mode : Word} {result : Except Errno Unit}
      (h : ∃ r ∈ rules, r.MayAccess path.bytes mode) :
      Backed rules (.access path mode) [⟨.access path mode, result⟩]
  | openFile {path : Path} {flags : Word} {result : Except Errno δ}
      (h : ∃ r ∈ rules, r.MayOpen path.bytes flags) :
      Backed rules (.openFile path flags)
        [⟨.openFile path (flags ||| OpenFlags.closeOnExec) createdPermissions, result⟩]
  | openTemporary {path : Path} {flags : Word} {fd : δ} {result : Except Errno Unit}
      (h : ∃ r ∈ rules, r.MayOpen path.bytes flags ∧ r.access.temporary = true) :
      Backed rules (.openFile path flags)
        [⟨.openFile path (flags ||| OpenFlags.closeOnExec) createdPermissions, .ok fd⟩,
          ⟨.unlink path, result⟩]
  | readlink {path : Path} {result : Except Errno Bytes}
      (h : ∃ r ∈ rules, r.MayReadlink path.bytes) :
      Backed rules (.readlink path) [⟨.readlink path linkRoom, result⟩]
  | rename {old new : Path} {result : Except Errno Unit}
      (ho : ∃ r ∈ rules, r.MayRename old.bytes) (hn : ∃ r ∈ rules, r.MayRename new.bytes) :
      Backed rules (.rename old new) [⟨.rename old new, result⟩]
  | stat {path : Path} {follow large : Bool} {result : Except Errno Status.Image}
      (h : ∃ r ∈ rules, r.MayStat path.bytes) :
      Backed rules (.stat path follow large) [⟨.stat path follow large, result⟩]

/-- Setting the flag of the calling process again makes up for its removal. -/
lemma OpenFlags.onWire_or (flags : Word) :
    onWire flags ||| closeOnExec = flags ||| closeOnExec := by
  refine Word.eq_of_bit fun i => ?_
  rw [Word.bit_or, Word.bit_or, onWire, Word.bit_without]
  cases flags.bit i <;> cases closeOnExec.bit i <;> rfl

namespace Broker

/-- Carrying out what the gate approved makes the calls that the table allows. -/
lemma calls_backed {g : Gate} {request : Request} {a : Approval}
    (he : g.evaluate request = .ok a) (k : Kernel σ δ) (s : σ) :
    Backed g.policy.rules request (a.calls k s) := by
  obtain ⟨hc, ha⟩ := Gate.evaluate_eq_ok_iff.mp he
  have hg : Granted g.policy.rules request :=
    (Gate.approval?_isSome_iff hc).mp (Option.isSome_of_eq_some ha)
  obtain ⟨unlink, rfl, hopen⟩ := Gate.evaluate_approval he
  cases request with
  | access path mode =>
    obtain h | ⟨_, _, _, _, h, -⟩ := (Approval.access path mode).calls_cases k s
    · rw [Request.approval, h]
      exact .access hg.2
    · cases h
  | openFile path flags =>
    obtain ⟨r, hr, hm, rfl⟩ := hopen path flags rfl
    obtain h | ⟨_, _, fd, result, h, hcalls⟩ := Approval.calls_cases k
      (.openFile path (OpenFlags.onWire flags) r.access.temporary) s
    · rw [Request.approval, h, Approval.call, OpenFlags.onWire_or]
      exact .openFile ⟨r, hr, hm⟩
    · obtain ⟨rfl, rfl, ht⟩ := Approval.openFile.inj h
      rw [Request.approval, hcalls, OpenFlags.onWire_or]
      exact .openTemporary ⟨r, hr, hm, ht⟩
  | readlink path =>
    obtain h | ⟨_, _, _, _, h, -⟩ := (Approval.readlink path).calls_cases k s
    · rw [Request.approval, h]
      exact .readlink hg
    · cases h
  | rename old new =>
    obtain h | ⟨_, _, _, _, h, -⟩ := (Approval.rename old new).calls_cases k s
    · rw [Request.approval, h]
      exact .rename hg.1 hg.2
    · cases h
  | stat path follow large =>
    obtain h | ⟨_, _, _, _, h, -⟩ := (Approval.stat path follow large).calls_cases k s
    · rw [Request.approval, h]
      exact .stat hg
    · cases h

/-- The calls that may be made for a body: none for a body that is refused, and for a request that
the gate lets pass those that its rules allow. -/
structure Authorised (g : Gate) (body : Bytes) (calls : List (Answered δ)) : Prop where
  refused : ∀ reason, RefusedFor g body reason → calls = []
  approved : ∀ request a, Request.decode body = .ok request → g.evaluate request = .ok a →
    Backed g.policy.rules request calls

/-- Serving a body makes the calls that may be made for it. -/
lemma serve_authorised (g : Gate) (k : Kernel σ δ) (body : Bytes) (s : σ) :
    Authorised g body (calls g k body s) := by
  refine ⟨fun reason h => ?_, fun request a hd he => ?_⟩
  · rw [calls, serve_of_refused h]
  · rw [calls, serve_of_approved hd he]
    exact calls_backed he k s

end Broker

end FileBroker
