/-
Records that are lost with their replies.

The reply of a request goes out before its entry is recorded, and a reply that does not go out whole
ends the connection. So a client that hangs up in time has its request carried out without a record.
Nothing more is lost: when a connection has ended, all entries that were made on it are recorded,
but for the last one if its reply was not delivered.

* `Broker.Event.entry?_isSome_of_calls`: an entry is made where the kernel is called.
* `Broker.System.only_undelivered_unrecorded`: what is recorded once a connection has ended.
* `Broker.System.second_rename_unrecorded`, `Broker.System.rename_unrecorded`: files are renamed
  without a record.
-/
import FileBroker.Proofs.Courses

namespace FileBroker.Broker

open FileBroker.Connection (Move accepted cut received)
open FileBroker.Stream (Outlet)

variable {σ δ : Type} {g : Gate} {k : Kernel σ δ}

/-- An entry is made in each event in which the kernel is called. -/
lemma Event.entry?_isSome_of_calls {e : Event (σ × List (Answered δ)) δ} (h : e.Allowed g)
    (hcalls : e.calls ≠ []) : (e.entry? g k.traced).isSome = true := by
  rw [Event.Allowed] at h
  rw [Event.entry?]
  cases hb : e.body? with
  | none =>
    rw [hb] at h
    exact absurd h hcalls
  | some body => rfl

namespace System

/-- **Only what is not delivered goes unrecorded.** Take any connection in a run of any number of
connections, whatever the clients send, wherever writing a reply fails and whatever the kernel does,
if each entry that comes to be recorded can be. An entry is made for each body that is served, and
no call is made without one. When the connection has ended, either every reply on it went out whole,
all of its frames were served, and all entries are recorded in their order, once each, before the
one of a header that announces too long a body; or there is one reply that did not go out whole, and
all entries are recorded in their order, once each, but for the last, which is the one of this
reply. -/
theorem only_undelivered_unrecorded (g : Gate) (k : Kernel σ δ) (outlets : ℕ → Outlet) (s : σ)
    (turns : List Turn) (i : ℕ) (hl : .step false ∉ movesOn i turns)
    (hend : (((idle outlets (s, [])).run g k.traced turns).1.connections i).phase = .ended) :
    let run := (idle outlets (s, [])).run g k.traced turns
    let cutting := cut (received (movesOn i turns))
    let made := entriesOn g k.traced i run.2
    (∀ e ∈ run.2, e.calls ≠ [] → (e.entry? g k.traced).isSome = true) ∧
      (((∀ e ∈ eventsOn i run.2, e.Delivered) ∧ servedOn i run.2 = cutting.1 ∧
          loggedOn i run.2 = made ++ cutting.2.entries g) ∨
        ∃ e ∈ eventsOn i run.2, ∃ v, e.Undelivered v ∧ servedOn i run.2 <+: cutting.1 ∧
          made = loggedOn i run.2 ++ [v.entry]) := by
  intro run cutting made
  have hcalls := (run_allowed g k turns (idle outlets (s, []))).2
  refine ⟨fun e he => Event.entry?_isSome_of_calls (hcalls e he), ?_⟩
  have hcourse := run_course (g := g) (k := k.traced) turns (idle outlets (s, [])) i
  have hnone : (run.1.connections i).awaiting = [] := by
    rw [Connection.awaiting, hend]
  cases hcourse.fate hl (Connection.toCome?_accepted (outlets i) (movesOn i turns)) with
  | alive hd ht hb hr =>
    rw [Connection.Final.toCome?_eq_none (.inl hend)] at ht
    cases ht
  | gaveUp hd he hp hb hr =>
    refine .inl ⟨hd, hb.symm, ?_⟩
    rw [hnone, List.append_nil] at hr
    rw [show cutting.2 = .oversized from he]
    exact hr.symm
  | finished hd he hc hp hb hr =>
    refine .inl ⟨hd, hb.symm, ?_⟩
    rw [show cutting.2 = .incomplete from he]
    exact hr.symm.trans (List.append_nil _).symm
  | @cutOff e v he hv hp hb hr => exact .inr ⟨e, he, v, hv, hb, hr⟩

/-- A kernel on which one file can be renamed, back and forth. -/
def renamer : Kernel Bool Unit := ⟨fun
  | .rename _ _, moved => (.ok (), !moved)
  | _, moved => (.error .notFound, moved)⟩

/-- A gate that lets files be renamed between `/a` and `/b`. -/
def renamerGate : Gate := ⟨.all, .notPermitted,
  [⟨⟨[47, 97], by decide⟩, .readWrite, false, by decide, by decide⟩,
    ⟨⟨[47, 98], by decide⟩, .readWrite, false, by decide, by decide⟩]⟩

/-- The frame of a request to rename one file of a single letter to another. -/
def renameFrame (old new : UInt8) : Bytes :=
  [21, 0, 0, 0, 1, 4, 0, 0, 0, 2, 3, 0, 0, 0, 47, old, 0, 2, 3, 0, 0, 0, 47, new, 0]

/-- A client has the file `/a` renamed to `/b` and back, and hangs up after the first reply. Both
times the name is changed, and only the first is recorded. -/
theorem second_rename_unrecorded :
    let turns : List Turn := [⟨0, .arrive (renameFrame 97 98)⟩, ⟨0, .arrive (renameFrame 98 97)⟩] ++
      List.replicate 7 ⟨0, .step true⟩
    let outlets : ℕ → Outlet := fun _ => ⟨[.takes 8, .fails .brokenPipe], false⟩
    let run := (idle outlets (false, [])).run renamerGate renamer.traced turns
    .step false ∉ movesOn 0 turns ∧ (run.1.connections 0).phase = .ended ∧
      run.1.state.2.length = 2 ∧ run.1.state.1 = false ∧
      ∃ e ∈ eventsOn 0 run.2, ∃ v, e.Undelivered v ∧
        entriesOn renamerGate renamer.traced 0 run.2 = loggedOn 0 run.2 ++ [v.entry] := by
  intro turns outlets run
  have hl : .step false ∉ movesOn 0 turns := by decide +kernel
  have hend : (run.1.connections 0).phase = .ended := by decide +kernel
  refine ⟨hl, hend, by decide +kernel, by decide +kernel, ?_⟩
  obtain ⟨-, ⟨-, -, hall⟩ | ⟨e, he, v, hv, -, hlost⟩⟩ :=
    only_undelivered_unrecorded renamerGate renamer outlets false turns 0 hl hend
  · have hmade : (entriesOn renamerGate renamer.traced 0 run.2).length = 2 := by decide +kernel
    have hlogged : (loggedOn 0 run.2).length = 1 := by decide +kernel
    have hall : loggedOn 0 run.2 = entriesOn renamerGate renamer.traced 0 run.2 ++ _ := hall
    rw [hall, List.length_append, hmade] at hlogged
    omega
  · exact ⟨e, he, v, hv, hlost⟩

/-- A client hangs up before the reply: the file is renamed, and nothing is recorded. -/
theorem rename_unrecorded :
    let turns : List Turn := ⟨0, .arrive (renameFrame 97 98)⟩ :: List.replicate 3 ⟨0, .step true⟩
    let run := (idle (fun _ => ⟨[], true⟩) (false, [])).run renamerGate renamer.traced turns
    .step false ∉ movesOn 0 turns ∧ (run.1.connections 0).phase = .ended ∧
      run.1.state.2.map (·.call) = [.rename ⟨[47, 97], by decide⟩ ⟨[47, 98], by decide⟩] ∧
      run.1.state.1 = true ∧ logged run.2 = [] := by
  intro turns run
  exact ⟨by decide +kernel, by decide +kernel, by decide +kernel, by decide +kernel,
    by decide +kernel⟩

end System

end FileBroker.Broker
