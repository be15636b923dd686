/-
How much of a link's target a caller gets.

Three bounds meet when a link is read through a broker: the room that the broker reads the target
into, the room that a message has, and the caller's buffer. The first is what the second leaves, and
that is less than the target of a link may have. So a caller gets what the kernel would have given
it exactly if not more bytes than these are due to it; beyond that the target is cut, and nothing
tells the caller.

* `Kernel.LinkAt`: a symbolic link, by what the kernel tells of it.
* `Kernel.readInto`: what the kernel gives to a caller that asks it itself.
* `Query.answered_snd`: a call through a broker leaves what it leaves without one.
* `Conversation.result_readlink`: what a caller gets of a link's target.
* `Conversation.readlink_agrees_iff`: when this is what the kernel gives.
* `Conversation.readlink_cut`: a target that is cut though the caller has room for it.
-/
import Mathlib
import FileBroker.FileTree.Calls
import FileBroker.Proofs.FastChecks
import FileBroker.Proofs.Settlements

namespace FileBroker

variable {σ δ : Type} {g : Gate} {k : Kernel σ δ} {c : Client} {path : Path} {target : Bytes}

/-! ### Links and the kernel -/

/-- A path names a symbolic link with this target: of the target the kernel tells as much as there
is room for. Without any room it may tell an error. -/
def Kernel.LinkAt (k : Kernel σ δ) (path : Path) (target : Bytes) (s : σ) : Prop :=
  ∀ room, 0 < room → (k.answer (.readlink path room) s).1 = .ok (target.take room)

/-- What a caller gets that asks the kernel itself for the target of a link: the number of bytes
that were written to its buffer, and the buffer. -/
def Kernel.readInto (k : Kernel σ δ) (path : Path) (buffer : Bytes) (s : σ) :
    Except Errno (Client.Answer δ) :=
  (k.answer (.readlink path buffer.length) s).1.map fun (bytes : Bytes) =>
    .link bytes.length (bytes ++ buffer.drop bytes.length)

/-- The answer that has the first bytes of a target at the front of a buffer. -/
def Client.Answer.front (n : ℕ) (target buffer : Bytes) : Client.Answer δ :=
  .link n (target.take n ++ buffer.drop n)

lemma Client.Answer.front_inj {n m : ℕ} {buffer : Bytes}
    (h : (front n target buffer : Client.Answer δ) = front m target buffer) : n = m :=
  (Client.Answer.link.inj h).1

/-- As much of the target as the buffer has room for. -/
lemma Kernel.LinkAt.readInto {s : σ} {buffer : Bytes} (h : k.LinkAt path target s)
    (hb : buffer ≠ []) :
    k.readInto path buffer s = .ok (.front (min target.length buffer.length) target buffer) := by
  have hlength : (target.take buffer.length).length = min target.length buffer.length := by
    rw [List.length_take, Nat.min_comm]
  have htake : target.take buffer.length = target.take (min target.length buffer.length) := by
    rw [List.take_eq_take_iff]
    omega
  rw [Kernel.readInto, h _ (List.length_pos_iff.mpr hb)]
  refine congrArg Except.ok ?_
  show Client.Answer.link (target.take buffer.length).length
    (target.take buffer.length ++ buffer.drop (target.take buffer.length).length) = _
  rw [Client.Answer.front, hlength, htake]

/-- In a file tree, what a path leads to is what it names. -/
lemma FileTree.linkAt_of_resolve {t : FileTree} {id : ℕ}
    (h : t.resolve false path = .ok (id, .link target)) :
    FileTree.kernel.LinkAt path target t := by
  intro room _
  show t.readlink path room = _
  rw [readlink, h]
  rfl

/-! ### Calls that read a link -/

namespace Query

/-- What is told of a call that reads a link, if the kernel has told of the target what there was
room for. -/
lemma result_readlink (path : Path) (buffer target : Bytes) (room : ℕ) :
    (Query.result ⟨.readlink path, buffer⟩ (target.take room) : Client.Answer δ) =
      .front (min (min target.length room) buffer.length) target buffer := by
  have hlength : (target.take room).length = min target.length room := by
    rw [List.length_take, Nat.min_comm]
  show Client.Answer.link _ (Client.overwrite buffer (target.take room)) = _
  rw [Client.overwrite_eq, hlength, List.take_take, Client.Answer.front]
  congr 3
  omega

/-- A call that reads a link, if its frame and the reply to it arrive whole. -/
lemma answered_readlink (hk : k.Fits) (hr : ¬ c.Refuses (.readlink path))
    (hl : (Request.readlink path).wireSize ≤ Wire.capacity) {a : Approval}
    (he : g.evaluate (.readlink path) = .ok a) {s : σ} (hlink : k.LinkAt path target s)
    (buffer : Bytes) :
    (answered c g k ⟨.readlink path, buffer⟩ s).1 =
      .ok (.front (min (min target.length linkRoom) buffer.length) target buffer) := by
  set q : Query := ⟨.readlink path, buffer⟩
  have hanswer : k.answer q.request.call s =
      (.ok (target.take linkRoom), (k.answer q.request.call s).2) :=
    Prod.ext (hlink linkRoom (by decide)) rfl
  have hb : (Request.readlink path).onWire.bytes.length ≤ Wire.capacity :=
    (Request.onWire_bytes_length _).trans_le hl
  obtain ⟨unlink, rfl, -⟩ := Gate.evaluate_approval he
  have hserve := Broker.serve_of_approved (Request.decode_bytes hb)
    ((g.evaluate_onWire (.readlink path)).trans he) k s
  rw [answered, Client.prepare_of_fits hr hb]
  dsimp only
  rw [hserve, ← result_readlink]
  exact congrArg Prod.fst (interpret_performed hk q (Request.readlink path).onWire unlink hanswer)

/-- A call through a broker leaves what it leaves without one, whatever it gives. -/
lemma answered_snd (hk : k.Fits) (hc : c.fastCheck = true → c.gate = g) (q : Query) (s : σ) :
    (q.answered c g k s).2 = (q.direct g k s).2 := by
  by_cases hr : c.Refuses q.request
  · obtain ⟨hfast, reason, he⟩ := id hr
    rw [hc hfast] at he
    rw [answered_of_refuses hr, direct, he]
    split <;> rfl
  by_cases hl : Wire.capacity < q.request.wireSize
  · rw [answered_of_long hr hl, direct, if_pos hl]
  have hb : q.request.onWire.bytes.length ≤ Wire.capacity :=
    q.request.onWire_bytes_length.trans_le (Nat.not_lt.mp hl)
  rw [answered, Client.prepare_of_fits hr hb, direct, if_neg hl]
  dsimp only
  cases he : g.evaluate q.request with
  | error reason =>
    have hrefused : Broker.RefusedFor g q.request.onWire.bytes reason :=
      .denied (Request.decode_bytes hb) ((g.evaluate_onWire q.request).trans he)
    rw [Broker.serve_of_refused hrefused]
  | ok a =>
    obtain ⟨unlink, rfl, -⟩ := Gate.evaluate_approval he
    rw [Broker.serve_of_approved (Request.decode_bytes hb) ((g.evaluate_onWire q.request).trans he)]
    rcases h : k.answer q.request.call s with ⟨errno | result, s'⟩
    · rw [← q.request.approval_call unlink] at h
      rw [Approval.perform_of_error h]
    · exact congrArg Prod.snd (interpret_performed hk q q.request.onWire unlink h)

end Query

/-! ### Calls in order -/

/-- What is done in the middle is done on what the things before it leave. -/
lemma inOrder_getElem?_append {α β τ : Type} (f : α → τ → β × τ) (before after : List α) (a : α)
    (t : τ) :
    (inOrder f (before ++ a :: after) t).1[before.length]? =
      some (f a (inOrder f before t).2).1 := by
  induction before generalizing t with
  | nil => rfl
  | cons b before ih => exact ih (f b t).2

namespace Conversation

variable {before after : List Query} {buffer : Bytes} {s : σ}

/-- **What a caller gets of a link's target**: what is left of it by the room of the broker and by
the caller's buffer. -/
lemma result_readlink (hk : k.Fits) (hc : c.fastCheck = true → c.gate = g) {a : Approval}
    (he : g.evaluate (.readlink path) = .ok a)
    (hl : (Request.readlink path).wireSize ≤ Wire.capacity)
    (hlink : k.LinkAt path target (inOrder (Query.direct g k) before s).2)
    (v : Conversation g k c (before ++ ⟨.readlink path, buffer⟩ :: after) s) :
    v.results[before.length]? =
      some (.ok (.front (min (min target.length linkRoom) buffer.length) target buffer)) := by
  have hr : ¬ c.Refuses (.readlink path) := by
    rintro ⟨hfast, reason, hreason⟩
    rw [hc hfast, he] at hreason
    cases hreason
  obtain ⟨hstate, -⟩ := inOrder_related (R := fun _ _ _ => True)
    (fun q s => Query.answered_snd (k := k) hk hc q s) (fun _ _ => trivial) before s
  rw [← hstate] at hlink
  rw [(v.course hk).1, inOrder_getElem?_append, Query.answered_readlink hk hr hl he hlink]

/-- **A link is read through a broker as it is read from the kernel itself, up to 4086 bytes.** Of
the target of a link that may be read, a call gives what the caller's buffer has room for, but never
more than the broker has room for, whatever happens on the way and whatever calls came before. So it
gives what the kernel would give if not more than 4086 bytes are due to the caller, and a target
that is cut otherwise. -/
theorem readlink_agrees_iff (hk : k.Fits) (hc : c.fastCheck = true → c.gate = g) {a : Approval}
    (he : g.evaluate (.readlink path) = .ok a)
    (hl : (Request.readlink path).wireSize ≤ Wire.capacity) (hb : buffer ≠ [])
    (hlink : k.LinkAt path target (inOrder (Query.direct g k) before s).2)
    (v : Conversation g k c (before ++ ⟨.readlink path, buffer⟩ :: after) s) :
    let n := min (min target.length 4086) buffer.length
    v.results[before.length]? = some (.ok (.link n (target.take n ++ buffer.drop n))) ∧
      (v.results[before.length]? =
          some (k.readInto path buffer (inOrder (Query.direct g k) before s).2) ↔
        min target.length buffer.length ≤ 4086) := by
  have hroom : linkRoom = 4086 := rfl
  have hresult := v.result_readlink hk hc he hl hlink
  rw [hroom] at hresult
  refine ⟨hresult, ?_⟩
  rw [hresult, hlink.readInto hb, Option.some_inj]
  constructor
  · intro h
    have hn := Client.Answer.front_inj (Except.ok.inj h)
    omega
  · intro h
    have hn : min (min target.length 4086) buffer.length = min target.length buffer.length := by
      omega
    rw [hn]

/-- A link gets another name by one call and is read under it by the next, into a buffer that has no
room for the last byte of its target. -/
theorem readlink_agrees_after_renaming :
    let m : Path := ⟨[47, 109], by decide⟩
    let l : Path := ⟨[47, 108], by decide⟩
    let g : Gate := ⟨.all, .accessDenied, [⟨m, .readWrite, false, by decide, by decide⟩,
      ⟨l, .readWrite, false, by decide, by decide⟩]⟩
    let tree : FileTree :=
      ⟨[.directory [([109], 1)] FileTree.directoryPermissions, .link [98, 99, 100]]⟩
    let before : List Query := [⟨.rename m l, []⟩]
    g.evaluate (.readlink l) = .ok (.readlink l) ∧
      (Request.readlink l).wireSize ≤ Wire.capacity ∧
      FileTree.kernel.LinkAt l [98, 99, 100]
        (inOrder (Query.direct g FileTree.kernel) before tree).2 ∧
      ∃ v : Conversation g FileTree.kernel ⟨g, true⟩ (before ++ [⟨.readlink l, [0, 0]⟩]) tree,
        v.results[1]? = some (.ok (.link 2 [98, 99])) ∧
          v.results[1]? = some (FileTree.kernel.readInto l [0, 0]
            (inOrder (Query.direct g FileTree.kernel) before tree).2) := by
  intro m l g tree before
  have he : g.evaluate (.readlink l) = .ok (.readlink l) := by rfl
  have hl : (Request.readlink l).wireSize ≤ Wire.capacity := by decide
  have hresolve : (inOrder (Query.direct g FileTree.kernel) before tree).2.resolve false l =
      .ok (1, .link [98, 99, 100]) := by cbv
  have hlink := FileTree.linkAt_of_resolve hresolve
  have hb : ([0, 0] : Bytes) ≠ [] := List.cons_ne_nil _ _
  have hc : (⟨g, true⟩ : Client).fastCheck = true → (⟨g, true⟩ : Client).gate = g := fun _ => rfl
  obtain ⟨v⟩ := Conversation.nonempty g FileTree.kernel ⟨g, true⟩
    (before ++ [⟨.readlink l, [0, 0]⟩]) tree
  obtain ⟨hresult, hagrees⟩ := readlink_agrees_iff FileTree.kernel_fits hc he hl hb hlink v
  exact ⟨he, hl, hlink, v, hresult, hagrees.mpr (by decide)⟩

/-- **A target that is cut though the caller has room for it.** The target of a link has 4087 bytes
and the caller's buffer 4096, and the call gives 4086 bytes and reports success. -/
theorem readlink_cut :
    let target : Bytes := List.replicate 4087 97
    let buffer : Bytes := List.replicate 4096 0
    let l : Path := ⟨[47, 108], by decide⟩
    let g : Gate := ⟨.all, .accessDenied, [⟨l, .readOnly, false, by decide, by decide⟩]⟩
    let tree : FileTree :=
      ⟨[.directory [([108], 1)] FileTree.directoryPermissions, .link target]⟩
    g.evaluate (.readlink l) = .ok (.readlink l) ∧
      (Request.readlink l).wireSize ≤ Wire.capacity ∧
      FileTree.kernel.LinkAt l target tree ∧
      FileTree.kernel.readInto l buffer tree = .ok (.link 4087 (target ++ buffer.drop 4087)) ∧
      Nonempty (Conversation g FileTree.kernel ⟨g, false⟩ [⟨.readlink l, buffer⟩] tree) ∧
      ∀ v : Conversation g FileTree.kernel ⟨g, false⟩ [⟨.readlink l, buffer⟩] tree,
        v.results[0]? = some (.ok (.link 4086 (target.take 4086 ++ buffer.drop 4086))) ∧
          v.results[0]? ≠ some (FileTree.kernel.readInto l buffer tree) := by
  intro target buffer l g tree
  have htarget : target.length = 4087 := List.length_replicate
  have hbuffer : buffer.length = 4096 := List.length_replicate
  have he : g.evaluate (.readlink l) = .ok (.readlink l) := by rfl
  have hl : (Request.readlink l).wireSize ≤ Wire.capacity := by decide
  -- nothing but their lengths matters of the target and the buffer
  clear_value target buffer
  have hresolve : tree.resolve false l = .ok (1, .link target) := by cbv
  have hlink := FileTree.linkAt_of_resolve hresolve
  have hread : FileTree.kernel.readInto l buffer tree =
      .ok (.link 4087 (target ++ buffer.drop 4087)) := by
    have hb : buffer ≠ [] := List.ne_nil_of_length_pos (by omega)
    have htake : target.take 4087 = target := List.take_of_length_le htarget.le
    have hmin : min target.length buffer.length = 4087 := by omega
    rw [hlink.readInto hb, hmin, Client.Answer.front, htake]
  refine ⟨he, hl, hlink, hread, Conversation.nonempty .., fun v => ?_⟩
  have hresult : v.results[0]? = some (.ok (.front 4086 target buffer)) := by
    have hmin : min (min target.length linkRoom) buffer.length = 4086 := by
      have hroom : linkRoom = 4086 := rfl
      omega
    have hc : (⟨g, false⟩ : Client).fastCheck = true → (⟨g, false⟩ : Client).gate = g :=
      fun _ => rfl
    rw [← hmin]
    exact result_readlink FileTree.kernel_fits hc he hl hlink
      (show Conversation g FileTree.kernel ⟨g, false⟩ ([] ++ [⟨.readlink l, buffer⟩]) tree from v)
  refine ⟨hresult, ?_⟩
  rw [hresult, hread]
  intro h
  cases (Client.Answer.link.inj (Except.ok.inj (Option.some.inj h))).1

end Conversation

end FileBroker
