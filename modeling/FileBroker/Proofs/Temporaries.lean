/-
Temporary files.

A temporary rule admits only an open that makes its file, and the broker takes the name of that file
as soon as it is open. Neither step touches what was in the tree before. Where a name stands for
something, be it a link, the open fails and changes nothing; and the name that is taken is the one
that was given, since both calls look the path up alike and the new name is the only difference
between the trees that they look it up in.

* `Gate.evaluate_temporary`: what is approved for a temporary file.
* `FileTree.openFile_new`, `FileTree.unlink_add`: the two steps in a tree.
* `FileTree.resolve_append`: a node without a name is found under no path.
* `FileTree.Follows`, `FileTree.MakesTemporary`: kernels that do with a tree what is asked of them,
  or nothing.
* `FileTree.Beside`, `FileTree.Nameless`, `FileTree.Named`: a new file in a tree that is otherwise
  as before.
* `Broker.serve_temporary`: serving a request for a temporary file.
-/
import Mathlib
import FileBroker.Proofs.Requests
import FileBroker.Proofs.Trees

namespace FileBroker

/-! ### What is approved -/

namespace OpenFlags

lemma overlaps_create_of_includes {flags : Word} (h : flags.includes exclusiveCreate = true) :
    flags.overlaps create = true := by
  rw [overlaps_create]
  exact ((includes_exclusiveCreate_iff flags).mp h).1

lemma overlaps_exclusive (flags : Word) : flags.overlaps exclusive = flags.bit exclusiveBit :=
  Word.overlaps_single flags (by decide) (by decide)

lemma overlaps_exclusive_of_includes {flags : Word} (h : flags.includes exclusiveCreate = true) :
    flags.overlaps exclusive = true := by
  rw [overlaps_exclusive]
  exact ((includes_exclusiveCreate_iff flags).mp h).2

/-- More flags include what fewer do. -/
lemma includes_or {flags mask : Word} (h : flags.includes mask = true) (more : Word) :
    (flags ||| more).includes mask = true := by
  rw [Word.includes_iff] at h ⊢
  intro i hi
  rw [Word.bit_or, h i hi, Bool.true_or]

end OpenFlags

/-- An open is approved with the removal of the name only if it must make its file, whatever its
other flags are. -/
lemma Gate.evaluate_temporary {g : Gate} {path path' : Path} {flags flags' : Word}
    (he : g.evaluate (.openFile path flags) = .ok (.openFile path' flags' true)) :
    path' = path ∧ flags' = OpenFlags.onWire flags ∧
      flags.includes OpenFlags.exclusiveCreate = true := by
  obtain ⟨unlink, ha, hopen⟩ := evaluate_approval he
  obtain ⟨rfl, rfl, rfl⟩ := Approval.openFile.inj ha
  obtain ⟨r, -, hmay, ht⟩ := hopen _ _ rfl
  exact ⟨rfl, rfl, (OpenFlags.includes_exclusiveCreate_iff flags).mpr (hmay.temporary ht)⟩

/-! ### The two calls -/

namespace Approval

variable {σ δ : Type} {k : Kernel σ δ} {path : Path} {flags : Word} {s s' s'' : σ} {unlink : Bool}

lemma perform_of_open_error {errno : Errno}
    (h : k.answer (.openFile path (flags ||| OpenFlags.closeOnExec) createdPermissions) s =
      (.error errno, s')) :
    perform k (.openFile path flags unlink) s = (.error errno, s') := by
  rw [perform, h]

lemma calls_of_open_error {errno : Errno}
    (h : k.answer (.openFile path (flags ||| OpenFlags.closeOnExec) createdPermissions) s =
      (.error errno, s')) :
    calls k (.openFile path flags unlink) s =
      [⟨.openFile path (flags ||| OpenFlags.closeOnExec) createdPermissions, .error errno⟩] := by
  rw [calls, perform, Kernel.traced_answer, h]
  rfl

/-- After its file was opened, a request succeeds whether the name can be removed or not. -/
lemma perform_of_unlink {fd : δ} {result : Except Errno Unit}
    (h : k.answer (.openFile path (flags ||| OpenFlags.closeOnExec) createdPermissions) s =
      (.ok fd, s'))
    (hu : k.answer (.unlink path) s' = (result, s'')) :
    ∃ unlinkErrno, perform k (.openFile path flags true) s =
      (.ok (.opened fd unlinkErrno), s'') := by
  rw [perform, h]
  simp only [unlinkOpened, if_true]
  rw [hu]
  rcases result with errno | done
  · exact ⟨some errno, rfl⟩
  · exact ⟨none, rfl⟩

lemma calls_of_unlink {fd : δ} {result : Except Errno Unit}
    (h : k.answer (.openFile path (flags ||| OpenFlags.closeOnExec) createdPermissions) s =
      (.ok fd, s'))
    (hu : k.answer (.unlink path) s' = (result, s'')) :
    calls k (.openFile path flags true) s =
      [⟨.openFile path (flags ||| OpenFlags.closeOnExec) createdPermissions, .ok fd⟩,
        ⟨.unlink path, result⟩] := by
  rw [calls, perform, Kernel.traced_answer, h]
  simp only [unlinkOpened, if_true, Kernel.traced_answer]
  rw [hu]
  rcases result with errno | done <;> rfl

end Approval

/-! ### The two steps in a tree -/

namespace FileTree

variable {t : FileTree} {path : Path} {flags : Word} {place : Place} {name : Bytes}
  {permissions : UInt32}

/-- The last component of a path is not looked at if the file must be new. -/
lemma openEnding_new (h : flags.includes OpenFlags.exclusiveCreate = true) (path : Path) :
    openEnding path flags = .keep := by
  have hexclusive : flags.overlaps (OpenFlags.exclusive ||| OpenFlags.noFollow) = true := by
    obtain ⟨i, hi, hm⟩ := (Word.overlaps_iff flags OpenFlags.exclusive).mp
      (OpenFlags.overlaps_exclusive_of_includes h)
    exact (Word.overlaps_iff ..).mpr ⟨i, hi, by rw [Word.bit_or, hm, Bool.true_or]⟩
  rw [openEnding, if_pos (OpenFlags.overlaps_create_of_includes h), if_pos hexclusive]

/-- An open that must make its file fails and changes nothing, or makes it where nothing is. -/
lemma openFile_new (h : flags.includes OpenFlags.exclusiveCreate = true) (t : FileTree)
    (path : Path) (permissions : UInt32) :
    (∃ errno, t.openFile path flags permissions = (.error errno, t)) ∨
      ∃ place name, t.spot .keep path = .ok ⟨place, some name, false⟩ ∧
        t.find? place.directory name = .ok none ∧
        t.openFile path flags permissions =
          (.ok (descriptor t.nextId flags), t.add place.directory name (.file [] permissions)) := by
  have hcreate := OpenFlags.overlaps_create_of_includes h
  have hexclusive := OpenFlags.overlaps_exclusive_of_includes h
  unfold openFile
  dsimp only
  rw [openEnding_new h, hcreate]
  split
  · exact .inl ⟨_, rfl⟩
  rcases t.spot .keep path with errno | ⟨place, name, slash⟩
  · exact .inl ⟨errno, rfl⟩
  dsimp only
  split
  · exact .inl ⟨_, rfl⟩
  next hslash =>
    rcases hid : t.nodeAt ⟨place, name, slash⟩ with errno | _ | id
    · exact .inl ⟨errno, rfl⟩
    · rcases name with _ | name
      · cases hid
      · obtain rfl : slash = false := by simpa using hslash
        exact .inr ⟨place, name, rfl, hid, rfl⟩
    · refine .inl ⟨.alreadyExists, ?_⟩
      simp [openNode, hcreate, hexclusive]

/-- Where a path leads in an intact tree, there is a directory. -/
lemma Intact.spot_directory (h : t.Intact) {e : Ending} {s : Spot} (hs : t.spot e path = .ok s) :
    ∃ es old, t.node? s.place.directory = some (.directory es old) := by
  rw [spot] at hs
  split_ifs at hs
  have hsound : t.Sound s.place := (walk_eq_ok.mp hs).sound (List.forall_mem_nil _)
  exact isDirectory_iff.mp (hsound.directory h.root)

/-- The name of a file that was just made can be taken again, which leaves the file behind. -/
lemma unlink_add (h : t.Intact) (hs : t.spot .keep path = .ok ⟨place, some name, false⟩)
    (hnone : t.find? place.directory name = .ok none) :
    (t.add place.directory name (.file [] permissions)).unlink path =
      (.ok (), ⟨t.nodes ++ [.file [] permissions]⟩) := by
  obtain ⟨es, old, hdir⟩ := h.spot_directory hs
  obtain ⟨hlength, hentry⟩ := find?_eq_ok.mp hnone
  have hes : es.lookup name = none := by rwa [entry?_eq, entries_of_node? hdir] at hentry
  set t₁ := t.add place.directory name (.file [] permissions)
  have hs₁ : t₁.spot .keep path = .ok ⟨place, some name, false⟩ := (holds_add hdir hes).spot hs
  have hfound : t₁.find? place.directory name = .ok (some t.nextId) := by
    refine find?_eq_ok.mpr ⟨hlength, ?_⟩
    rw [entry?_eq, entries_add hdir hes, if_pos rfl, List.lookup_append, hes]
    simp
  have hfile : t₁.isDirectory t.nextId = false := by
    have hne : t.nextId ≠ place.directory := (List.getElem?_eq_some_iff.mp hdir).1.ne'
    rw [isDirectory, node?_add hdir hes, if_neg hne, if_pos rfl]
  have hdetach : t₁.detach place.directory name = ⟨t.nodes ++ [.file [] permissions]⟩ :=
    detach_add hdir hes _
  unfold unlink
  simp only [hs₁, hfound, hfile, hdetach, Bool.false_eq_true, if_false]

/-! ### A node without a name -/

section Append

variable {content : Bytes}

lemma entries_append (dir : ℕ) :
    (FileTree.mk (t.nodes ++ [.file content permissions])).entries dir = t.entries dir := by
  rw [entries, node?_mk_append]
  split_ifs with hdir
  · rw [hdir, entries, node?_nextId]
  · rfl

lemma names_append : (FileTree.mk (t.nodes ++ [.file content permissions])).names = t.names := by
  ext e
  rw [mem_names, entries_append, mem_names]

lemma find?_append (dir : ℕ) (name : Bytes) :
    (FileTree.mk (t.nodes ++ [.file content permissions])).find? dir name = t.find? dir name := by
  rw [find?, entry?_eq, entries_append, ← entry?_eq, find?]

/-- Whatever exists is the same node beside one that is added. -/
lemma node?_append_of_lt {n : Node} {id : ℕ} (hid : id < t.nextId) :
    (FileTree.mk (t.nodes ++ [n])).node? id = t.node? id := by
  rw [node?_mk_append, if_neg hid.ne]

/-- Nothing leads to a node without a name, and what leads elsewhere leads there still. -/
lemma walk_append (h : t.Intact) (e : Ending) (links : ℕ) (p : Place) (slash : Bool)
    (path : List Bytes) :
    (FileTree.mk (t.nodes ++ [.file content permissions])).walk e links p slash path =
      t.walk e links p slash path := by
  have hnode {dir id : ℕ} {name : Bytes} (hid : t.find? dir name = .ok (some id)) :
      (FileTree.mk (t.nodes ++ [.file content permissions])).node? id = t.node? id :=
    node?_append_of_lt (h.entry (find?_eq_ok.mp hid).2)
  fun_induction FileTree.walk t e links p slash path
  -- the look-ups are the same, and so are the nodes that they find
  all_goals rw [FileTree.walk]
  case case8 hfind _ _ | case9 hfind _ _ _ _ | case10 hfind _ _ _ _ | case11 hfind _ _ _ _ _ |
      case12 hfind _ _ _ | case13 hfind _ _ _ =>
    simp_all [find?_append, hnode hfind]
  all_goals simp_all [find?_append]

lemma spot_append (h : t.Intact) (e : Ending) (path : Path) :
    (FileTree.mk (t.nodes ++ [.file content permissions])).spot e path = t.spot e path := by
  rw [spot, spot, walk_append h]

/-- What a path leads to is a node. -/
lemma Intact.nodeAt_lt (h : t.Intact) {e : Ending} {s : Spot} {id : ℕ}
    (hs : t.spot e path = .ok s) (hid : t.nodeAt s = .ok (some id)) : id < t.nextId := by
  obtain ⟨place, _ | name, slash⟩ := s
  · obtain ⟨es, old, hdir⟩ := h.spot_directory hs
    obtain rfl : place.directory = id := Option.some.inj (Except.ok.inj hid)
    exact (List.getElem?_eq_some_iff.mp hdir).1
  · exact h.entry (find?_eq_ok.mp hid).2

/-- A node without a name is found under no path. -/
lemma resolve_append (h : t.Intact) (follow : Bool) (path : Path) :
    (FileTree.mk (t.nodes ++ [.file content permissions])).resolve follow path =
      t.resolve follow path := by
  have hnodeAt (s : Spot) :
      (FileTree.mk (t.nodes ++ [.file content permissions])).nodeAt s = t.nodeAt s := by
    obtain ⟨place, _ | name, slash⟩ := s
    · rfl
    · exact find?_append _ _
  rw [resolve, resolve, spot_append h]
  rcases hs : t.spot (ending follow path) path with errno | s
  · rfl
  dsimp only
  rw [hnodeAt]
  rcases hid : t.nodeAt s with errno | _ | id
  · rfl
  · rfl
  · have hnode := node?_append_of_lt (n := .file content permissions) (h.nodeAt_lt hs hid)
    simp only [hnode, isDirectory]
    rfl

end Append

/-! ### Kernels -/

section Kernels

variable {σ : Type}

/-- A call does with the tree that a state shows what the call does in a tree, or it fails and does
nothing with it. -/
def Follows (k : Kernel σ Descriptor) (view : σ → FileTree) (c : Call) : Prop :=
  ∀ s, ((k.answer c s).1 = (kernel.answer c (view s)).1 ∧
      view (k.answer c s).2 = (kernel.answer c (view s)).2) ∨
    ∃ errno, (k.answer c s).1 = .error errno ∧ view (k.answer c s).2 = view s

/-- A kernel that makes files that must be new, and takes names, where there is nothing against
it. -/
structure MakesTemporary (k : Kernel σ Descriptor) (view : σ → FileTree) : Prop where
  openFile : ∀ path flags permissions, flags.includes OpenFlags.exclusiveCreate = true →
    Follows k view (.openFile path flags permissions)
  unlink : ∀ path, Follows k view (.unlink path)

lemma kernel_makesTemporary : MakesTemporary kernel id :=
  ⟨fun _ _ _ _ _ => .inl ⟨rfl, rfl⟩, fun _ _ => .inl ⟨rfl, rfl⟩⟩

variable {k : Kernel σ Descriptor} {view : σ → FileTree} {s : σ}

/-- Such a kernel fails to open a file that must be new, or makes it where nothing is. -/
lemma MakesTemporary.opens (hk : MakesTemporary k view)
    (h : flags.includes OpenFlags.exclusiveCreate = true) (path : Path) (permissions : UInt32)
    (s : σ) :
    (∃ errno s', k.answer (.openFile path flags permissions) s = (.error errno, s') ∧
        view s' = view s) ∨
      ∃ place name s', (view s).spot .keep path = .ok ⟨place, some name, false⟩ ∧
        (view s).find? place.directory name = .ok none ∧
        k.answer (.openFile path flags permissions) s =
          (.ok (descriptor (view s).nextId flags), s') ∧
        view s' = (view s).add place.directory name (.file [] permissions) := by
  obtain ⟨hr, hv⟩ | ⟨errno, hr, hv⟩ := hk.openFile path flags permissions h s
  · obtain ⟨errno, ht⟩ | ⟨place, name, hs, hnone, ht⟩ := openFile_new h (view s) path permissions
    · have hanswer : kernel.answer (.openFile path flags permissions) (view s) =
          (.error errno, view s) := ht
      rw [hanswer] at hr hv
      exact .inl ⟨errno, _, Prod.ext hr rfl, hv⟩
    · have hanswer : kernel.answer (.openFile path flags permissions) (view s) =
          (.ok (descriptor (view s).nextId flags),
            (view s).add place.directory name (.file [] permissions)) := ht
      rw [hanswer] at hr hv
      exact .inr ⟨place, name, _, hs, hnone, Prod.ext hr rfl, hv⟩
  · exact .inl ⟨errno, _, Prod.ext hr rfl, hv⟩

/-- Such a kernel takes the name of a file that was just made, or fails to. -/
lemma MakesTemporary.unlinks (hk : MakesTemporary k view) (h : t.Intact)
    (hs : t.spot .keep path = .ok ⟨place, some name, false⟩)
    (hnone : t.find? place.directory name = .ok none)
    (hview : view s = t.add place.directory name (.file [] permissions)) :
    (∃ s', k.answer (.unlink path) s = (.ok (), s') ∧
        view s' = ⟨t.nodes ++ [.file [] permissions]⟩) ∨
      ∃ errno s', k.answer (.unlink path) s = (.error errno, s') ∧ view s' = view s := by
  obtain ⟨hr, hv⟩ | ⟨errno, hr, hv⟩ := hk.unlink path s
  · have hanswer : kernel.answer (.unlink path) (view s) =
        (.ok (), ⟨t.nodes ++ [.file [] permissions]⟩) := by
      rw [hview]
      exact unlink_add h hs hnone
    rw [hanswer] at hr hv
    exact .inl ⟨_, Prod.ext hr rfl, hv⟩
  · exact .inr ⟨errno, _, Prod.ext hr rfl, hv⟩

end Kernels

/-! ### A new file beside the others -/

/-- What a node is apart from the names in it. -/
def Node.plain : Node → Node
  | .directory _ permissions => .directory [] permissions
  | n => n

/-- An open file is new and empty. -/
structure Fresh (t t' : FileTree) (fd : Descriptor) : Prop where
  fresh : t.node? fd.node = none
  empty : t'.node? fd.node = some (.file [] createdPermissions)

/-- The new file has no name. Every other node is what it was, and so are the names in all
directories and what paths lead to. -/
structure Nameless (t t' : FileTree) (fd : Descriptor) : Prop extends Fresh t t' fd where
  others : ∀ id ≠ fd.node, t'.node? id = t.node? id
  names : t'.names = t.names
  unnamed : ∀ e ∈ t'.names, e.node ≠ fd.node
  paths : ∀ follow path, t'.resolve follow path = t.resolve follow path

/-- The new file has one name, which stood for nothing before, and can be found by its path. There
is no other new name, and every other node is what it was apart from the names in it. -/
structure Named (t t' : FileTree) (path : Path) (fd : Descriptor) : Prop extends
    Fresh t t' fd where
  others : ∀ id ≠ fd.node, (t'.node? id).map Node.plain = (t.node? id).map Node.plain
  names : ∃ dir name, t.entry? dir name = none ∧ t'.names = insert ⟨dir, name, fd.node⟩ t.names
  found : t'.resolve false path = .ok (fd.node, .file [] createdPermissions)

@[simp] lemma descriptor_node (id : ℕ) (flags : Word) : (descriptor id flags).node = id := rfl

/-- A file that was added and has lost its name again. -/
lemma nameless_append (h : t.Intact) (flags : Word) :
    Nameless t ⟨t.nodes ++ [.file [] createdPermissions]⟩ (descriptor t.nextId flags) where
  fresh := node?_nextId
  empty := by rw [descriptor_node, node?_mk_append, if_pos rfl]
  others id hid := by
    rw [descriptor_node] at hid
    rw [node?_mk_append, if_neg hid]
  names := names_append
  unnamed e he := by
    rw [names_append] at he
    exact (h.named e he).ne
  paths := resolve_append h

/-- A slash behind a path is not lost on the way. -/
lemma Leads.slash {e : Ending} {links : ℕ} {p : Place} {slash : Bool} {names : List Bytes}
    {s : Spot} (h : t.Leads e links p slash names s) (hslash : slash = true) : s.slash = true := by
  induction h with
  | arrive => exact hslash
  | stay _ ih => exact ih hslash
  | up _ ih => exact ih hslash
  | last => exact hslash
  | enter _ _ _ _ _ _ _ ih => exact ih hslash
  | follow _ _ _ _ _ _ _ ih => exact ih (by rw [hslash, Bool.true_or])

/-- A file that was added. -/
lemma named_add (h : t.Intact) (hs : t.spot .keep path = .ok ⟨place, some name, false⟩)
    (hnone : t.find? place.directory name = .ok none) (flags : Word) :
    Named t (t.add place.directory name (.file [] createdPermissions)) path
      (descriptor t.nextId flags) := by
  obtain ⟨es, old, hdir⟩ := h.spot_directory hs
  obtain ⟨hlength, hentry⟩ := find?_eq_ok.mp hnone
  have hes : es.lookup name = none := by rwa [entry?_eq, entries_of_node? hdir] at hentry
  have hne : t.nextId ≠ place.directory := (List.getElem?_eq_some_iff.mp hdir).1.ne'
  set t₁ := t.add place.directory name (.file [] createdPermissions)
  have hmade : t₁.node? t.nextId = some (.file [] createdPermissions) := by
    rw [node?_add hdir hes, if_neg hne, if_pos rfl]
  refine ⟨⟨node?_nextId, hmade⟩, fun id hid => ?_, ⟨_, name, hentry, names_add hdir hes _ _⟩, ?_⟩
  · rw [descriptor_node] at hid
    rw [node?_add hdir hes, if_neg hid]
    split_ifs with hd
    · rw [hd, hdir]
      rfl
    · rfl
  · have hslash : Path.endsWithSlash path.bytes = false := by
      by_contra htrue
      rw [spot] at hs
      split_ifs at hs
      simpa using (walk_eq_ok.mp hs).slash (by simpa using htrue)
    have hs₁ : t₁.spot (ending false path) path = .ok ⟨place, some name, false⟩ := by
      rw [ending, hslash]
      exact (holds_add hdir hes).spot hs
    have hfound : t₁.nodeAt ⟨place, some name, false⟩ = .ok (some t.nextId) := by
      refine find?_eq_ok.mpr ⟨hlength, ?_⟩
      rw [entry?_eq, entries_add hdir hes, if_pos rfl, List.lookup_append, hes]
      simp
    simp [resolve, hs₁, hfound, hmade]

end FileTree

namespace Broker

open FileTree

variable {σ : Type} {g : Gate} {k : Kernel σ Descriptor} {view : σ → FileTree}

/-- What serving a request for a temporary file does to a tree and what it sends, by the calls that
it makes. -/
inductive Provides (path : Path) (flags : Word) (t t' : FileTree) (served : Served Descriptor) :
    List (Answered Descriptor) → Prop
  | failed {errno : Errno} (reply : served.reply = ⟨errno.returnCode, none⟩)
    (nothing : served.descriptor = none) (same : t' = t) :
    Provides path flags t t' served
      [⟨.openFile path (flags ||| OpenFlags.closeOnExec) createdPermissions, .error errno⟩]
  | nameless {fd : Descriptor} (reply : served.reply = ⟨0, none⟩)
    (sent : served.descriptor = some fd) (made : Nameless t t' fd) :
    Provides path flags t t' served
      [⟨.openFile path (flags ||| OpenFlags.closeOnExec) createdPermissions, .ok fd⟩,
        ⟨.unlink path, .ok ()⟩]
  | named {fd : Descriptor} {errno : Errno} (reply : served.reply = ⟨0, none⟩)
    (sent : served.descriptor = some fd) (made : Named t t' path fd) :
    Provides path flags t t' served
      [⟨.openFile path (flags ||| OpenFlags.closeOnExec) createdPermissions, .ok fd⟩,
        ⟨.unlink path, .error errno⟩]

/-- **A temporary file leaves no trace.** Let a request to open a file be approved with the removal
of its name, in any tree that a file system can be in. If the open fails, the tree is as before and
the error number is all that is sent. If it succeeds, so does the request, and the descriptor that
is sent is that of a new, empty file. If the name can be removed, no name stands for that file, and
the names, all other nodes and what paths lead to are as before; if it cannot, the name of that file
is the only new one, and all other nodes are as before apart from it. -/
theorem serve_temporary (hk : MakesTemporary k view) {body : Bytes} {path path' : Path}
    {flags flags' : Word} {s : σ} (hs : (view s).Intact)
    (hd : Request.decode body = .ok (.openFile path flags))
    (he : g.evaluate (.openFile path flags) = .ok (.openFile path' flags' true)) :
    (view (serve g k body s).2).Intact ∧
      Provides path flags (view s) (view (serve g k body s).2) (serve g k body s).1
        (calls g k body s) := by
  obtain ⟨rfl, rfl, hnew⟩ := Gate.evaluate_temporary he
  have hserve := serve_of_approved hd he k s
  have hcalls : calls g k body s =
      Approval.calls k (.openFile path' (OpenFlags.onWire flags) true) s := by
    rw [calls, serve_of_approved hd he, Approval.calls]
  obtain ⟨errno, s₁, hopen, hv⟩ | ⟨place, name, s₁, hspot, hnone, hopen, hv⟩ :=
    hk.opens (OpenFlags.includes_or hnew OpenFlags.closeOnExec) path' createdPermissions s
  · rw [← OpenFlags.onWire_or] at hopen
    rw [Approval.perform_of_open_error hopen] at hserve
    rw [hcalls, Approval.calls_of_open_error hopen, hserve, hv, OpenFlags.onWire_or]
    exact ⟨hs, .failed rfl rfl rfl⟩
  rw [← OpenFlags.onWire_or] at hopen
  obtain ⟨s₂, hunlink, hv₂⟩ | ⟨errno, s₂, hunlink, hv₂⟩ := hk.unlinks hs hspot hnone hv
  · obtain ⟨unlinkErrno, hperform⟩ := Approval.perform_of_unlink hopen hunlink
    rw [hperform] at hserve
    rw [hcalls, Approval.calls_of_unlink hopen hunlink, hserve, hv₂, OpenFlags.onWire_or]
    exact ⟨hs.append FileTree.entries_of_file, .nameless rfl rfl (nameless_append hs _)⟩
  · obtain ⟨unlinkErrno, hperform⟩ := Approval.perform_of_unlink hopen hunlink
    rw [hperform] at hserve
    rw [hcalls, Approval.calls_of_unlink hopen hunlink, hserve, hv₂, hv, OpenFlags.onWire_or]
    exact ⟨hs.add FileTree.entries_of_file, .named rfl rfl (named_add hs hspot hnone _)⟩

/-- The file `/t/n` in a tree where a file and a link to it lie in `/t`, under flags that would cut
what exists to length zero: one kernel makes it and takes its name, the other cannot take it. -/
theorem serve_temporary_beside_link :
    let t : FileTree := ⟨[.directory [([116], 1)] 0o755,
      .directory [([102], 2), ([108], 3)] 0o755, .file [97, 98, 99] 0o644,
      .link [47, 116, 47, 102]]⟩
    let path : Path := ⟨[47, 116, 47, 110], by decide⟩
    let flags := OpenFlags.readWrite ||| OpenFlags.exclusiveCreate ||| OpenFlags.truncate |||
      OpenFlags.append
    let g : Gate :=
      ⟨.all, .notPermitted, [⟨path, .readWriteCreateTemporary, false, by decide, by decide⟩]⟩
    let body := (Request.openFile path flags).bytes
    let stubborn : Kernel FileTree Descriptor :=
      ⟨fun
        | .unlink _, t => (.error .accessDenied, t)
        | c, t => FileTree.kernel.answer c t⟩
    t.Intact ∧ Request.decode body = .ok (.openFile path flags) ∧
      g.evaluate (.openFile path flags) = .ok (.openFile path flags true) ∧
      Provides path flags t (serve g FileTree.kernel body t).2 (serve g FileTree.kernel body t).1
        [⟨.openFile path (flags ||| OpenFlags.closeOnExec) createdPermissions,
            .ok ⟨4, OpenFlags.readWrite, true⟩⟩, ⟨.unlink path, .ok ()⟩] ∧
      Provides path flags t (serve g stubborn body t).2 (serve g stubborn body t).1
        [⟨.openFile path (flags ||| OpenFlags.closeOnExec) createdPermissions,
            .ok ⟨4, OpenFlags.readWrite, true⟩⟩, ⟨.unlink path, .error .accessDenied⟩] := by
  intro t path flags g body stubborn
  have ht : t.Intact := by
    refine ⟨rfl, ?_⟩
    rintro ⟨_ | _ | _ | _ | d, name, id⟩ h
    all_goals simp_all [t, FileTree.names, FileTree.entries, FileTree.node?, FileTree.nextId]
    omega
  have hd : Request.decode body = .ok (.openFile path flags) :=
    Request.decode_bytes (by decide)
  have he : g.evaluate (.openFile path flags) = .ok (.openFile path flags true) := by decide
  have hstubborn : MakesTemporary stubborn id :=
    ⟨fun _ _ _ _ _ => .inl ⟨rfl, rfl⟩, fun _ _ => .inr ⟨_, rfl, rfl⟩⟩
  have hmade := (serve_temporary kernel_makesTemporary (s := t) ht hd he).2
  have hkept := (serve_temporary hstubborn (s := t) ht hd he).2
  have hcalls : calls g FileTree.kernel body t =
      [⟨.openFile path (flags ||| OpenFlags.closeOnExec) createdPermissions,
        .ok ⟨4, OpenFlags.readWrite, true⟩⟩, ⟨.unlink path, .ok ()⟩] := by
    cbv
  have hcalls' : calls g stubborn body t =
      [⟨.openFile path (flags ||| OpenFlags.closeOnExec) createdPermissions,
        .ok ⟨4, OpenFlags.readWrite, true⟩⟩, ⟨.unlink path, .error .accessDenied⟩] := by
    cbv
  exact ⟨ht, hd, he, hcalls ▸ hmade, hcalls' ▸ hkept⟩

end Broker

end FileBroker
