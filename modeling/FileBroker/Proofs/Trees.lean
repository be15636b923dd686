/-
The trees that a file system can be in.

The root of a file system is a directory, and no name stands for a node that does not exist. Both
hold of the tree that has a root only, and no call of the kernel breaks them.

* `Kernel.Keeps`, `Broker.serveAll_keeps`: what every call keeps is kept when bodies are served.
* `FileTree.Entry`, `FileTree.names`: names in directories, and all of them in a tree.
* `FileTree.names_add`, `FileTree.detach_add`: a name that is given to a new node, and taken again.
* `FileTree.Intact`: the trees that a file system can be in.
* `FileTree.openFile_cases`: the three things that an open can do to a tree.
* `FileTree.kernel_keeps_intact`, `FileTree.serveAll_intact`: no call leads out of them.
-/
import FileBroker.Proofs.Appending
import FileBroker.Proofs.Transcripts

namespace FileBroker

/-! ### What calls keep -/

section Keeping

variable {σ δ : Type} {k : Kernel σ δ} {P : σ → Prop}

/-- Every call of a kernel keeps a property of its state. -/
def Kernel.Keeps (k : Kernel σ δ) (P : σ → Prop) : Prop := ∀ c s, P s → P (k.answer c s).2

/-- What carrying out an approval leaves behind is what its call leaves, or what the removal of a
name leaves after that. -/
lemma Approval.perform_snd (k : Kernel σ δ) (a : Approval) (s : σ) :
    (a.perform k s).2 = (k.answer a.call s).2 ∨
      ∃ path, (a.perform k s).2 = (k.answer (.unlink path) (k.answer a.call s).2).2 := by
  cases a with
  | openFile path flags unlink =>
    rw [perform, call]
    rcases k.answer (.openFile path (flags ||| OpenFlags.closeOnExec) createdPermissions) s with
      ⟨errno | fd, s'⟩
    · exact .inl rfl
    cases unlink with
    | false => exact .inl rfl
    | true =>
      refine .inr ⟨path, ?_⟩
      simp only [unlinkOpened, if_true]
      rcases k.answer (.unlink path) s' with ⟨errno | done, s''⟩ <;> rfl
  | access path mode =>
    rw [perform, call]
    rcases k.answer (.access path mode) s with ⟨errno | done, s'⟩ <;> exact .inl rfl
  | readlink path =>
    rw [perform, call]
    rcases k.answer (.readlink path linkRoom) s with ⟨errno | target, s'⟩ <;> exact .inl rfl
  | rename old new =>
    rw [perform, call]
    rcases k.answer (.rename old new) s with ⟨errno | done, s'⟩ <;> exact .inl rfl
  | stat path follow large =>
    rw [perform, call]
    rcases k.answer (.stat path follow large) s with ⟨errno | image, s'⟩ <;> exact .inl rfl

lemma Approval.perform_keeps (hk : k.Keeps P) (a : Approval) (s : σ) (h : P s) :
    P (a.perform k s).2 := by
  obtain h' | ⟨path, h'⟩ := a.perform_snd k s
  · rw [h']
    exact hk _ _ h
  · rw [h']
    exact hk _ _ (hk _ _ h)

namespace Broker

lemma serve_keeps (hk : k.Keeps P) (g : Gate) (body : Bytes) (s : σ) (h : P s) :
    P (serve g k body s).2 := by
  obtain ⟨reason, hr⟩ | ⟨request, a, hd, he⟩ := refused_or_approved g body
  · rwa [serve_of_refused hr]
  · rw [serve_of_approved hd he]
    exact a.perform_keeps hk s h

/-- What every call keeps is kept however many bodies are served. -/
lemma serveAll_keeps (hk : k.Keeps P) (g : Gate) (bodies : List Bytes) (s : σ) (h : P s) :
    P (serveAll g k bodies s).2 := by
  induction bodies generalizing s with
  | nil => exact h
  | cons body bodies ih => exact ih _ (serve_keeps hk g body s h)

end Broker

end Keeping

namespace FileTree

variable {t : FileTree} {dir id : ℕ} {name : Bytes} {n : Node} {es : List (Bytes × ℕ)}
  {old : UInt32}

/-! ### Names -/

/-- A name in a directory, and the node that it stands for. -/
structure Entry where
  directory : ℕ
  name : Bytes
  node : ℕ

/-- All names in a tree. -/
def names (t : FileTree) : Set Entry := {e | (e.name, e.node) ∈ t.entries e.directory}

lemma mem_names {e : Entry} : e ∈ t.names ↔ (e.name, e.node) ∈ t.entries e.directory := Iff.rfl

/-- What is found under a name has that name. -/
lemma mem_entries_of_lookup (h : t.entry? dir name = some id) : (name, id) ∈ t.entries dir := by
  obtain ⟨before, after, hes, -⟩ := List.lookup_eq_some_iff.mp h
  rw [hes]
  exact List.mem_append_right _ (List.mem_cons_self ..)

/-- Trees with the same nodes are equal. -/
lemma ext_node? {t' : FileTree} (h : ∀ id, t'.node? id = t.node? id) : t' = t := by
  obtain ⟨nodes⟩ := t
  obtain ⟨nodes'⟩ := t'
  exact congrArg FileTree.mk (List.ext_getElem? h)

lemma node?_nextId : t.node? t.nextId = none := List.getElem?_eq_none (Nat.le_refl _)

lemma entries_of_node? (h : t.node? dir = some (.directory es old)) : t.entries dir = es := by
  rw [entries, h]

lemma node?_setEntries (h : t.node? dir = some (.directory es old)) (es' : List (Bytes × ℕ))
    (id : ℕ) :
    (t.setEntries dir es').node? id =
      if id = dir then some (.directory es' old) else t.node? id := by
  rw [setEntries, h, node?_setNode h]

lemma entries_setEntries (h : t.node? dir = some (.directory es old)) (es' : List (Bytes × ℕ))
    (d : ℕ) : (t.setEntries dir es').entries d = if d = dir then es' else t.entries d := by
  rw [entries, node?_setEntries h]
  split_ifs
  · rfl
  · rfl

/-- What is no directory is given no names. -/
lemma setEntries_of_not_isDirectory (h : t.isDirectory dir = false) (es : List (Bytes × ℕ)) :
    t.setEntries dir es = t := by
  rw [setEntries]
  split
  · next hdir => simp [isDirectory, hdir] at h
  · rfl

lemma nextId_setNode : (t.setNode id n).nextId = t.nextId := List.length_set ..

lemma nextId_setEntries : (t.setEntries dir es).nextId = t.nextId := by
  rw [setEntries]
  split
  · exact nextId_setNode
  · rfl

lemma entries_add (hdir : t.node? dir = some (.directory es old)) (hnone : es.lookup name = none)
    (content : Bytes) (permissions : UInt32) (d : ℕ) :
    (t.add dir name (.file content permissions)).entries d =
      if d = dir then es ++ [(name, t.nextId)] else t.entries d := by
  rw [entries, node?_add hdir hnone]
  split_ifs with h1 h2
  · rfl
  · rw [h2, entries, node?_nextId]
  · rfl

/-- A new file is given one name, and no name is lost. -/
lemma names_add (hdir : t.node? dir = some (.directory es old)) (hnone : es.lookup name = none)
    (content : Bytes) (permissions : UInt32) :
    (t.add dir name (.file content permissions)).names =
      insert ⟨dir, name, t.nextId⟩ t.names := by
  ext ⟨d, name', id'⟩
  rw [mem_names, entries_add hdir hnone, Set.mem_insert_iff, mem_names]
  split_ifs with hd
  · subst hd
    rw [entries_of_node? hdir, List.mem_append, List.mem_singleton]
    simp [or_comm]
  · simp [hd]

/-- A name that is taken from a new node leaves that node as all that is new. -/
lemma detach_add (hdir : t.node? dir = some (.directory es old)) (hnone : es.lookup name = none)
    (n : Node) : (t.add dir name n).detach dir name = ⟨t.nodes ++ [n]⟩ := by
  have hadd : (t.add dir name n).node? dir = some (.directory (es ++ [(name, t.nextId)]) old) := by
    rw [node?_add hdir hnone, if_pos rfl]
  have hwithout : without (es ++ [(name, t.nextId)]) name = es := by
    calc without (es ++ [(name, t.nextId)]) name
        = without es name ++ without [(name, t.nextId)] name := List.filter_append ..
      _ = es := by rw [without_of_lookup hnone]; simp [without]
  have hlt : dir < t.nextId := (List.getElem?_eq_some_iff.mp hdir).1
  refine ext_node? fun id => ?_
  rw [detach, entries_of_node? hadd, hwithout, node?_setEntries hadd, node?_add hdir hnone,
    node?_mk_append]
  split_ifs with h1 h2
  · omega
  · rw [h1, hdir]
  · rfl
  · rfl

/-! ### Intact trees -/

/-- The trees that a file system can be in: the root is a directory, and every name stands for a
node. -/
structure Intact (t : FileTree) : Prop where
  root : t.isDirectory root = true
  named : ∀ e ∈ t.names, e.node < t.nextId

lemma Intact.entry (h : t.Intact) (hid : t.entry? dir name = some id) : id < t.nextId :=
  h.named ⟨dir, name, id⟩ (mem_entries_of_lookup hid)

lemma intact_bare : bare.Intact := by
  refine ⟨rfl, ?_⟩
  rintro ⟨d, name, id⟩ h
  rcases d with _ | d
  · cases h
  · cases h

/-- Other names for a directory leave a tree intact, if they stand for nodes. -/
lemma Intact.setEntries (h : t.Intact) (hes : ∀ e ∈ es, e.2 < t.nextId) :
    (t.setEntries dir es).Intact := by
  rcases hdir : t.isDirectory dir with _ | _
  · rwa [setEntries_of_not_isDirectory hdir]
  obtain ⟨es', old, hnode⟩ := isDirectory_iff.mp hdir
  refine ⟨?_, fun e he => ?_⟩
  · rw [isDirectory, node?_setEntries hnode]
    split_ifs
    · rfl
    · exact h.root
  · rw [nextId_setEntries]
    rw [mem_names, entries_setEntries hnode] at he
    split_ifs at he
    · exact hes _ he
    · exact h.named e he

lemma Intact.without (h : t.Intact) : ∀ e ∈ without (t.entries dir) name, e.2 < t.nextId :=
  fun e he => h.named ⟨dir, e.1, e.2⟩ (List.mem_of_mem_filter he)

lemma Intact.detach (h : t.Intact) : (t.detach dir name).Intact := h.setEntries h.without

lemma nextId_detach : (t.detach dir name).nextId = t.nextId := nextId_setEntries

lemma Intact.attach (h : t.Intact) (hid : id < t.nextId) : (t.attach dir name id).Intact := by
  refine h.setEntries fun e he => ?_
  rcases List.mem_append.mp he with he | he
  · exact h.without e he
  · rw [List.mem_singleton.mp he]
    exact hid

/-- A file has no names in it. -/
lemma entries_of_file {content : Bytes} {permissions : UInt32} (es : List (Bytes × ℕ))
    (old : UInt32) (h : Node.file content permissions = .directory es old) : es = [] := by
  cases h

/-- One more node leaves a tree intact, if it has no names in it. -/
lemma Intact.append (h : t.Intact)
    (hn : ∀ es permissions, n = .directory es permissions → es = []) :
    (FileTree.mk (t.nodes ++ [n])).Intact := by
  have hroot : FileTree.root ≠ t.nextId := by
    intro heq
    have := h.root
    rw [isDirectory, heq, node?_nextId] at this
    cases this
  refine ⟨?_, fun e he => ?_⟩
  · rw [isDirectory, node?_mk_append, if_neg hroot]
    exact h.root
  · have hlength : (FileTree.mk (t.nodes ++ [n])).nextId = t.nextId + 1 := List.length_append ..
    rw [mem_names, entries, node?_mk_append] at he
    split_ifs at he with hd
    · split at he
      · next es permissions heq =>
        rw [hn es permissions (Option.some.inj heq)] at he
        cases he
      · cases he
    · rw [hlength]
      exact Nat.lt_succ_of_lt (h.named e he)

lemma Intact.add (h : t.Intact) (hn : ∀ es permissions, n = .directory es permissions → es = []) :
    (t.add dir name n).Intact := by
  refine (h.append hn).attach ?_
  simp [nextId]

/-- Other content leaves a tree intact. -/
lemma Intact.setFile {content content' : Bytes} {permissions permissions' : UInt32}
    (h : t.Intact) (hfile : t.node? id = some (.file content permissions)) :
    (t.setNode id (.file content' permissions')).Intact := by
  refine ⟨?_, fun e he => ?_⟩
  · rw [isDirectory, node?_setNode hfile]
    split_ifs with hid
    · have := h.root
      rw [isDirectory, hid, hfile] at this
      cases this
    · exact h.root
  · rw [nextId_setNode]
    refine h.named e ?_
    rw [mem_names, entries, node?_setNode hfile] at he
    split_ifs at he with hid
    · cases he
    · exact he

/-! ### The calls of the kernel -/

/-- What an open can do to a node that exists: nothing, or cut a file to length zero. -/
lemma openNode_cases (t : FileTree) (id : ℕ) (slash : Bool) (flags : Word) :
    (t.openNode id slash flags).2 = t ∨
      ∃ content permissions, t.node? id = some (.file content permissions) ∧
        (t.openNode id slash flags).2 = t.setNode id (.file [] permissions) := by
  rw [openNode]
  split
  · exact .inl rfl
  rcases hnode : t.node? id with _ | n
  · exact .inl rfl
  cases n with
  | file content permissions =>
    dsimp only
    split_ifs
    · exact .inl rfl
    · exact .inr ⟨content, permissions, rfl, rfl⟩
    · exact .inl rfl
  | directory es permissions =>
    dsimp only
    split <;> exact .inl rfl
  | link target => exact .inl rfl
  | sink => exact .inl rfl
  | socket => exact .inl rfl

/-- What an open can do to a tree: nothing, cut a file to length zero, or make a file where nothing
is. -/
lemma openFile_cases (t : FileTree) (path : Path) (flags : Word) (permissions : UInt32) :
    (t.openFile path flags permissions).2 = t ∨
      (∃ id content old, t.node? id = some (.file content old) ∧
        (t.openFile path flags permissions).2 = t.setNode id (.file [] old)) ∨
      ∃ dir name, (t.openFile path flags permissions).2 =
        t.add dir name (.file [] permissions) := by
  unfold openFile
  dsimp only
  split
  · exact .inl rfl
  rcases t.spot (openEnding path flags) path with errno | s
  · exact .inl rfl
  dsimp only
  split
  · exact .inl rfl
  rcases t.nodeAt s with errno | _ | id
  · exact .inl rfl
  · rcases s.name with _ | name
    · exact .inl rfl
    · dsimp only
      split
      · exact .inr (.inr ⟨_, name, rfl⟩)
      · exact .inl rfl
  · obtain h | ⟨content, old, hfile, h⟩ := t.openNode_cases id s.slash flags
    · exact .inl h
    · exact .inr (.inl ⟨id, content, old, hfile, h⟩)

lemma unlink_cases (t : FileTree) (path : Path) :
    (t.unlink path).2 = t ∨ ∃ dir name, (t.unlink path).2 = t.detach dir name := by
  unfold unlink
  rcases t.spot .keep path with errno | ⟨place, name, slash⟩
  · exact .inl rfl
  rcases name with _ | name
  · exact .inl rfl
  dsimp only
  rcases t.find? place.directory name with errno | _ | id
  · exact .inl rfl
  · exact .inl rfl
  dsimp only
  split_ifs
  · exact .inl rfl
  · exact .inl rfl
  · exact .inr ⟨_, name, rfl⟩

/-- What a renaming can do to a tree: nothing, or give another name to a node that had one. -/
lemma rename_cases (t : FileTree) (old new : Path) :
    (t.rename old new).2 = t ∨
      ∃ oldDir oldName newDir newName id, t.entry? oldDir oldName = some id ∧
        (t.rename old new).2 = t.move oldDir oldName newDir newName id := by
  unfold rename
  rcases t.spot .keep old with errno | old
  · exact .inl rfl
  rcases t.spot .keep new with errno | new
  · exact .inl rfl
  dsimp only
  rcases old.name with _ | oldName
  · exact .inl rfl
  rcases new.name with _ | newName
  · exact .inl rfl
  unfold renameAt
  dsimp only
  rcases hid : t.find? old.place.directory oldName with errno | _ | id
  · exact .inl rfl
  · exact .inl rfl
  have hmove : ∃ oldDir oldName' newDir newName' id', t.entry? oldDir oldName' = some id' ∧
      t.move old.place.directory oldName new.place.directory newName id =
        t.move oldDir oldName' newDir newName' id' :=
    ⟨_, _, _, _, _, (find?_eq_ok.mp hid).2, rfl⟩
  rcases t.find? new.place.directory newName with errno | target
  · exact .inl rfl
  dsimp only
  split_ifs
  · exact .inl rfl
  · exact .inl rfl
  rcases target with _ | other
  · exact .inr hmove
  dsimp only
  split_ifs
  · exact .inl rfl
  · exact .inl rfl
  rcases t.replaceFault id other with _ | errno
  · exact .inr hmove
  · exact .inl rfl

/-- No call of the kernel breaks a tree. -/
lemma kernel_keeps_intact : kernel.Keeps Intact := by
  intro c t h
  cases c with
  | access path mode => exact h
  | openFile path flags permissions =>
    change (t.openFile path flags permissions).2.Intact
    obtain h' | ⟨id, content, old, hfile, h'⟩ | ⟨dir, name, h'⟩ :=
      t.openFile_cases path flags permissions
    · rwa [h']
    · rw [h']
      exact h.setFile hfile
    · rw [h']
      exact h.add entries_of_file
  | unlink path =>
    change (t.unlink path).2.Intact
    obtain h' | ⟨dir, name, h'⟩ := t.unlink_cases path
    · rwa [h']
    · rw [h']
      exact h.detach
  | readlink path room => exact h
  | rename old new =>
    change (t.rename old new).2.Intact
    obtain h' | ⟨oldDir, oldName, newDir, newName, id, hid, h'⟩ := t.rename_cases old new
    · rwa [h']
    · rw [h']
      refine h.detach.attach ?_
      rw [nextId_detach]
      exact h.entry hid
  | stat path follow large => exact h

/-- However many bodies are served, a tree stays intact. -/
lemma serveAll_intact (h : t.Intact) (g : Gate) (bodies : List Bytes) :
    (Broker.serveAll g kernel bodies t).2.Intact :=
  Broker.serveAll_keeps kernel_keeps_intact g bodies t h

end FileTree

end FileBroker
