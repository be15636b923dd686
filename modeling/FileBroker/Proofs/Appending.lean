/-
Appending to a file.

A file that is appended to stays where it is: what a file holds is nothing to the lookup of a path,
and a file that is made where nothing is will be found there.

* `FileTree.Leads`, `FileTree.walk_eq_ok`: the way of a path, step by step.
* `FileTree.Holds`: trees that hold another one; what leads to a spot in that one leads there too.
* `FileTree.holds_setNode`, `FileTree.holds_add`: other content, and a file that is made.
* `FileTree.FileAt.appendAt`: appended bytes stand behind those of before.
* `FileTree.FileAt.contentAt`: and can be read there.
* `FileTree.BeginsEmpty.exists_fileAt`: the same for a file that the first append makes.
-/
import Mathlib.Tactic
import FileBroker.FileTree.Calls

namespace FileBroker.FileTree

/-! ### Where paths lead -/

/-- What a lookup makes of a node that it comes upon. -/
inductive Way where
  | link (target : Bytes)
  | directory
  | stop
  deriving DecidableEq

/-- What a lookup makes of the node of a number; where there is none, it stops too. -/
def way (t : FileTree) (id : ℕ) : Way :=
  match t.node? id with
  | some (.link target) => .link target
  | some (.directory ..) => .directory
  | _ => .stop

/-- The last component is the name at a spot: it is not looked at, or it is no link. -/
def Final (t : FileTree) (e : Ending) (dir : ℕ) (slash : Bool) (name : Bytes) : Prop :=
  e.stops slash = true ∨
    name.length ≤ nameLimit ∧ ∀ id, t.entry? dir name = some id → ∀ target, t.way id ≠ .link target

/-- Some components lead from a place to a spot, over at most `links` links. -/
inductive Leads (t : FileTree) (e : Ending) : ℕ → Place → Bool → List Bytes → Spot → Prop
  | arrive {links p slash} : Leads t e links p slash [] ⟨p, none, slash⟩
  | stay {links p slash rest s} (h : Leads t e links p slash rest s) :
    Leads t e links p slash (Path.dot :: rest) s
  | up {links p slash rest s} (h : Leads t e links p.parent slash rest s) :
    Leads t e links p slash (Path.dotDot :: rest) s
  | last {links p slash name} (hdot : name ≠ Path.dot) (hup : name ≠ Path.dotDot)
    (h : t.Final e p.directory slash name) :
    Leads t e links p slash [name] ⟨p, some name, slash⟩
  | enter {links p slash name rest s id} (hdot : name ≠ Path.dot) (hup : name ≠ Path.dotDot)
    (hname : name.length ≤ nameLimit) (hid : t.entry? p.directory name = some id)
    (hway : t.way id = .directory) (hrest : rest ≠ [])
    (h : Leads t e links (p.enter id) slash rest s) : Leads t e links p slash (name :: rest) s
  | follow {links p slash name rest s id target} (hdot : name ≠ Path.dot)
    (hup : name ≠ Path.dotDot) (hname : name.length ≤ nameLimit)
    (hid : t.entry? p.directory name = some id) (hway : t.way id = .link target)
    (hgo : rest = [] → e.stops slash = false)
    (h : Leads t e links (p.start target)
      (slash || (rest = [] && Path.endsWithSlash target)) (Path.components target ++ rest) s) :
    Leads t e (links + 1) p slash (name :: rest) s

variable {t : FileTree} {e : Ending} {links : ℕ} {p : Place} {slash : Bool} {names : List Bytes}
  {s : Spot}

lemma entry?_eq (t : FileTree) (dir : ℕ) (name : Bytes) :
    t.entry? dir name = (t.entries dir).lookup name := rfl

lemma find?_eq_ok {dir : ℕ} {name : Bytes} {found : Option ℕ} :
    t.find? dir name = .ok found ↔ name.length ≤ nameLimit ∧ t.entry? dir name = found := by
  rw [find?]
  split_ifs with h
  · simp [Nat.not_le_of_lt h]
  · simp [Nat.le_of_not_lt h]

lemma way_eq_link {id : ℕ} {target : Bytes} :
    t.way id = .link target ↔ t.node? id = some (.link target) := by
  unfold way
  split <;> simp_all

lemma way_eq_directory {id : ℕ} :
    t.way id = .directory ↔ ∃ es permissions, t.node? id = some (.directory es permissions) := by
  unfold way
  split <;> simp_all

lemma leads_of_walk (h : t.walk e links p slash names = .ok s) :
    t.Leads e links p slash names s := by
  fun_induction FileTree.walk t e links p slash names
  case case1 => cases h; exact .arrive
  case case2 ih => exact .stay (ih h)
  case case3 ih => exact .up (ih h)
  case case4 hdot hup hlast =>
    obtain ⟨hrest, hstops⟩ : _ = [] ∧ e.stops _ = true := by simpa using hlast
    subst hrest
    cases h
    exact .last hdot hup (.inl hstops)
  case case6 hdot hup hfind _ =>
    obtain ⟨hname, hnone⟩ := find?_eq_ok.mp hfind
    cases h
    exact .last hdot hup (.inr ⟨hname, by simp [hnone]⟩)
  case case9 hdot hup hgo id hfind target hlink links ih =>
    obtain ⟨hname, hid⟩ := find?_eq_ok.mp hfind
    exact .follow hdot hup hname hid (way_eq_link.mpr hlink) (by simpa using hgo) (ih h)
  case case10 hdot hup id hfind es permissions hnode _ =>
    obtain ⟨hname, hid⟩ := find?_eq_ok.mp hfind
    have hway : t.way id = .directory := way_eq_directory.mpr ⟨es, permissions, hnode⟩
    cases h
    exact .last hdot hup (.inr ⟨hname, by simp [hid, hway]⟩)
  case case11 hdot hup hgo id hfind es permissions hnode hrest ih =>
    obtain ⟨hname, hid⟩ := find?_eq_ok.mp hfind
    exact .enter hdot hup hname hid (way_eq_directory.mpr ⟨es, permissions, hnode⟩) hrest (ih h)
  case case12 hdot hup id hfind hlink hdirectory _ =>
    obtain ⟨hname, hid⟩ := find?_eq_ok.mp hfind
    cases h
    refine .last hdot hup (.inr ⟨hname, ?_⟩)
    simpa [hid, way_eq_link] using hlink
  all_goals cases h

lemma walk_of_leads (h : t.Leads e links p slash names s) :
    t.walk e links p slash names = .ok s := by
  induction h with
  | arrive => rw [FileTree.walk]
  | stay _ ih => rwa [FileTree.walk, if_pos rfl]
  | up _ ih => rwa [FileTree.walk, if_neg (by decide), if_pos rfl]
  | @last _ p slash name hdot hup h =>
    rw [FileTree.walk, if_neg hdot, if_neg hup]
    rcases hstops : e.stops slash with _ | _
    · obtain ⟨hname, hlink⟩ := h.resolve_left (by simp [hstops])
      rw [if_neg (by simp), find?_eq_ok.mpr ⟨hname, rfl⟩]
      rcases hfound : t.entry? p.directory name with _ | id
      · simp
      · have hnode (target : Bytes) : t.node? id ≠ some (.link target) :=
          fun h => hlink id hfound target (way_eq_link.mpr h)
        simp only [if_true]
        split
        · exact absurd ‹_› (hnode _)
        · rfl
        · rfl
    · simp
  | enter hdot hup hname hid hway hrest _ ih =>
    obtain ⟨es, permissions, hnode⟩ := way_eq_directory.mp hway
    rw [FileTree.walk, if_neg hdot, if_neg hup, find?_eq_ok.mpr ⟨hname, hid⟩]
    simp only [hnode, hrest]
    simpa using ih
  | follow hdot hup hname hid hway hgo _ ih =>
    rw [FileTree.walk, if_neg hdot, if_neg hup, find?_eq_ok.mpr ⟨hname, hid⟩]
    simp only [way_eq_link.mp hway]
    rw [if_neg (by simpa using hgo)]
    exact ih


lemma walk_eq_ok : t.walk e links p slash names = .ok s ↔ t.Leads e links p slash names s :=
  ⟨leads_of_walk, walk_of_leads⟩

/-! ### Trees that hold another one -/

/-- A tree holds another one: every name is kept, lookups make the same of every node, and each
name that is new leads to no link and no directory. -/
structure Holds (t' t : FileTree) : Prop where
  entry : ∀ {dir name id}, t.entry? dir name = some id → t'.entry? dir name = some id
  way : ∀ id, t'.way id = t.way id
  fresh : ∀ {dir name id}, t.entry? dir name = none → t'.entry? dir name = some id →
    t.way id = .stop

/-- What leads to a spot still leads there. -/
lemma Holds.leads {t' : FileTree} (ht : t'.Holds t) (h : t.Leads e links p slash names s) :
    t'.Leads e links p slash names s := by
  induction h with
  | arrive => exact .arrive
  | stay _ ih => exact .stay ih
  | up _ ih => exact .up ih
  | last hdot hup h =>
    refine .last hdot hup (h.imp_right fun hfinal => ⟨hfinal.1, fun id hid target => ?_⟩)
    rw [ht.way]
    rcases hold : t.entry? _ _ with _ | old
    · rw [ht.fresh hold hid]
      simp
    · obtain rfl : old = id := Option.some.inj ((ht.entry hold).symm.trans hid)
      exact hfinal.2 old hold target
  | enter hdot hup hname hid hway hrest _ ih =>
    exact .enter hdot hup hname (ht.entry hid) (hway ▸ ht.way _) hrest ih
  | follow hdot hup hname hid hway hgo _ ih =>
    exact .follow hdot hup hname (ht.entry hid) (hway ▸ ht.way _) hgo ih

/-- A place that consists of directories. -/
def Sound (t : FileTree) (p : Place) : Prop := ∀ id ∈ p.chain, t.isDirectory id = true

lemma Leads.sound (h : t.Leads e links p slash names s) (hp : t.Sound p) : t.Sound s.place := by
  induction h with
  | arrive => exact hp
  | stay _ ih => exact ih hp
  | up _ ih => exact ih fun id hid => hp id (List.mem_of_mem_tail hid)
  | last => exact hp
  | enter _ _ _ _ hway _ _ ih =>
    refine ih (List.forall_mem_cons.mpr ⟨?_, hp⟩)
    obtain ⟨es, permissions, hnode⟩ := way_eq_directory.mp hway
    rw [isDirectory, hnode]
  | follow _ _ _ _ _ _ _ ih =>
    refine ih ?_
    rw [Place.start]
    split_ifs
    · exact List.forall_mem_nil _
    · exact hp

/-- Without a slash behind it, a path leads to the same spot whether it is followed to the end or
a file may be made there. -/
lemma Leads.follow_of_make (h : t.Leads .make links p slash names s) (hs : s.slash = false) :
    t.Leads .follow links p slash names s := by
  induction h with
  | arrive => exact .arrive
  | stay _ ih => exact .stay (ih hs)
  | up _ ih => exact .up (ih hs)
  | @last _ p slash name hdot hup h =>
    have hgo : ¬ Ending.make.stops slash = true := by simpa [Ending.stops] using hs
    exact .last hdot hup (.inr (h.resolve_left hgo))
  | enter hdot hup hname hid hway hrest _ ih =>
    exact .enter hdot hup hname hid hway hrest (ih hs)
  | follow hdot hup hname hid hway _ _ ih =>
    exact .follow hdot hup hname hid hway (fun _ => rfl) (ih hs)

/-! ### Files that change and files that are made -/

lemma node?_setNode {id : ℕ} {n m : Node} (h : t.node? id = some m) (id' : ℕ) :
    (t.setNode id n).node? id' = if id' = id then some n else t.node? id' := by
  have hid : id < t.nodes.length := (List.getElem?_eq_some_iff.mp h).1
  rw [node?, setNode, List.getElem?_set]
  split_ifs with h1 h2 h2
  · rfl
  · exact absurd h1.symm h2
  · exact absurd h2.symm h1
  · rfl

/-- What a file holds is nothing to a lookup. -/
lemma holds_setNode {id : ℕ} {old new : Bytes} {permissions permissions' : UInt32}
    (h : t.node? id = some (.file old permissions)) :
    (t.setNode id (.file new permissions')).Holds t := by
  set t' := t.setNode id (.file new permissions')
  have hway (id' : ℕ) : t'.way id' = t.way id' := by
    rw [way, way, node?_setNode h]
    split_ifs with hid
    · rw [hid, h]
    · rfl
  have hentries (dir : ℕ) : t'.entries dir = t.entries dir := by
    rw [entries, entries, node?_setNode h]
    split_ifs with hid
    · rw [hid, h]
    · rfl
  refine ⟨fun hid => ?_, hway, fun hnone hsome => ?_⟩
  · rwa [entry?_eq, hentries]
  · rw [entry?_eq, hentries] at hsome
    cases hnone.symm.trans hsome

section Made

variable {dir : ℕ} {name : Bytes} {es : List (Bytes × ℕ)} {old permissions : UInt32}

lemma without_of_lookup (h : es.lookup name = none) : without es name = es := by
  refine List.filter_eq_self.mpr fun e he => ?_
  exact decide_eq_true (bne_iff_ne.mp (List.lookup_eq_none_iff.mp h e he)).symm

lemma node?_mk_append (n : Node) (id : ℕ) :
    (FileTree.mk (t.nodes ++ [n])).node? id = if id = t.nextId then some n else t.node? id := by
  rw [node?, node?, nextId, List.getElem?_append]
  split_ifs with hlt heq heq
  · omega
  · rfl
  · simp [heq]
  · rw [List.getElem?_eq_none (by simp; omega), List.getElem?_eq_none (by omega)]

lemma node?_add (hdir : t.node? dir = some (.directory es old)) (hnone : es.lookup name = none)
    (n : Node) (id : ℕ) :
    (t.add dir name n).node? id =
      if id = dir then some (.directory (es ++ [(name, t.nextId)]) old)
      else if id = t.nextId then some n
      else t.node? id := by
  have hlt : dir < t.nextId := (List.getElem?_eq_some_iff.mp hdir).1
  have hdir' : (FileTree.mk (t.nodes ++ [n])).node? dir = some (.directory es old) := by
    rw [node?_mk_append, if_neg hlt.ne, hdir]
  have hentries : (FileTree.mk (t.nodes ++ [n])).entries dir = es := by rw [entries, hdir']
  rw [add, attach, hentries, without_of_lookup hnone, setEntries, hdir', node?_setNode hdir',
    node?_mk_append]

lemma isDirectory_iff {id : ℕ} :
    t.isDirectory id = true ↔ ∃ es permissions, t.node? id = some (.directory es permissions) := by
  unfold isDirectory
  split <;> simp_all

/-- A place is a directory, if the root is one. -/
lemma Sound.directory {place : Place} (h : t.Sound place) (hroot : t.isDirectory root = true) :
    t.isDirectory place.directory = true := by
  obtain ⟨_ | ⟨id, chain⟩⟩ := place
  · exact hroot
  · exact h id (List.mem_cons_self ..)

/-- A file that is made where nothing is stands there, and nothing else changes for a lookup. -/
lemma holds_add (hdir : t.node? dir = some (.directory es old)) (hnone : es.lookup name = none) :
    (t.add dir name (.file [] permissions)).Holds t := by
  have hlt : dir < t.nextId := (List.getElem?_eq_some_iff.mp hdir).1
  have hlast : t.node? t.nextId = none := List.getElem?_eq_none (Nat.le_refl _)
  have hway (id : ℕ) : (t.add dir name (.file [] permissions)).way id = t.way id := by
    rw [way, way, node?_add hdir hnone]
    split_ifs with h1 h2
    · rw [h1, hdir]
    · rw [h2, hlast]
    · rfl
  have hentries (d : ℕ) : (t.add dir name (.file [] permissions)).entries d =
      if d = dir then es ++ [(name, t.nextId)] else t.entries d := by
    rw [entries, node?_add hdir hnone]
    split_ifs with h1 h2
    · rfl
    · rw [h2, entries, hlast]
    · rfl
  have hes : t.entries dir = es := by rw [entries, hdir]
  -- the new entry stands behind the old ones, so it is found only where they are not
  refine ⟨fun {d name' id} hid => ?_, hway, fun {d name' id} hold hnew => ?_⟩
  · rw [entry?_eq, hentries]
    split_ifs with hd
    · rw [hd, entry?_eq, hes] at hid
      rw [List.lookup_append, hid, Option.some_or]
    · exact hid
  · rw [entry?_eq, hentries] at hnew
    split_ifs at hnew with hd
    · rw [hd, entry?_eq, hes] at hold
      rw [List.lookup_append, hold, Option.none_or, List.lookup_cons] at hnew
      split at hnew
      · obtain rfl : t.nextId = id := Option.some.inj hnew
        rw [FileTree.way, hlast]
      · cases hnew
    · cases hold.symm.trans hnew

end Made

/-! ### Appending -/

/-- How a file is opened to be appended to. -/
def appendFlags : Word := OpenFlags.writeOnly ||| OpenFlags.create ||| OpenFlags.append

@[simp] lemma appendFlags_create : appendFlags.overlaps OpenFlags.create = true := rfl

@[simp] lemma appendFlags_exclusive : appendFlags.overlaps OpenFlags.exclusive = false := rfl

@[simp] lemma appendFlags_directory : appendFlags.overlaps OpenFlags.directory = false := rfl

@[simp] lemma appendFlags_truncate : appendFlags.overlaps OpenFlags.truncate = false := rfl

@[simp] lemma openEnding_appendFlags (path : Path) : openEnding path appendFlags = .make := rfl

/-- A path leads to a file with some content, which is not spelled as a directory. -/
structure FileAt (t : FileTree) (path : Path) (id : ℕ) (content : Bytes) : Prop where
  leads : ∃ s, t.spot .make path = .ok s ∧ s.slash = false ∧ t.nodeAt s = .ok (some id)
  file : ∃ permissions, t.node? id = some (.file content permissions)

lemma Holds.spot {t' : FileTree} (ht : t'.Holds t) {e : Ending} {path : Path} {s : Spot}
    (h : t.spot e path = .ok s) : t'.spot e path = .ok s := by
  rw [FileTree.spot] at h ⊢
  split_ifs at h ⊢
  exact walk_eq_ok.mpr (ht.leads (walk_eq_ok.mp h))

lemma Holds.nodeAt {t' : FileTree} (ht : t'.Holds t) {s : Spot} {id : ℕ}
    (h : t.nodeAt s = .ok (some id)) : t'.nodeAt s = .ok (some id) := by
  obtain ⟨place, name, slash⟩ := s
  cases name with
  | none => exact h
  | some name =>
    obtain ⟨hname, hid⟩ := find?_eq_ok.mp h
    exact find?_eq_ok.mpr ⟨hname, ht.entry hid⟩

variable {path : Path} {id : ℕ} {content : Bytes}

/-- A file is opened where it stands, if it need not be new or a directory. -/
lemma openFile_file {flags : Word} {s : Spot} {permissions permissions' : UInt32}
    (hs : t.spot (openEnding path flags) path = .ok s) (hslash : s.slash = false)
    (hid : t.nodeAt s = .ok (some id)) (hfile : t.node? id = some (.file content permissions))
    (hexclusive : flags.overlaps OpenFlags.exclusive = false)
    (hdirectory : flags.overlaps OpenFlags.directory = false)
    (htruncate : flags.overlaps OpenFlags.truncate = false) :
    t.openFile path flags permissions' = (.ok (descriptor id flags), t) := by
  simp [openFile, hs, hslash, hid, openNode, hfile, hexclusive, hdirectory, htruncate]

lemma FileAt.openFile (h : t.FileAt path id content) :
    t.openFile path appendFlags filePermissions = (.ok (descriptor id appendFlags), t) := by
  obtain ⟨s, hs, hslash, hid⟩ := h.leads
  obtain ⟨permissions, hfile⟩ := h.file
  exact openFile_file hs hslash hid hfile appendFlags_exclusive appendFlags_directory
    appendFlags_truncate

/-- What a path leads to can be read. -/
lemma FileAt.contentAt (h : t.FileAt path id content) : t.contentAt path = .ok content := by
  obtain ⟨s, hs, hslash, hid⟩ := h.leads
  obtain ⟨permissions, hfile⟩ := h.file
  have hs' : t.spot .follow path = .ok s := by
    rw [spot] at hs ⊢
    split_ifs at hs ⊢
    exact walk_eq_ok.mpr ((walk_eq_ok.mp hs).follow_of_make hslash)
  have hopen : t.openFile path OpenFlags.readOnly filePermissions =
      (.ok (descriptor id OpenFlags.readOnly), t) :=
    openFile_file hs' hslash hid hfile rfl rfl rfl
  have hdirection : OpenFlags.direction? (OpenFlags.readOnly &&& OpenFlags.directionMask) =
      some .reading := by decide
  have hreadable : (descriptor id OpenFlags.readOnly).readable = true := by
    rw [Descriptor.readable, descriptor, hdirection]
    rfl
  have hnode : (descriptor id OpenFlags.readOnly).node = id := rfl
  rw [FileTree.contentAt, hopen]
  simp [FileTree.content, hreadable, hnode, hfile]

/-- **Bytes that are appended stand behind those of before.** -/
lemma FileAt.appendAt (h : t.FileAt path id content) (bytes : Bytes) :
    ∃ t', t.appendAt path bytes = (.ok (), t') ∧ t'.FileAt path id (content ++ bytes) := by
  obtain ⟨s, hs, hslash, hid⟩ := h.leads
  obtain ⟨permissions, hfile⟩ := h.file
  have hholds : (t.setNode id (.file (content ++ bytes) permissions)).Holds t := holds_setNode hfile
  refine ⟨t.setNode id (.file (content ++ bytes) permissions), ?_, ?_, permissions, ?_⟩
  · have hopen : t.openFile path (OpenFlags.writeOnly ||| OpenFlags.create ||| OpenFlags.append)
      filePermissions = (.ok (descriptor id appendFlags), t) := h.openFile
    have hnode : (descriptor id appendFlags).node = id := rfl
    simp only [FileTree.appendAt, hopen, writeEnd, hnode, hfile]
  · exact ⟨s, hholds.spot hs, hslash, hholds.nodeAt hid⟩
  · rw [node?_setNode hfile, if_pos rfl]

/-- What an open that may make a file gives on a node is a file that stood there. -/
lemma openNode_file {slash : Bool} {fd : Descriptor} {t₁ : FileTree} {permissions : UInt32}
    (h : t.openNode id slash appendFlags = (.ok fd, t₁))
    (hfile : t₁.node? fd.node = some (.file content permissions)) :
    slash = false ∧ fd = descriptor id appendFlags ∧ t₁ = t := by
  simp only [openNode, appendFlags_create, appendFlags_exclusive, appendFlags_directory,
    appendFlags_truncate, Bool.and_false, Bool.or_false, Bool.true_or, Bool.false_eq_true, if_true,
    if_false] at h
  split at h
  case h_3 =>
    rcases slash with _ | _
    · obtain ⟨hfd, ht⟩ := Prod.mk.inj h
      exact ⟨rfl, (Except.ok.inj hfd).symm, ht.symm⟩
    · cases h
  case h_5 hsink =>
    rcases slash with _ | _
    · obtain ⟨hfd, rfl⟩ := Prod.mk.inj h
      obtain rfl := Except.ok.inj hfd
      cases hsink.symm.trans hfile
    · cases h
  all_goals cases h

/-- A file that is made where a path leads to nothing stands at that path. -/
lemma fileAt_of_made {place : Place} {name : Bytes} (permissions : UInt32)
    (hroot : t.isDirectory root = true)
    (hs : t.spot .make path = .ok ⟨place, some name, false⟩)
    (hnone : t.nodeAt ⟨place, some name, false⟩ = .ok none) :
    (t.add place.directory name (.file [] permissions)).FileAt path t.nextId [] := by
  obtain ⟨hname, hentry⟩ := find?_eq_ok.mp hnone
  have hsound : t.Sound place := by
    rw [spot] at hs
    split_ifs at hs
    exact (walk_eq_ok.mp hs).sound (List.forall_mem_nil _)
  obtain ⟨es, old, hdir⟩ := isDirectory_iff.mp (hsound.directory hroot)
  have hes : es.lookup name = none := by rwa [entry?_eq, entries, hdir] at hentry
  refine ⟨⟨⟨place, some name, false⟩, (holds_add hdir hes).spot hs, rfl, ?_⟩, permissions, ?_⟩
  · refine find?_eq_ok.mpr ⟨hname, ?_⟩
    rw [entry?_eq, entries, node?_add hdir hes, if_pos rfl]
    rw [List.lookup_append, hes]
    simp
  · have hne : t.nextId ≠ place.directory := (List.getElem?_eq_some_iff.mp hdir).1.ne'
    rw [node?_add hdir hes, if_neg hne, if_pos rfl]

/-- A file that was opened to be appended to stands at its path from then on. -/
lemma fileAt_of_openFile {fd : Descriptor} {t₁ : FileTree} {permissions : UInt32}
    (hroot : t.isDirectory root = true)
    (h : t.openFile path appendFlags filePermissions = (.ok fd, t₁))
    (hfile : t₁.node? fd.node = some (.file content permissions)) :
    t₁.FileAt path fd.node content ∧ fd = descriptor fd.node appendFlags := by
  simp only [openFile, appendFlags_create, appendFlags_directory, openEnding_appendFlags,
    Bool.and_false, Bool.true_and, Bool.false_eq_true, if_true, if_false] at h
  rcases hs : t.spot .make path with errno | s
  · rw [hs] at h
    cases h
  simp only [hs] at h
  split_ifs at h with hname
  · cases h
  -- the file is made where nothing is, and opened where one stands
  rcases hid : t.nodeAt s with errno | _ | id
  · rw [hid] at h
    cases h
  · obtain ⟨place, _ | name, slash⟩ := s
    · cases hid
    · obtain rfl : slash = false := by simpa using hname
      rw [hid] at h
      obtain ⟨hfd, rfl⟩ := Prod.mk.inj h
      obtain rfl := Except.ok.inj hfd
      have hmade := fileAt_of_made filePermissions hroot hs hid
      obtain ⟨_, hempty⟩ := hmade.file
      cases hempty.symm.trans hfile
      exact ⟨hmade, rfl⟩
  · rw [hid] at h
    obtain ⟨hslash, rfl, rfl⟩ := openNode_file h hfile
    exact ⟨⟨⟨s, hs, hslash, hid⟩, permissions, hfile⟩, rfl⟩

/-- The file at a path is empty: opening it to append to it, which makes it where nothing is, gives
a file without content. -/
def BeginsEmpty (t : FileTree) (path : Path) : Prop :=
  ∃ fd t₁ permissions, t.openFile path appendFlags filePermissions = (.ok fd, t₁) ∧
    t₁.node? fd.node = some (.file [] permissions)

/-- Where nothing is, an append makes an empty file. -/
lemma beginsEmpty_of_nothing {place : Place} {name : Bytes} (hroot : t.isDirectory root = true)
    (hs : t.spot .make path = .ok ⟨place, some name, false⟩)
    (hnone : t.nodeAt ⟨place, some name, false⟩ = .ok none) : t.BeginsEmpty path := by
  obtain ⟨permissions, hfile⟩ := (fileAt_of_made filePermissions hroot hs hnone).file
  refine ⟨descriptor t.nextId appendFlags, _, permissions, ?_, hfile⟩
  simp [openFile, hs, hnone]

/-- Whether the file was there or is made by the append makes no difference to it. -/
lemma BeginsEmpty.exists_fileAt (h : t.BeginsEmpty path) (hroot : t.isDirectory root = true) :
    ∃ (t₁ : FileTree) (id : ℕ), t₁.FileAt path id [] ∧
      ∀ bytes, t.appendAt path bytes = t₁.appendAt path bytes := by
  obtain ⟨fd, t₁, permissions, hopen, hfile⟩ := h
  obtain ⟨hat, hfd⟩ := fileAt_of_openFile hroot hopen hfile
  refine ⟨t₁, fd.node, hat, fun bytes => ?_⟩
  have hagain := hat.openFile
  rw [← hfd] at hagain
  have hflags : OpenFlags.writeOnly ||| OpenFlags.create ||| OpenFlags.append = appendFlags := rfl
  simp only [appendAt, hflags, hopen, hagain]

end FileBroker.FileTree
