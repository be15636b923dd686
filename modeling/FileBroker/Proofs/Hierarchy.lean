/-
The hierarchy of the commands.

Each kind of request has a check of its own in a rule, but the checks agree on what a rule allows:
who may open a file may ask whether it can be used that way, who may ask this may ask for less, and
who may ask anything may inspect the file. This is said of a single rule first. A table then grants
the weaker request where it grants the stronger one, since the same rule grants both.

* `OpenFlags.Direction.flags`, `OpenFlags.Direction.mode`: the flags that open a file in a
  direction, and the mode that asks for it.
* `AccessClass.allows`: the directions in which a class lets a file be used.
* `Rule.grantsAccess_mode`, `Rule.grantsOpen_flags`: what a rule must have for either of them.
* `Policy.Grants`: the requests that a policy lets pass when every command is served.
* `Policy.commands_ordered`: the hierarchy.
-/
import FileBroker.Proofs.Grants

namespace FileBroker

open OpenFlags (Direction onWire)

/-! ### Directions -/

namespace OpenFlags.Direction

/-- The flags that open a file in a direction and do nothing else. -/
def flags : Direction → Word
  | reading => readOnly
  | writing => writeOnly
  | both => readWrite

/-- The mode that asks whether a file can be used in a direction. -/
def mode : Direction → Word
  | reading => AccessMode.read
  | writing => AccessMode.write
  | both => AccessMode.read ||| AccessMode.write

lemma direction?_flags (d : Direction) : direction? d.flags = some d := by
  cases d <;> decide

lemma onWire_flags (d : Direction) : onWire d.flags = d.flags := by
  cases d <;> decide

end OpenFlags.Direction

/-- The class lets a file be used in a direction. -/
def AccessClass.allows (c : AccessClass) (d : Direction) : Bool :=
  (!d.reads || c.reads) && (!d.writes || c.writes)

/-! ### One rule -/

namespace Rule

/-- Asking for a direction is granted where a file may be used in it. -/
lemma grantsAccess_mode (r : Rule) (bytes : Bytes) (d : Direction) :
    r.grantsAccess bytes d.mode = (r.covers bytes && r.access.allows d) := by
  have hknown : d.mode.within AccessMode.known = true := by cases d <;> decide
  have hexecute : d.mode.overlaps AccessMode.execute = false := by cases d <;> decide
  have hsome : d.mode ≠ AccessMode.existence := by cases d <;> decide
  have hread : d.mode.overlaps AccessMode.read = d.reads := by cases d <;> decide
  have hwrite : d.mode.overlaps AccessMode.write = d.writes := by cases d <;> decide
  rw [grantsAccess, hknown, hexecute, if_neg hsome, hread, hwrite, Bool.and_true, Bool.not_false,
    Bool.and_true, AccessClass.allows]

/-- Opening in a direction and no more is granted where a file may be used in it, unless every file
that the rule admits must be created anew. -/
lemma grantsOpen_flags (r : Rule) (bytes : Bytes) (d : Direction) :
    r.grantsOpen bytes d.flags =
      (r.covers bytes && r.access.allows d && !r.access.temporary) := by
  have hknown : d.flags.within OpenFlags.known = true := by cases d <;> decide
  have hdirection : r.grantsDirection d.flags = r.access.allows d := by
    rw [grantsDirection, d.direction?_flags, AccessClass.allows]
  have htruncate : d.flags.overlaps OpenFlags.truncate = false := by cases d <;> decide
  have hcreate : d.flags.overlaps OpenFlags.create = false := by cases d <;> decide
  have hnew : d.flags.includes OpenFlags.exclusiveCreate = false := by cases d <;> decide
  rw [grantsOpen, hknown, hdirection, htruncate, hcreate, hnew]
  simp only [Bool.and_true, Bool.not_false, Bool.true_or, Bool.or_false]

/-- A rule that grants an open request lets the file be used in the direction of the flags. -/
lemma allows_of_grantsOpen {r : Rule} {bytes : Bytes} {flags : Word}
    (h : r.grantsOpen bytes flags = true) :
    ∃ d, OpenFlags.direction? flags = some d ∧ (r.covers bytes && r.access.allows d) = true := by
  simp only [grantsOpen, Bool.and_eq_true] at h
  obtain ⟨⟨⟨⟨⟨hc, -⟩, hd⟩, -⟩, -⟩, -⟩ := h
  rw [grantsDirection] at hd
  split at hd
  · cases hd
  · next d hdirection =>
    rw [hc]
    exact ⟨d, hdirection, hd⟩

/-- Who may ask for something may ask for a part of it. -/
lemma grantsAccess_of_within {r : Rule} {bytes : Bytes} {mode part : Word}
    (hp : part.within mode = true) (h : r.grantsAccess bytes mode = true) :
    r.grantsAccess bytes part = true := by
  rw [Word.within_iff] at hp
  rw [grantsAccess_iff] at h ⊢
  obtain ⟨hbits, hm⟩ := h
  exact ⟨fun i hi => hbits i (hp i hi), hm.covers, fun hi => hm.read (hp _ hi),
    fun hi => hm.write (hp _ hi)⟩

/-- Asking whether a file exists is granted wherever the rule covers the path. -/
lemma grantsAccess_existence (r : Rule) (bytes : Bytes) :
    r.grantsAccess bytes AccessMode.existence = r.covers bytes := by
  rw [Bool.eq_iff_iff, grantsAccess_iff, covers_iff]
  have hnone (i : ℕ) : ¬ AccessMode.existence.bit i = true := by
    rw [AccessMode.bit_existence]
    exact Bool.false_ne_true
  exact ⟨fun h => h.2.covers, fun h => ⟨fun i hi => absurd hi (hnone i), h,
    fun hi => absurd hi (hnone _), fun hi => absurd hi (hnone _)⟩⟩

end Rule

/-! ### A table of rules -/

namespace Policy

/-- The policy lets the request pass when every command is served. -/
def Grants (p : Policy) (request : Request) : Prop :=
  ∃ approval, (Gate.mk .all p).evaluate request = .ok approval

variable {p : Policy}

lemma grants_iff (p : Policy) (request : Request) :
    p.Grants request ↔ Granted p.rules request := by
  have hserved : CommandSet.all.contains request.command = true := by
    rcases request with _ | _ | _ | _ | ⟨_, _, _ | _⟩ <;> rfl
  have h := Gate.approval?_isSome_iff (g := ⟨.all, p⟩) hserved
  rw [Option.isSome_iff_exists] at h
  rw [← h, Grants]
  exact exists_congr fun a => Gate.evaluate_eq_ok_iff.trans (and_iff_right hserved)

lemma grants_access_iff (p : Policy) (path : Path) (mode : Word) :
    p.Grants (.access path mode) ↔ ∃ r ∈ p.rules, r.grantsAccess path.bytes mode = true := by
  simp only [grants_iff, Granted, Rule.grantsAccess_iff]
  grind

lemma grants_open_iff (p : Policy) (path : Path) (flags : Word) :
    p.Grants (.openFile path flags) ↔
      ∃ r ∈ p.rules, r.grantsOpen path.bytes (onWire flags) = true := by
  have hserved : (Gate.mk .all p).commands.contains .openFile = true := rfl
  rw [grants_iff, ← Gate.permitsOpen_isSome_iff hserved, Gate.permitsOpen, if_pos hserved,
    Option.isSome_map, opening?_isSome_iff]

lemma grants_flags_iff (p : Policy) (path : Path) (d : Direction) :
    p.Grants (.openFile path d.flags) ↔
      ∃ r ∈ p.rules, (r.covers path.bytes && r.access.allows d && !r.access.temporary) = true := by
  simp only [grants_open_iff, d.onWire_flags, Rule.grantsOpen_flags]

lemma grants_mode_iff (p : Policy) (path : Path) (d : Direction) :
    p.Grants (.access path d.mode) ↔
      ∃ r ∈ p.rules, (r.covers path.bytes && r.access.allows d) = true := by
  simp only [grants_access_iff, Rule.grantsAccess_mode]

lemma grants_existence_iff (p : Policy) (path : Path) :
    p.Grants (.access path AccessMode.existence) ↔
      ∃ r ∈ p.rules, r.covers path.bytes = true := by
  simp only [grants_access_iff, Rule.grantsAccess_existence]

lemma grants_stat_iff (p : Policy) (path : Path) (follow large : Bool) :
    p.Grants (.stat path follow large) ↔ ∃ r ∈ p.rules, r.MayStat path.bytes := by
  rw [grants_iff, Granted]

/-- Who may open a file may ask whether it can be used in the direction that the flags tell. -/
lemma Grants.access_of_open {path : Path} {flags : Word} (h : p.Grants (.openFile path flags)) :
    ∃ d, OpenFlags.direction? flags = some d ∧ p.Grants (.access path d.mode) := by
  obtain ⟨r, hr, hg⟩ := (p.grants_open_iff path flags).mp h
  obtain ⟨d, hd, ha⟩ := Rule.allows_of_grantsOpen hg
  refine ⟨d, ?_, (p.grants_mode_iff path d).mpr ⟨r, hr, ha⟩⟩
  rwa [OpenFlags.direction?_eq, OpenFlags.accessMode_onWire, ← OpenFlags.direction?_eq] at hd

/-- Who may ask for something may ask for a part of it. -/
lemma Grants.access_of_within {path : Path} {mode part : Word} (h : p.Grants (.access path mode))
    (hp : part.within mode = true) : p.Grants (.access path part) := by
  rw [grants_access_iff] at h ⊢
  obtain ⟨r, hr, hg⟩ := h
  exact ⟨r, hr, Rule.grantsAccess_of_within hp hg⟩

/-- Who may ask for anything may inspect the file. -/
lemma Grants.stat_of_access {path : Path} {mode : Word} (h : p.Grants (.access path mode))
    (follow large : Bool) : p.Grants (.stat path follow large) := by
  obtain ⟨r, hr, hg⟩ := (p.grants_access_iff path mode).mp h
  have hc := ((r.grantsAccess_iff _ _).mp hg).2.covers
  exact (p.grants_stat_iff path follow large).mpr ⟨r, hr, .inl hc⟩

/-- A link may be read where it might be opened for reading. -/
lemma grants_readlink_iff (p : Policy) (path : Path) :
    p.Grants (.readlink path) ↔ p.Grants (.openFile path OpenFlags.readOnly) := by
  have hwire : onWire OpenFlags.readOnly = OpenFlags.readOnly := Direction.reading.onWire_flags
  rw [grants_open_iff, hwire, grants_iff, Granted]
  simp only [Rule.grantsOpen_readOnly_iff]

/-- A file may be renamed where both names might be opened for reading and writing. -/
lemma grants_rename_iff (p : Policy) (old new : Path) :
    p.Grants (.rename old new) ↔
      p.Grants (.openFile old OpenFlags.readWrite) ∧
        p.Grants (.openFile new OpenFlags.readWrite) := by
  have hwire : onWire OpenFlags.readWrite = OpenFlags.readWrite := Direction.both.onWire_flags
  rw [grants_open_iff, grants_open_iff, hwire, grants_iff, Granted]
  simp only [Rule.grantsOpen_readWrite_iff]

/-- Where no rule shows the directories on the way to its path, a file may be inspected by whoever
may ask whether it exists. -/
lemma grants_stat_iff_of_plain (h : ∀ r ∈ p.rules, r.intermediates = false) (path : Path)
    (follow large : Bool) :
    p.Grants (.stat path follow large) ↔ p.Grants (.access path AccessMode.existence) := by
  rw [grants_stat_iff, grants_existence_iff]
  refine exists_congr fun r => and_congr_right fun hr => ?_
  rw [Rule.MayStat, h r hr, Rule.covers_iff]
  simp

/-- Where no rule is temporary, a file may be opened in a direction by whoever may ask for it. -/
lemma grants_mode_iff_of_lasting (h : ∀ r ∈ p.rules, r.access.temporary = false) (path : Path)
    (d : Direction) :
    p.Grants (.access path d.mode) ↔ p.Grants (.openFile path d.flags) := by
  rw [grants_mode_iff, grants_flags_iff]
  refine exists_congr fun r => and_congr_right fun hr => ?_
  rw [h r hr, Bool.not_false, Bool.and_true]

/-- **The hierarchy of the commands.** When every command is served, whoever may open a file may ask
whether it can be used in the direction that the flags tell; whoever may ask for something may ask
for any part of it, and whether the file exists; and whoever may ask for anything may inspect the
file, with either command. A link may be read exactly where it might be opened for reading, and a
file renamed exactly where both names might be opened for reading and writing. Without rules that
show the directories on the way, to inspect a file is what asking for its existence is; without
temporary rules, to open it in a direction is what asking for the direction is. -/
theorem commands_ordered (p : Policy) :
    (∀ path flags, p.Grants (.openFile path flags) →
      ∃ d, OpenFlags.direction? flags = some d ∧ p.Grants (.access path d.mode)) ∧
    (∀ path mode, p.Grants (.access path mode) →
      p.Grants (.access path AccessMode.existence) ∧
        ∀ part : Word, part.within mode = true → p.Grants (.access path part)) ∧
    (∀ path mode, p.Grants (.access path mode) →
      ∀ follow large, p.Grants (.stat path follow large)) ∧
    (∀ path, p.Grants (.readlink path) ↔ p.Grants (.openFile path OpenFlags.readOnly)) ∧
    (∀ old new, p.Grants (.rename old new) ↔
      p.Grants (.openFile old OpenFlags.readWrite) ∧
        p.Grants (.openFile new OpenFlags.readWrite)) ∧
    ((∀ r ∈ p.rules, r.intermediates = false) → ∀ path follow large,
      p.Grants (.stat path follow large) ↔ p.Grants (.access path AccessMode.existence)) ∧
    ((∀ r ∈ p.rules, r.access.temporary = false) → ∀ path (d : Direction),
      p.Grants (.access path d.mode) ↔ p.Grants (.openFile path d.flags)) := by
  have hnone (mode : Word) : AccessMode.existence.within mode = true := by
    rw [Word.within_iff]
    intro i hi
    rw [AccessMode.bit_existence] at hi
    cases hi
  exact ⟨fun _ _ h => h.access_of_open,
    fun _ mode h => ⟨h.access_of_within (hnone mode), fun _ hp => h.access_of_within hp⟩,
    fun _ _ h => h.stat_of_access, p.grants_readlink_iff, p.grants_rename_iff,
    grants_stat_iff_of_plain, grants_mode_iff_of_lasting⟩

/-- The policy under which the file `/f` may be read and written. -/
def sharedF : Policy where
  deniedErrno := .accessDenied
  rules := [{
    path := ⟨[47, 102], by decide⟩
    access := .readWrite
    intermediates := false
    well_formed := by decide
    slash_iff := by decide }]

/-- Under this policy `/f` may be opened to be written at its end, so one may ask whether it can be
written, whether it exists, and for its status; and it may be opened for reading, for one may ask
whether it can be read. -/
theorem commands_ordered_f :
    let path : Path := ⟨[47, 102], by decide⟩
    sharedF.Grants (.openFile path (OpenFlags.writeOnly ||| OpenFlags.append)) ∧
      sharedF.Grants (.access path AccessMode.write) ∧
      sharedF.Grants (.access path AccessMode.existence) ∧
      sharedF.Grants (.stat path true true) ∧
      sharedF.Grants (.access path Direction.both.mode) ∧
      sharedF.Grants (.access path AccessMode.read) ∧
      sharedF.Grants (.openFile path Direction.reading.flags) ∧
      (sharedF.Grants (.stat path true true) ↔
        sharedF.Grants (.access path AccessMode.existence)) := by
  intro path
  obtain ⟨hopen, haccess, hstat, -, -, hplain, hlasting⟩ := commands_ordered sharedF
  have happend : sharedF.Grants (.openFile path (OpenFlags.writeOnly ||| OpenFlags.append)) :=
    ⟨.openFile path (OpenFlags.writeOnly ||| OpenFlags.append) false, by decide⟩
  obtain ⟨d, hd, hwrite⟩ := hopen path _ happend
  obtain rfl : d = .writing := (Option.some.inj hd).symm
  have hboth : sharedF.Grants (.access path Direction.both.mode) :=
    ⟨.access path Direction.both.mode, by decide⟩
  have hread := (haccess path _ hboth).2 AccessMode.read (by decide)
  exact ⟨happend, hwrite, (haccess path _ hwrite).1, hstat path _ hwrite true true, hboth, hread,
    (hlasting (by decide) path .reading).mp hread, hplain (by decide) path true true⟩

end Policy

end FileBroker
