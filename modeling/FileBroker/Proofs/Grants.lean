/-
What a table of rules grants.

The reference is said without masks and without the order of the rules: a request is granted if
one rule alone has everything that it needs. The gate scans its rules for the first that grants
and tests masks; it lets pass exactly what the reference grants.

* `Rule.Covers`: the paths a rule speaks of.
* `Rule.MayAccess`, `Rule.MayOpen`, `Rule.MayReadlink`, `Rule.MayRename`, `Rule.MayStat`: what one
  rule must have for each kind of request.
* `Granted`: the requests that a table of rules grants.
* `Rule.make?_self`: every rule is one that can be made.
* `Request.approval`, `Gate.evaluate_approval`: a request is approved as it stands.
* `evaluate_decides`: the gate refuses a command that is not served, and otherwise lets pass
  exactly the granted requests.
-/
import FileBroker.Gate
import FileBroker.Proofs.Paths
import FileBroker.Proofs.Rights

namespace FileBroker

/-! ### Rules -/

namespace Rule

/-- Every rule is the one that is made of its parts. -/
lemma make?_self (r : Rule) : make? r.path.bytes r.access r.intermediates = .ok r := by
  obtain ⟨rest, hb⟩ := ((Path.wellFormed_iff _).mp r.well_formed).absolute
  have hn : r.path.bytes ≠ [] := by simp [← hb]
  have ha : ¬ Path.absolute r.path.bytes = false := by simp [← hb, Path.absolute]
  have hp : Path.ofBytes? r.path.bytes = some r.path := dif_pos r.path.nul_free
  rw [make?, if_neg hn, if_neg ha, dif_pos r.well_formed, dif_pos r.slash_iff]
  split
  · next path h =>
    obtain rfl : r.path = path := Option.some.inj (hp.symm.trans h)
    rfl
  · next h => simp [hp] at h

/-- The rule speaks of the path: the path is canonical, and lies strictly below the rule's path if
the rule is recursive, exactly there if it is not. -/
structure Covers (r : Rule) (bytes : Bytes) : Prop where
  canonical : Path.Canonical bytes
  below : r.access.recursive = true →
    r.path.bytes <+: bytes ∧ r.path.bytes.length < bytes.length
  same : r.access.recursive = false → bytes = r.path.bytes

lemma covers_iff (r : Rule) (bytes : Bytes) : r.covers bytes = true ↔ r.Covers bytes := by
  rw [covers, Bool.and_eq_true, Path.wellFormed_iff, reaches]
  constructor
  · rintro ⟨hc, hr⟩
    refine ⟨hc, fun h => ?_, fun h => ?_⟩
    · simpa [h] using hr
    · simpa [h] using hr
  · intro h
    refine ⟨h.canonical, ?_⟩
    cases hr : r.access.recursive with
    | true => simpa using h.below hr
    | false => simpa using h.same hr

/-- A covered path is handed on as it is. -/
lemma nameFor_of_covers {r : Rule} {path : Path} (h : r.Covers path.bytes) :
    r.nameFor path = path := by
  rw [nameFor]
  cases hr : r.access.recursive with
  | true => rfl
  | false =>
    have := h.same hr
    cases path
    cases hp : r.path
    simp_all

/-- The rule has the rights that an access request needs. -/
structure MayAccess (r : Rule) (bytes : Bytes) (mode : Word) : Prop where
  covers : r.Covers bytes
  read : mode.bit AccessMode.readBit = true → .read ∈ r.access.rights
  write : mode.bit AccessMode.writeBit = true → .write ∈ r.access.rights

/-- The rule has the rights that an open request needs. A temporary rule admits only files that
are created anew. -/
structure MayOpen (r : Rule) (bytes : Bytes) (flags : Word) : Prop where
  covers : r.Covers bytes
  mode : ∀ right ∈ OpenFlags.neededRights (OpenFlags.accessMode flags), right ∈ r.access.rights
  truncate : flags.bit OpenFlags.truncateBit = true → .write ∈ r.access.rights
  create : flags.bit OpenFlags.createBit = true → .create ∈ r.access.rights
  temporary : r.access.temporary = true →
    flags.bit OpenFlags.createBit = true ∧ flags.bit OpenFlags.exclusiveBit = true

/-- The rule lets a link be read. -/
structure MayReadlink (r : Rule) (bytes : Bytes) : Prop where
  covers : r.Covers bytes
  read : .read ∈ r.access.rights
  lasting : r.access.temporary = false

/-- The rule lets one end of a renaming lie at the path. -/
structure MayRename (r : Rule) (bytes : Bytes) : Prop where
  covers : r.Covers bytes
  read : .read ∈ r.access.rights
  write : .write ∈ r.access.rights
  lasting : r.access.temporary = false

/-- The rule lets a path be inspected, whatever its class: it covers the path, or shows the
directories on the way to its own. -/
def MayStat (r : Rule) (bytes : Bytes) : Prop :=
  r.Covers bytes ∨
    (r.intermediates = true ∧ Path.Canonical bytes ∧ Path.Leads bytes r.path.bytes)

lemma grantsAccess_iff (r : Rule) (bytes : Bytes) (mode : Word) :
    r.grantsAccess bytes mode = true ↔
      (∀ i, mode.bit i = true → i = AccessMode.writeBit ∨ i = AccessMode.readBit) ∧
        r.MayAccess bytes mode := by
  have hm : (if mode = AccessMode.existence then r.access.reads || r.access.writes
      else (!mode.overlaps AccessMode.read || r.access.reads) &&
        (!mode.overlaps AccessMode.write || r.access.writes)) = true ↔
      (mode.bit AccessMode.readBit = true → .read ∈ r.access.rights) ∧
        (mode.bit AccessMode.writeBit = true → .write ∈ r.access.rights) := by
    split
    · next h =>
      subst h
      simp [AccessClass.reads_or_writes, AccessMode.bit_existence]
    · rw [AccessMode.overlaps_read, AccessMode.overlaps_write, ← AccessClass.reads_iff,
        ← AccessClass.writes_iff]
      grind
  rw [grantsAccess, ← AccessMode.within_known_iff, Bool.and_eq_true, hm, Bool.and_eq_true,
    Bool.and_eq_true, covers_iff, Bool.not_eq_true']
  constructor
  · rintro ⟨⟨⟨hc, hw⟩, he⟩, hr, hw'⟩
    exact ⟨⟨hw, he⟩, hc, hr, hw'⟩
  · rintro ⟨⟨hw, he⟩, h⟩
    exact ⟨⟨⟨h.covers, hw⟩, he⟩, h.read, h.write⟩

/-- The rights that a direction needs, by the access mode. -/
lemma grantsDirection_iff (r : Rule) (flags : Word) :
    r.grantsDirection flags = true ↔
      OpenFlags.accessMode flags ≠ 3 ∧
        ∀ right ∈ OpenFlags.neededRights (OpenFlags.accessMode flags),
          right ∈ r.access.rights := by
  have h4 : OpenFlags.accessMode flags < 4 := Nat.mod_lt _ (by decide)
  rw [grantsDirection, OpenFlags.direction?_eq]
  generalize OpenFlags.accessMode flags = m at h4
  generalize r.access = c
  obtain rfl | rfl | rfl | rfl : m = 0 ∨ m = 1 ∨ m = 2 ∨ m = 3 := by omega
  all_goals cases c <;> decide

lemma grantsOpen_iff (r : Rule) (bytes : Bytes) (flags : Word) :
    r.grantsOpen bytes flags = true ↔
      (∀ i, flags.bit i = true → i ∈ OpenFlags.knownBits) ∧ OpenFlags.accessMode flags ≠ 3 ∧
        r.MayOpen bytes flags := by
  rw [grantsOpen, Bool.and_eq_true, Bool.and_eq_true, Bool.and_eq_true, Bool.and_eq_true,
    Bool.and_eq_true, covers_iff, OpenFlags.within_known_iff, grantsDirection_iff,
    OpenFlags.overlaps_truncate, OpenFlags.overlaps_create, Bool.or_eq_true, Bool.or_eq_true,
    Bool.or_eq_true, AccessClass.writes_iff, AccessClass.creates_iff,
    OpenFlags.includes_exclusiveCreate_iff]
  simp only [Bool.not_eq_true', ← Bool.not_eq_true, ← imp_iff_not_or]
  constructor
  · rintro ⟨⟨⟨⟨⟨hc, hk⟩, hm, hr⟩, ht⟩, hcr⟩, htmp⟩
    exact ⟨hk, hm, hc, hr, ht, hcr, htmp⟩
  · rintro ⟨hk, hm, h⟩
    exact ⟨⟨⟨⟨⟨h.covers, hk⟩, hm, h.mode⟩, h.truncate⟩, h.create⟩, h.temporary⟩

/-- The flag that concerns the calling process alone makes no difference. -/
lemma mayOpen_onWire_iff (r : Rule) (bytes : Bytes) (flags : Word) :
    r.MayOpen bytes (OpenFlags.onWire flags) ↔ r.MayOpen bytes flags := by
  have hb {i : ℕ} (hi : i ≠ OpenFlags.closeOnExecBit) :
      (OpenFlags.onWire flags).bit i = flags.bit i := by
    rw [OpenFlags.bit_onWire, decide_eq_true hi, Bool.and_true]
  have hc := hb (i := OpenFlags.createBit) (by decide)
  have he := hb (i := OpenFlags.exclusiveBit) (by decide)
  have ht := hb (i := OpenFlags.truncateBit) (by decide)
  constructor
  · rintro ⟨h, hm, htr, hcr, htmp⟩
    rw [OpenFlags.accessMode_onWire] at hm
    rw [ht] at htr
    rw [hc] at hcr htmp
    rw [he] at htmp
    exact ⟨h, hm, htr, hcr, htmp⟩
  · rintro ⟨h, hm, htr, hcr, htmp⟩
    rw [← OpenFlags.accessMode_onWire] at hm
    rw [← ht] at htr
    rw [← hc] at hcr htmp
    rw [← he] at htmp
    exact ⟨h, hm, htr, hcr, htmp⟩

/-- Opening for reading is what reading a link needs. -/
lemma grantsOpen_readOnly_iff (r : Rule) (bytes : Bytes) :
    r.grantsOpen bytes OpenFlags.readOnly = true ↔ r.MayReadlink bytes := by
  have hb : ∀ i, OpenFlags.readOnly.bit i = false := (Word.eq_zero_iff _).mp rfl
  have hm : OpenFlags.accessMode OpenFlags.readOnly = 0 := by decide
  rw [grantsOpen_iff, hm]
  constructor
  · rintro ⟨-, -, h⟩
    refine ⟨h.covers, h.mode _ (by rw [hm]; simp [OpenFlags.neededRights]), ?_⟩
    by_contra ht
    simpa [hb] using (h.temporary (by simpa using ht)).1
  · intro h
    refine ⟨by simp [hb], by decide, h.covers, ?_, by simp [hb], by simp [hb], by simp [h.lasting]⟩
    rw [hm]
    simpa [OpenFlags.neededRights] using h.read

/-- Opening for reading and writing is what both ends of a renaming need. -/
lemma grantsOpen_readWrite_iff (r : Rule) (bytes : Bytes) :
    r.grantsOpen bytes OpenFlags.readWrite = true ↔ r.MayRename bytes := by
  have hb (i : ℕ) : OpenFlags.readWrite.bit i = decide (i = 1) := by
    have : OpenFlags.readWrite = Word.single 1 := by decide
    rw [this, Word.bit_single]
    grind
  have hm : OpenFlags.accessMode OpenFlags.readWrite = 2 := by decide
  rw [grantsOpen_iff, hm]
  constructor
  · rintro ⟨-, -, h⟩
    have hr := h.mode
    rw [hm] at hr
    refine ⟨h.covers, hr _ (by decide), hr _ (by decide), ?_⟩
    by_contra ht
    simpa [hb, OpenFlags.createBit] using (h.temporary (by simpa using ht)).1
  · intro h
    refine ⟨by simp [hb, OpenFlags.knownBits], by decide, h.covers, ?_, ?_, ?_,
      by simp [h.lasting]⟩
    · rw [hm]
      simpa [OpenFlags.neededRights] using ⟨h.read, h.write⟩
    · simp [hb, OpenFlags.truncateBit]
    · simp [hb, OpenFlags.createBit]

lemma statName?_isSome_iff (r : Rule) (path : Path) :
    (r.statName? path).isSome = true ↔ r.MayStat path.bytes := by
  rw [statName?, MayStat, ← covers_iff, ← Path.wellFormed_iff, ← Path.isAncestor_iff]
  split
  · next h => simp [h]
  · next h =>
    split
    · next hl => simpa [h, leadsFrom, and_assoc] using hl
    · next hl => simpa [h, leadsFrom, and_assoc] using hl

end Rule

/-! ### Tables of rules -/

/-- The requests that a table of rules grants. For all but a renaming one rule alone must have
everything that is needed; for a renaming there must be one for each end. -/
def Granted (rules : List Rule) : Request → Prop
  | .access path mode =>
    (∀ i, mode.bit i = true → i = AccessMode.writeBit ∨ i = AccessMode.readBit) ∧
      ∃ r ∈ rules, r.MayAccess path.bytes mode
  | .openFile path flags =>
    (∀ i, i ≠ OpenFlags.closeOnExecBit → flags.bit i = true → i ∈ OpenFlags.knownBits) ∧
      OpenFlags.accessMode flags ≠ 3 ∧ ∃ r ∈ rules, r.MayOpen path.bytes flags
  | .readlink path => ∃ r ∈ rules, r.MayReadlink path.bytes
  | .rename old new =>
    (∃ r ∈ rules, r.MayRename old.bytes) ∧ ∃ r ∈ rules, r.MayRename new.bytes
  | .stat path _ _ => ∃ r ∈ rules, r.MayStat path.bytes

namespace Policy

lemma accessName?_isSome_iff (p : Policy) (path : Path) (mode : Word) :
    (p.accessName? path mode).isSome = true ↔ Granted p.rules (.access path mode) := by
  have hr (r : Rule) : (r.accessName? path mode).isSome = true ↔
      r.grantsAccess path.bytes mode = true := by
    rw [Rule.accessName?]
    split <;> simp_all
  rw [accessName?, List.findSome?_isSome_iff, Granted]
  simp only [hr, Rule.grantsAccess_iff]
  grind

lemma accessName?_eq {p : Policy} {path name : Path} {mode : Word}
    (h : p.accessName? path mode = some name) : name = path := by
  obtain ⟨r, -, hn⟩ := List.exists_of_findSome?_eq_some h
  rw [Rule.accessName?, Option.ite_none_right_eq_some] at hn
  rw [← Option.some.inj hn.2]
  exact Rule.nameFor_of_covers ((Rule.grantsAccess_iff _ _ _).mp hn.1).2.covers

/-- What an open request is granted on comes from a rule that grants it. -/
lemma exists_rule_of_opening? {p : Policy} {path : Path} {flags : Word} {o : Opening}
    (h : p.opening? path flags = some o) :
    ∃ r ∈ p.rules, r.grantsOpen path.bytes flags = true ∧ o = ⟨path, r.access.temporary⟩ := by
  obtain ⟨r, hr, ho⟩ := List.exists_of_findSome?_eq_some h
  rw [Rule.opening?, Option.ite_none_right_eq_some] at ho
  obtain ⟨hg, ho⟩ := ho
  refine ⟨r, hr, hg, ?_⟩
  rw [← Option.some.inj ho, Rule.nameFor_of_covers ((Rule.grantsOpen_iff _ _ _).mp hg).2.2.covers]

lemma opening?_isSome_iff (p : Policy) (path : Path) (flags : Word) :
    (p.opening? path flags).isSome = true ↔
      ∃ r ∈ p.rules, r.grantsOpen path.bytes flags = true := by
  have hr (r : Rule) : (r.opening? path flags).isSome = true ↔
      r.grantsOpen path.bytes flags = true := by
    rw [Rule.opening?]
    split <;> simp_all
  rw [opening?, List.findSome?_isSome_iff]
  simp only [hr]

lemma statName?_isSome_iff (p : Policy) (path : Path) :
    (p.statName? path).isSome = true ↔ ∃ r ∈ p.rules, r.MayStat path.bytes := by
  rw [statName?, List.findSome?_isSome_iff]
  simp only [Rule.statName?_isSome_iff]

lemma statName?_eq {p : Policy} {path name : Path} (h : p.statName? path = some name) :
    name = path := by
  obtain ⟨r, -, hn⟩ := List.exists_of_findSome?_eq_some h
  rw [Rule.statName?] at hn
  split at hn
  · next hc =>
    rw [← Option.some.inj hn]
    exact Rule.nameFor_of_covers ((Rule.covers_iff _ _).mp hc)
  · rw [Option.ite_none_right_eq_some] at hn
    exact (Option.some.inj hn.2).symm

end Policy

namespace Gate

variable {g : Gate}

lemma permitsOpen_isSome_iff (h : g.commands.contains .openFile = true) (path : Path)
    (flags : Word) :
    (g.permitsOpen path flags).isSome = true ↔ Granted g.policy.rules (.openFile path flags) := by
  rw [permitsOpen, if_pos h, Option.isSome_map, Policy.opening?_isSome_iff, Granted]
  simp only [Rule.grantsOpen_iff, OpenFlags.accessMode_onWire, Rule.mayOpen_onWire_iff,
    OpenFlags.bit_onWire, Bool.and_eq_true, decide_eq_true_eq]
  grind

lemma permitsRename_isSome_iff (h : g.commands.contains .rename = true) (old new : Path) :
    (g.permitsRename old new).isSome = true ↔ Granted g.policy.rules (.rename old new) := by
  have ho (path : Path) : (∃ r ∈ g.policy.rules, r.MayRename path.bytes) ↔
      ∃ o, g.policy.opening? path OpenFlags.readWrite = some o := by
    rw [← Option.isSome_iff_exists, Policy.opening?_isSome_iff]
    simp only [Rule.grantsOpen_readWrite_iff]
  have hu {path : Path} {o : Opening} (h : g.policy.opening? path OpenFlags.readWrite = some o) :
      o.unlink = false := by
    obtain ⟨r, -, hr, rfl⟩ := Policy.exists_rule_of_opening? h
    exact ((Rule.grantsOpen_readWrite_iff _ _).mp hr).lasting
  rw [permitsRename, if_pos h, Granted, ho, ho]
  split
  · next o n hold hnew => simp [hold, hnew, hu hold, hu hnew]
  · next hnone =>
    simp only [Option.isSome_none, Bool.false_eq_true, false_iff, not_and, not_exists]
    rintro ⟨o, hold⟩ n hnew
    exact hnone o n hold hnew

/-- A request whose command is served is approved exactly if the table grants it. -/
lemma approval?_isSome_iff {request : Request}
    (h : g.commands.contains request.command = true) :
    (g.approval? request).isSome = true ↔ Granted g.policy.rules request := by
  cases request with
  | access path mode =>
    have hc : g.commands.contains .access = true := h
    rw [approval?, Option.isSome_map, permitsAccess, if_pos hc, Policy.accessName?_isSome_iff]
  | openFile path flags => rw [approval?, Option.isSome_map, permitsOpen_isSome_iff h]
  | readlink path =>
    have hc : g.commands.contains .readlink = true := h
    rw [approval?, Option.isSome_map, permitsReadlink, if_pos hc, Option.isSome_map,
      Policy.opening?_isSome_iff, Granted]
    simp only [Rule.grantsOpen_readOnly_iff]
  | rename old new => rw [approval?, Option.isSome_map, permitsRename_isSome_iff h]
  | stat path follow large =>
    have hc : (Request.stat path follow large).command = .stat ∨
        (Request.stat path follow large).command = .stat64 := by
      cases large <;> simp [Request.command]
    rw [approval?, Option.isSome_map, permitsStat, if_pos (by simpa using hc), if_pos h,
      Policy.statName?_isSome_iff, Granted]

/-- The name that is approved is the one that was asked for. -/
lemma permitsAccess_eq {path name : Path} {mode : Word}
    (h : g.permitsAccess path mode = some name) : name = path := by
  rw [permitsAccess, Option.ite_none_right_eq_some] at h
  exact Policy.accessName?_eq h.2

lemma permitsStat_eq {c : Command} {path name : Path} (h : g.permitsStat c path = some name) :
    name = path := by
  rw [permitsStat, Option.ite_none_right_eq_some, Option.ite_none_right_eq_some] at h
  exact Policy.statName?_eq h.2.2

/-- An approved open request keeps its name, loses the flag that concerns the calling process
alone, and takes the fate of the name from a rule that grants it. -/
lemma permitsOpen_eq {path : Path} {flags : Word} {grant : OpenGrant}
    (h : g.permitsOpen path flags = some grant) :
    ∃ r ∈ g.policy.rules, r.MayOpen path.bytes flags ∧
      grant = ⟨path, OpenFlags.onWire flags, r.access.temporary⟩ := by
  rw [permitsOpen, Option.ite_none_right_eq_some, Option.map_eq_some_iff] at h
  obtain ⟨-, o, ho, rfl⟩ := h
  obtain ⟨r, hr, hg, rfl⟩ := Policy.exists_rule_of_opening? ho
  rw [Rule.grantsOpen_iff, Rule.mayOpen_onWire_iff] at hg
  exact ⟨r, hr, hg.2.2, rfl⟩

lemma permitsReadlink_eq {path name : Path} (h : g.permitsReadlink path = some name) :
    name = path := by
  rw [permitsReadlink, Option.ite_none_right_eq_some, Option.map_eq_some_iff] at h
  obtain ⟨-, o, ho, rfl⟩ := h
  obtain ⟨r, -, -, rfl⟩ := Policy.exists_rule_of_opening? ho
  rfl

lemma permitsRename_eq {old new : Path} {grant : RenameGrant}
    (h : g.permitsRename old new = some grant) : grant = ⟨old, new⟩ := by
  rw [permitsRename, Option.ite_none_right_eq_some] at h
  have hr := h.2
  split at hr
  · next o n hold hnew =>
    obtain ⟨_, -, -, rfl⟩ := Policy.exists_rule_of_opening? hold
    obtain ⟨_, -, -, rfl⟩ := Policy.exists_rule_of_opening? hnew
    rw [Option.ite_none_left_eq_some] at hr
    exact (Option.some.inj hr.2).symm
  · simp at hr

lemma evaluate_eq_ok_iff {request : Request} {a : Approval} :
    g.evaluate request = .ok a ↔
      g.commands.contains request.command = true ∧ g.approval? request = some a := by
  rw [evaluate]
  cases hc : g.commands.contains request.command with
  | false => simp
  | true => cases g.approval? request <;> simp

end Gate

/-- The approval of a request as it stands. -/
def Request.approval (unlink : Bool) : Request → Approval
  | access path mode => .access path mode
  | openFile path flags => .openFile path (OpenFlags.onWire flags) unlink
  | readlink path => .readlink path
  | rename old new => .rename old new
  | stat path follow large => .stat path follow large

/-- A request is approved as it stands, but for the flag that concerns the calling process alone. A
file loses its name if a temporary rule lets it be opened. -/
lemma Gate.evaluate_approval {g : Gate} {request : Request} {a : Approval}
    (h : g.evaluate request = .ok a) :
    ∃ unlink, a = request.approval unlink ∧ ∀ path flags, request = .openFile path flags →
      ∃ r ∈ g.policy.rules, r.MayOpen path.bytes flags ∧ r.access.temporary = unlink := by
  have ha := (evaluate_eq_ok_iff.mp h).2
  cases request with
  | access path mode =>
    obtain ⟨name, hn, rfl⟩ := Option.map_eq_some_iff.mp ha
    obtain rfl := permitsAccess_eq hn
    exact ⟨false, rfl, nofun⟩
  | openFile path flags =>
    obtain ⟨grant, hn, rfl⟩ := Option.map_eq_some_iff.mp ha
    obtain ⟨r, hr, hm, rfl⟩ := permitsOpen_eq hn
    refine ⟨r.access.temporary, rfl, fun path' flags' he => ?_⟩
    obtain ⟨rfl, rfl⟩ := Request.openFile.inj he
    exact ⟨r, hr, hm, rfl⟩
  | readlink path =>
    obtain ⟨name, hn, rfl⟩ := Option.map_eq_some_iff.mp ha
    obtain rfl := permitsReadlink_eq hn
    exact ⟨false, rfl, nofun⟩
  | rename old new =>
    obtain ⟨grant, hn, rfl⟩ := Option.map_eq_some_iff.mp ha
    obtain rfl := permitsRename_eq hn
    exact ⟨false, rfl, nofun⟩
  | stat path follow large =>
    obtain ⟨name, hn, rfl⟩ := Option.map_eq_some_iff.mp ha
    obtain rfl := permitsStat_eq hn
    exact ⟨false, rfl, nofun⟩

/-- **The decision of the gate**: it refuses a command that is not served, and of the requests
with a served command it lets pass those that the table of rules grants and no others. -/
theorem evaluate_decides (g : Gate) (request : Request) :
    (g.evaluate request = .error .commandDisabled ↔
      g.commands.contains request.command = false) ∧
    ((∃ approval, g.evaluate request = .ok approval) ↔
      g.commands.contains request.command = true ∧ Granted g.policy.rules request) ∧
    (g.evaluate request = .error .policyDenied ↔
      g.commands.contains request.command = true ∧ ¬ Granted g.policy.rules request) := by
  rw [Gate.evaluate]
  cases hc : g.commands.contains request.command with
  | false => simp
  | true =>
    rw [← Gate.approval?_isSome_iff hc]
    cases g.approval? request <;> simp

end FileBroker
