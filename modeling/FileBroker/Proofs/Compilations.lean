/-
Documents made into gates.

A document is taken as a whole or not at all. What can be wrong with a permission is said here of
the bytes of its path, each fault for itself and without regard to the others, and the faults have
an order. A document makes a gate if it lists no command that cannot be served and nothing is wrong
with any of its permissions; otherwise it is told the first thing that is wrong.

* `Permission.Suffers`, `Permission.Sound`: the faults of a permission, and permissions without any.
* `Permission.FirstFault`: the fault that is told.
* `Permission.Makes`: the rule that says what a permission says.
* `Document.rule_cases`, `Document.rules_cases`: what comes of one permission and of several.
* `CommandSet.contains_ofList`: the members of a set that is given by a list.
* `Document.compile_whole`: the documents that make a gate, the gate, and the fault of the others.
-/
import FileBroker.Document
import FileBroker.Proofs.Grants

namespace FileBroker

/-! ### Permissions -/

/-- The faults in the order in which they are looked for. A path lacks a slash at its end or has one
too many, never both. -/
def RuleFault.order : List RuleFault :=
  [empty, notAbsolute, notCanonical, recursiveWithoutTrailingSlash, trailingSlash, interiorNul]

lemma Path.absolute_iff {bytes : Bytes} :
    Path.absolute bytes = true ↔ [Path.slash] <+: bytes := by
  cases bytes with
  | nil => simp [absolute]
  | cons b rest => simp [absolute, eq_comm]

namespace Permission

/-- The bytes of the path that a permission names. -/
def bytes (p : Permission) : Bytes := Utf8.encode p.path

/-- A fault that the permission has, whatever else is wrong with it. -/
def Suffers (p : Permission) : RuleFault → Prop
  | .empty => p.bytes = []
  | .notAbsolute => ¬ [Path.slash] <+: p.bytes
  | .notCanonical => [Path.slash, Path.slash] <:+: p.bytes ∨
      ∃ piece ∈ Path.split p.bytes, piece = Path.dot ∨ piece = Path.dotDot
  | .recursiveWithoutTrailingSlash =>
      p.access.recursive = true ∧ p.bytes.getLast? ≠ some Path.slash
  | .trailingSlash => p.access.recursive = false ∧ p.bytes.getLast? = some Path.slash
  | .interiorNul => 0 ∈ p.bytes

/-- A permission with a canonical path without a NUL, which ends in a slash exactly if everything
below it is meant. -/
structure Sound (p : Permission) : Prop where
  nonempty : p.bytes ≠ []
  canonical : Path.Canonical p.bytes
  slash_iff : p.bytes.getLast? = some Path.slash ↔ p.access.recursive = true
  nul_free : 0 ∉ p.bytes

/-- The permission has the fault, and none that is looked for before it. -/
def FirstFault (p : Permission) (fault : RuleFault) : Prop :=
  ∃ earlier later, RuleFault.order = earlier ++ fault :: later ∧
    (∀ other ∈ earlier, ¬ p.Suffers other) ∧ p.Suffers fault

/-- The rule says what the permission says. -/
structure Makes (p : Permission) (r : Rule) : Prop where
  path : r.path.bytes = p.bytes
  access : r.access = p.access
  intermediates : r.intermediates = p.intermediates

lemma absolute_iff (p : Permission) : Path.absolute p.bytes = true ↔ ¬ p.Suffers .notAbsolute := by
  rw [Path.absolute_iff, Suffers, not_not]

lemma canonical_iff (p : Permission) :
    Path.Canonical p.bytes ↔ ¬ p.Suffers .notAbsolute ∧ ¬ p.Suffers .notCanonical := by
  simp only [Suffers, not_not, not_or, not_exists, not_and]
  constructor
  · intro h
    exact ⟨h.absolute, h.single_slashes, h.no_dots⟩
  · rintro ⟨habsolute, hslashes, hdots⟩
    exact ⟨habsolute, hslashes, hdots⟩

lemma slash_iff (p : Permission) :
    (p.bytes.getLast? = some Path.slash ↔ p.access.recursive = true) ↔
      ¬ p.Suffers .recursiveWithoutTrailingSlash ∧ ¬ p.Suffers .trailingSlash := by
  cases hr : p.access.recursive <;> simp [Suffers, hr]

lemma sound_iff (p : Permission) : p.Sound ↔ ∀ fault, ¬ p.Suffers fault := by
  constructor
  · intro h fault
    cases fault with
    | empty => exact h.nonempty
    | notAbsolute => exact (p.canonical_iff.mp h.canonical).1
    | notCanonical => exact (p.canonical_iff.mp h.canonical).2
    | recursiveWithoutTrailingSlash => exact (p.slash_iff.mp h.slash_iff).1
    | trailingSlash => exact (p.slash_iff.mp h.slash_iff).2
    | interiorNul => exact h.nul_free
  · intro h
    exact ⟨h .empty, p.canonical_iff.mpr ⟨h _, h _⟩, p.slash_iff.mpr ⟨h _, h _⟩, h .interiorNul⟩

/-- A permission makes a rule, or suffers a first fault that is told. -/
lemma make?_cases (p : Permission) :
    (p.Sound ∧ ∃ r, Rule.make? p.bytes p.access p.intermediates = .ok r ∧ p.Makes r) ∨
      ∃ cause, p.FirstFault cause ∧
        Rule.make? p.bytes p.access p.intermediates = .error cause := by
  -- one case for each fault, in their order; those before it are not suffered
  by_cases hempty : p.Suffers .empty
  · exact .inr ⟨.empty, ⟨[], _, rfl, List.forall_mem_nil _, hempty⟩, if_pos hempty⟩
  have hne : p.bytes ≠ [] := hempty
  by_cases habsolute : p.Suffers .notAbsolute
  · refine .inr ⟨.notAbsolute, ⟨[.empty], _, rfl, by simpa using hempty, habsolute⟩, ?_⟩
    have ha : Path.absolute p.bytes = false :=
      Bool.eq_false_iff.mpr fun h => p.absolute_iff.mp h habsolute
    rw [Rule.make?, if_neg hne, if_pos ha]
  have ha : ¬ Path.absolute p.bytes = false := by
    rw [Bool.not_eq_false, p.absolute_iff]
    exact habsolute
  by_cases hcanonical : p.Suffers .notCanonical
  · refine .inr ⟨.notCanonical,
      ⟨[.empty, .notAbsolute], _, rfl, by simp [hempty, habsolute], hcanonical⟩, ?_⟩
    have hw : ¬ Path.wellFormed p.bytes = true := fun h =>
      (p.canonical_iff.mp ((Path.wellFormed_iff _).mp h)).2 hcanonical
    rw [Rule.make?, if_neg hne, if_neg ha, dif_neg hw]
  have hw : Path.wellFormed p.bytes = true :=
    (Path.wellFormed_iff _).mpr (p.canonical_iff.mpr ⟨habsolute, hcanonical⟩)
  have hends : Path.endsWithSlash p.bytes = p.access.recursive ↔
      ¬ p.Suffers .recursiveWithoutTrailingSlash ∧ ¬ p.Suffers .trailingSlash := by
    rw [← p.slash_iff, Bool.eq_iff_iff, Path.endsWithSlash, decide_eq_true_iff]
  by_cases hmissing : p.Suffers .recursiveWithoutTrailingSlash
  · refine .inr ⟨.recursiveWithoutTrailingSlash, ⟨[.empty, .notAbsolute, .notCanonical], _, rfl,
      by simp [hempty, habsolute, hcanonical], hmissing⟩, ?_⟩
    have hs : ¬ Path.endsWithSlash p.bytes = p.access.recursive := fun h =>
      (hends.mp h).1 hmissing
    rw [Rule.make?, if_neg hne, if_neg ha, dif_pos hw, dif_neg hs, if_pos hmissing.1]
  by_cases htrailing : p.Suffers .trailingSlash
  · refine .inr ⟨.trailingSlash, ⟨[.empty, .notAbsolute, .notCanonical,
      .recursiveWithoutTrailingSlash], _, rfl,
      by simp [hempty, habsolute, hcanonical, hmissing], htrailing⟩, ?_⟩
    have hs : ¬ Path.endsWithSlash p.bytes = p.access.recursive := fun h =>
      (hends.mp h).2 htrailing
    rw [Rule.make?, if_neg hne, if_neg ha, dif_pos hw, dif_neg hs, if_neg (by simp [htrailing.1])]
  have hs : Path.endsWithSlash p.bytes = p.access.recursive := hends.mpr ⟨hmissing, htrailing⟩
  by_cases hnul : p.Suffers .interiorNul
  · refine .inr ⟨.interiorNul, ⟨[.empty, .notAbsolute, .notCanonical,
      .recursiveWithoutTrailingSlash, .trailingSlash], _, rfl,
      by simp [hempty, habsolute, hcanonical, hmissing, htrailing], hnul⟩, ?_⟩
    have hpath : Path.ofBytes? p.bytes = none := dif_neg (not_not.mpr hnul)
    rw [Rule.make?, if_neg hne, if_neg ha, dif_pos hw, dif_pos hs]
    split
    · next path h => simp [hpath] at h
    · rfl
  have hsound : p.Sound := by
    rw [sound_iff]
    rintro (_ | _)
    all_goals assumption
  let r : Rule := ⟨⟨p.bytes, hnul⟩, p.access, p.intermediates, hw, hs⟩
  exact .inl ⟨hsound, r, r.make?_self, rfl, rfl, rfl⟩

end Permission

namespace Document

/-- What comes of one permission. -/
lemma rule_cases (p : Permission) :
    (p.Sound ∧ ∃ r, rule p = .ok r ∧ p.Makes r) ∨
      ∃ cause, p.FirstFault cause ∧ rule p = .error (.badRule p.path cause) := by
  rcases p.make?_cases with ⟨hs, r, hr, hm⟩ | ⟨cause, hf, hr⟩
  · refine .inl ⟨hs, r, ?_, hm⟩
    rw [Permission.bytes] at hr
    rw [rule, hr]
  · refine .inr ⟨cause, hf, ?_⟩
    rw [Permission.bytes] at hr
    rw [rule, hr]

/-- The first permission that makes no rule, and its first fault. -/
def FirstBad (ps : List Permission) (fault : Fault) : Prop :=
  ∃ before p after cause, ps = before ++ p :: after ∧ (∀ q ∈ before, q.Sound) ∧
    p.FirstFault cause ∧ fault = .badRule p.path cause

/-- What comes of several permissions: all their rules, or the fault of the first that makes
none. -/
lemma rules_cases (ps : List Permission) :
    ((∀ p ∈ ps, p.Sound) ∧ ∃ rs, rules ps = .ok rs ∧ List.Forall₂ Permission.Makes ps rs) ∨
      ∃ fault, FirstBad ps fault ∧ rules ps = .error fault := by
  induction ps with
  | nil => exact .inl ⟨List.forall_mem_nil _, [], rfl, .nil⟩
  | cons p ps ih =>
    rcases rule_cases p with ⟨hs, r, hr, hm⟩ | ⟨cause, hf, hr⟩
    · rcases ih with ⟨hss, rs, hrs, hms⟩ | ⟨fault, ⟨before, q, after, cause, hps, hb, hf⟩, hrs⟩
      · refine .inl ⟨List.forall_mem_cons.mpr ⟨hs, hss⟩, r :: rs, ?_, .cons hm hms⟩
        rw [rules, hr, hrs]
        rfl
      · refine .inr ⟨fault, ⟨p :: before, q, after, cause, by rw [hps]; rfl,
          List.forall_mem_cons.mpr ⟨hs, hb⟩, hf⟩, ?_⟩
        rw [rules, hr, hrs]
        rfl
    · refine .inr ⟨_, ⟨[], p, ps, cause, rfl, List.forall_mem_nil _, hf, rfl⟩, ?_⟩
      rw [rules, hr]

/-- A permission that makes no rule is not sound. -/
lemma FirstBad.not_sound {ps : List Permission} {fault : Fault} (h : FirstBad ps fault) :
    ∃ p ∈ ps, ¬ p.Sound := by
  obtain ⟨before, p, after, cause, rfl, -, ⟨-, -, -, -, hf⟩, -⟩ := h
  exact ⟨p, by simp, fun hs => (p.sound_iff.mp hs) cause hf⟩

end Document

/-! ### Documents -/

namespace CommandSet

lemma contains_foldl_insert (cs : List Command) (s : CommandSet) (c : Command) :
    (cs.foldl insert s).contains c = true ↔ s.contains c = true ∨ c ∈ cs ∧ c ≠ .invalid := by
  induction cs generalizing s with
  | nil => simp
  | cons d cs ih =>
    rw [List.foldl_cons, ih, contains_insert, List.mem_cons]
    by_cases h : c = d
    · subst h
      by_cases hc : c = .invalid <;> simp [hc]
    · simp [h]

/-- The members of a set are the listed commands, in whatever order and however often they are
listed. -/
lemma contains_ofList (cs : List Command) (c : Command) :
    (ofList cs).contains c = true ↔ c ∈ cs ∧ c ≠ .invalid := by
  have hempty : empty.contains c = false := by cases c <;> rfl
  rw [ofList, contains_foldl_insert, hempty]
  simp

end CommandSet

lemma DeniedErrno.errno_code (e : DeniedErrno) :
    (e = .eperm ∧ e.errno.code = 1 ∨ e = .eacces ∧ e.errno.code = 13) ∧ 0 < e.errno.code := by
  cases e <;> decide

namespace Document

/-- **A document is taken as a whole or not at all.** It makes a gate exactly if it lists no command
that cannot be served and each of its permissions is sound. The gate then serves the listed
commands and no others, tells who is refused that the operation is not permitted or that permission
is denied, as the document says, and has one rule for each permission, in order. Otherwise the fault
is the command that cannot be served, if it is listed, and else the first fault of the first
permission that makes no rule. -/
theorem compile_whole (d : Document) :
    ((∃ g, d.compile = .ok g) ↔ .invalid ∉ d.commands ∧ ∀ p ∈ d.permissions, p.Sound) ∧
    (∀ g, d.compile = .ok g →
      (∀ c, g.commands.contains c = true ↔ c ∈ d.commands) ∧
      (d.denied = .eperm ∧ g.policy.deniedErrno.code = 1 ∨
        d.denied = .eacces ∧ g.policy.deniedErrno.code = 13) ∧
      0 < g.policy.deniedErrno.code ∧
      List.Forall₂ Permission.Makes d.permissions g.policy.rules) ∧
    ∀ fault, d.compile = .error fault →
      if .invalid ∈ d.commands then fault = .invalidCommand else FirstBad d.permissions fault := by
  by_cases hi : .invalid ∈ d.commands
  · rw [compile, if_pos hi]
    refine ⟨iff_of_false nofun fun h => h.1 hi, nofun, fun fault h => ?_⟩
    rw [if_pos hi]
    exact (Except.error.inj h).symm
  rw [compile, if_neg hi]
  rcases rules_cases d.permissions with ⟨hs, rs, hrs, hms⟩ | ⟨fault, hbad, hrs⟩
  · rw [hrs]
    refine ⟨iff_of_true ⟨_, rfl⟩ ⟨hi, hs⟩, fun g hg => ?_, nofun⟩
    obtain rfl := Except.ok.inj hg
    have hcommands (c : Command) :
        (CommandSet.ofList d.commands).contains c = true ↔ c ∈ d.commands := by
      rw [CommandSet.contains_ofList, and_iff_left_iff_imp]
      rintro hc rfl
      exact hi hc
    exact ⟨hcommands, d.denied.errno_code.1, d.denied.errno_code.2, hms⟩
  · obtain ⟨p, hp, hunsound⟩ := hbad.not_sound
    rw [hrs]
    refine ⟨iff_of_false nofun fun h => hunsound (h.2 p hp), nofun, fun fault' h => ?_⟩
    obtain rfl := Except.error.inj h
    rwa [if_neg hi]

/-- Two documents: one that makes a gate and lists a command twice, and one whose second permission
is the first that makes no rule. -/
theorem compile_whole_below_w :
    let work : Permission := ⟨"/w/", .readOnlyRecursive, true⟩
    let bare : Permission := ⟨"/w", .readOnlyRecursive, true⟩
    let dotted : Permission := ⟨"/./é", .readOnly, false⟩
    let good : Document := ⟨.eacces, [.stat, .openFile, .stat], [work]⟩
    let bad : Document := ⟨.eperm, [.stat], [work, bare, dotted]⟩
    let served : CommandSet := { openFile := true, stat := true }
    let g : Gate := ⟨served, .accessDenied,
      [⟨⟨[47, 119, 47], by decide⟩, .readOnlyRecursive, true, by decide, by decide⟩]⟩
    good.compile = .ok g ∧ work.Sound ∧ List.Forall₂ Permission.Makes [work] g.policy.rules ∧
      bad.compile = .error (.badRule "/w" .recursiveWithoutTrailingSlash) ∧
      FirstBad bad.permissions (.badRule "/w" .recursiveWithoutTrailingSlash) := by
  intro work bare dotted good bad served g
  have hg : good.compile = .ok g := by decide +kernel
  have hb : bad.compile = .error (.badRule "/w" .recursiveWithoutTrailingSlash) := by
    decide +kernel
  obtain ⟨hsound, hgate, -⟩ := compile_whole good
  obtain ⟨-, -, hfault⟩ := compile_whole bad
  obtain ⟨-, -, -, hrules⟩ := hgate g hg
  have hfirst := hfault _ hb
  rw [if_neg (by decide)] at hfirst
  exact ⟨hg, (hsound.mp ⟨g, hg⟩).2 work List.mem_cons_self, hrules, hb, hfirst⟩

end Document

end FileBroker
