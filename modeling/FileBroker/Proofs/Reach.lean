/-
How far rules reach.

Rules and requests are compared byte by byte, but what counts is which directories lie in which. As
all paths that are compared are canonical, the two agree: a recursive rule covers what lies below
its path, any other rule covers its path alone, and the bit for the directories on the way adds
those that the rule's path lies below, for inspections only.

* `Rule.Contains`: what lies where a rule says, told by components.
* `Rule.covers_lexically`: a rule covers what it contains.
* `Rule.leadsFrom_iff`: which paths the bit for the directories on the way is about.
* `Gate.evaluate_congr`, `Gate.evaluate_mono`: the bits in a table matter to inspections only, and
  never take anything away.
* `Gate.way_shown`: what the bit does, for a rule and for a table.
* `Rule.way_spelled`: a slash at the end of a directory on the way makes no difference, but for the
  directory of a recursive rule.
-/
import FileBroker.Proofs.Components
import FileBroker.Proofs.Grants

open FileBroker.Path (Canonical Under Leads components slash endsWithSlash)

namespace FileBroker

/-! ### What a rule covers -/

namespace Rule

variable {r : Rule} {bytes : Bytes}

lemma canonical (r : Rule) : Canonical r.path.bytes := (Path.wellFormed_iff _).mp r.well_formed

/-- What lies where the rule says: what goes on where the rule's path ends if the rule is recursive,
and what is the same if it is not. -/
def Contains (r : Rule) (names : List Bytes) : Prop :=
  if r.access.recursive then Under (Path.resolve r.path.bytes) names
  else names = Path.resolve r.path.bytes

lemma covers_iff_contains (h : Canonical bytes) :
    r.covers bytes = true ↔ r.Contains (Path.resolve bytes) ∧
      (r.access.recursive = false → endsWithSlash bytes = false) := by
  rw [covers, (Path.wellFormed_iff _).mpr h, Bool.true_and, reaches, Contains, h.resolve_eq,
    r.canonical.resolve_eq]
  cases hr : r.access.recursive with
  | true =>
    have ht : Path.trail r.path.bytes = [slash] := by
      rw [Path.trail, r.slash_iff, hr, if_pos rfl]
    have hlonger : r.path.bytes <+: bytes →
        (r.path.bytes.length < bytes.length ↔ bytes ≠ r.path.bytes) := by
      rintro ⟨more, rfl⟩
      simp [List.length_pos_iff]
    have hne : Under (components r.path.bytes) (components bytes) → bytes ≠ r.path.bytes := by
      rintro hu rfl
      exact hu.2 rfl
    have hp := r.canonical.prefix_iff h ht
    simp only [if_true, Bool.and_eq_true, List.isPrefixOf_iff_prefix, decide_eq_true_eq,
      reduceCtorEq, false_implies, and_true]
    tauto
  | false =>
    have ht : Path.trail r.path.bytes = [] := by
      rw [Path.trail, r.slash_iff, hr, if_neg Bool.false_ne_true]
    simp only [Bool.false_eq_true, if_false, decide_eq_true_eq, true_implies]
    constructor
    · rintro rfl
      exact ⟨rfl, r.slash_iff.trans hr⟩
    · rintro ⟨hc, hend⟩
      have hb := h.bytes_eq
      have hp := r.canonical.bytes_eq
      rw [hc, Path.trail, hend, if_neg Bool.false_ne_true] at hb
      rw [ht] at hp
      exact hb.trans hp.symm

/-- Every rule covers something. -/
lemma exists_covers (r : Rule) : ∃ path : Path, r.covers path.bytes = true := by
  cases hr : r.access.recursive with
  | true =>
    have hend : r.path.bytes.getLast? = some slash := by
      simpa [endsWithSlash] using r.slash_iff.trans hr
    obtain ⟨init, hi⟩ := List.getLast?_eq_some_iff.mp hend
    have hcanonical : Canonical (init ++ slash :: [97]) :=
      Canonical.append_name (hi ▸ r.canonical) (by decide) (by decide)
    have hnul : 0 ∉ init ++ slash :: [97] := by
      have := r.path.nul_free
      rw [hi] at this
      simpa using this
    refine ⟨⟨init ++ slash :: [97], hnul⟩, ?_⟩
    rw [covers, (Path.wellFormed_iff _).mpr hcanonical, reaches, hr, hi]
    simp
  | false =>
    refine ⟨r.path, ?_⟩
    rw [covers, r.well_formed, reaches, hr]
    simp

/-- **Rules cover what they contain.** A path that a rule covers, and so every path on which it
grants access or an open file, or an inspection without the bit for the directories on the way,
leads below the rule's path if the rule is recursive, and to the same place if it is not. A
well-formed path that leads there is covered, unless the rule is not recursive and a slash stands at
the end of the path. Every rule covers something. -/
theorem covers_lexically (r : Rule) :
    (∀ path : Path,
      r.covers path.bytes = true ∨ (∃ mode, (r.accessName? path mode).isSome = true) ∨
          (∃ flags, (r.opening? path flags).isSome = true) ∨
          (r.intermediates = false ∧ (r.statName? path).isSome = true) →
        r.Contains (Path.resolve path.bytes)) ∧
    (∀ path : Path, Path.wellFormed path.bytes = true → r.Contains (Path.resolve path.bytes) →
      (r.access.recursive = false → endsWithSlash path.bytes = false) →
        r.covers path.bytes = true) ∧
    ∃ path : Path, r.covers path.bytes = true := by
  refine ⟨fun path hpath => ?_, fun path hw hcontains hend => ?_, r.exists_covers⟩
  · have hcovers : r.covers path.bytes = true := by
      rcases hpath with hc | ⟨mode, hm⟩ | ⟨flags, hf⟩ | ⟨hbit, hs⟩
      · exact hc
      · rw [accessName?, Option.isSome_ite, grantsAccess_iff] at hm
        exact (covers_iff _ _).mpr hm.2.covers
      · rw [opening?, Option.isSome_ite, grantsOpen_iff] at hf
        exact (covers_iff _ _).mpr hf.2.2.covers
      · rw [statName?_isSome_iff, MayStat, hbit] at hs
        exact (covers_iff _ _).mpr (hs.resolve_right fun h => Bool.false_ne_true h.1)
    have hcanonical := ((covers_iff _ _).mp hcovers).canonical
    exact ((covers_iff_contains hcanonical).mp hcovers).1
  · exact (covers_iff_contains ((Path.wellFormed_iff _).mp hw)).mpr ⟨hcontains, hend⟩

/-- The rule for everything below `/d/`, which shows the directories on the way. -/
def belowD : Rule where
  path := ⟨[47, 100, 47], by decide⟩
  access := .readOnlyRecursive
  intermediates := true
  well_formed := by decide
  slash_iff := by decide

/-- The rule covers `/d/x`, which leads below its path; `/d/y` leads there too, and is covered. -/
theorem covers_below_d :
    (belowD.covers [47, 100, 47, 120] = true ∧ belowD.Contains [[100], [120]]) ∧
      belowD.Contains [[100], [121]] ∧ belowD.covers [47, 100, 47, 121] = true := by
  have hx : belowD.covers [47, 100, 47, 120] = true := by decide
  have hy : belowD.Contains [[100], [121]] := ⟨by decide, by decide⟩
  exact ⟨⟨hx, (covers_lexically belowD).1 ⟨[47, 100, 47, 120], by decide⟩ (.inl hx)⟩, hy,
    (covers_lexically belowD).2.1 ⟨[47, 100, 47, 121], by decide⟩ (by decide) hy (by decide)⟩

/-! ### Directories on the way -/

lemma statName?_of_not_covers {path : Path} (h : r.covers path.bytes = false) :
    r.statName? path = if r.leadsFrom path.bytes then some path else none := by
  rw [statName?, if_neg (by simp [h])]

/-- A directory on the way is one whose components the rule's path goes on from, or the directory of
a recursive rule, written without a slash at the end. -/
lemma leadsFrom_iff (hc : Canonical bytes) :
    r.leadsFrom bytes = true ↔ r.intermediates = true ∧
      (Under (components bytes) (components r.path.bytes) ∨ r.path.bytes = bytes ++ [slash]) := by
  rw [leadsFrom, Bool.and_eq_true, Bool.and_eq_true, (Path.wellFormed_iff _).mpr hc,
    Path.isAncestor_iff, hc.leads_iff r.canonical, and_iff_left rfl]

/-- A path that is not covered is granted for inspection if the rule's path goes on from it. -/
lemma statName?_of_under {path : Path} (hi : r.intermediates = true) (hc : Canonical path.bytes)
    (h : r.covers path.bytes = false)
    (hu : Under (components path.bytes) (components r.path.bytes)) :
    r.statName? path = some path := by
  rw [statName?_of_not_covers h, if_pos ((leadsFrom_iff hc).mpr ⟨hi, .inl hu⟩)]

/-- A path that is not covered but granted for inspection is handed on as it is, and the rule's path
goes on from it or, if the rule is recursive, has the same components. -/
lemma prefix_of_statName? {path name : Path} (hc : Canonical path.bytes)
    (h : r.covers path.bytes = false) (hs : r.statName? path = some name) :
    name = path ∧ components path.bytes <+: components r.path.bytes ∧
      (r.access.recursive = false → components path.bytes ≠ components r.path.bytes) := by
  rw [statName?_of_not_covers h, Option.ite_none_right_eq_some, leadsFrom_iff hc] at hs
  obtain ⟨⟨-, hu | hsame⟩, hname⟩ := hs
  · exact ⟨(Option.some.inj hname).symm, hu.1, fun _ => hu.2⟩
  · refine ⟨(Option.some.inj hname).symm, ?_, fun hr => ?_⟩
    · rw [hsame, Path.components_append_slash]
    · have hend := r.slash_iff.trans hr
      rw [hsame] at hend
      simp [endsWithSlash] at hend

/-- Without the bit, only covered paths are granted for inspection. -/
lemma covers_of_statName? {path : Path} (hi : r.intermediates = false)
    (h : (r.statName? path).isSome = true) : r.covers path.bytes = true := by
  rw [statName?_isSome_iff, MayStat, hi] at h
  exact (covers_iff _ _).mpr (h.resolve_right fun hbit => Bool.false_ne_true hbit.1)

end Rule

/-! ### The bit in a table -/

/-- Two rules that differ at most in the bit for the directories on the way. -/
structure Rule.SameButBit (r r' : Rule) : Prop where
  path : r'.path = r.path
  access : r'.access = r.access

/-- The second rule is the first, perhaps with the bit for the directories on the way set in
addition. -/
structure Rule.Widened (r r' : Rule) : Prop extends r.SameButBit r' where
  bit : r.intermediates = true → r'.intermediates = true

namespace Rule.SameButBit

variable {r r' : Rule}

lemma covers_eq (h : r.SameButBit r') (bytes : Bytes) : r'.covers bytes = r.covers bytes := by
  rw [covers, covers, reaches, reaches, h.path, h.access]

lemma accessName?_eq (h : r.SameButBit r') (path : Path) (mode : Word) :
    r'.accessName? path mode = r.accessName? path mode := by
  rw [accessName?, accessName?, grantsAccess, grantsAccess, nameFor, nameFor, h.covers_eq, h.path,
    h.access]

lemma opening?_eq (h : r.SameButBit r') (path : Path) (flags : Word) :
    r'.opening? path flags = r.opening? path flags := by
  rw [opening?, opening?, grantsOpen, grantsOpen, grantsDirection, grantsDirection, nameFor,
    nameFor, h.covers_eq, h.path, h.access]

end Rule.SameButBit

lemma Rule.Widened.mayStat {r r' : Rule} (h : r.Widened r') {bytes : Bytes} (hs : r.MayStat bytes) :
    r'.MayStat bytes := by
  rw [MayStat, ← covers_iff] at hs ⊢
  rw [h.covers_eq, h.path]
  exact hs.imp_right fun hway => ⟨h.bit hway.1, hway.2⟩

/-- Rules that answer alike, one by one, make tables that answer alike. -/
lemma Policy.findSome?_congr {α : Type} {rules rules' : List Rule} {answer : Rule → Option α}
    (h : List.Forall₂ (fun r r' => answer r' = answer r) rules rules') :
    rules'.findSome? answer = rules.findSome? answer := by
  induction h with
  | nil => rfl
  | cons hr _ ih => rw [List.findSome?_cons, List.findSome?_cons, hr, ih]

namespace Gate

variable {g g' : Gate}

/-- The bits make no difference to a request that is no inspection. -/
lemma evaluate_congr (hc : g'.commands = g.commands)
    (hr : List.Forall₂ Rule.SameButBit g.policy.rules g'.policy.rules) {request : Request}
    (hs : ∀ path follow large, request ≠ .stat path follow large) :
    g'.evaluate request = g.evaluate request := by
  have haccess (path : Path) (mode : Word) :
      g'.policy.accessName? path mode = g.policy.accessName? path mode :=
    Policy.findSome?_congr (hr.imp fun _ _ h => h.accessName?_eq path mode)
  have hopening (path : Path) (flags : Word) :
      g'.policy.opening? path flags = g.policy.opening? path flags :=
    Policy.findSome?_congr (hr.imp fun _ _ h => h.opening?_eq path flags)
  have happroval : g'.approval? request = g.approval? request := by
    cases request with
    | access path mode => simp only [approval?, permitsAccess, hc, haccess]
    | openFile path flags => simp only [approval?, permitsOpen, hc, hopening]
    | readlink path => simp only [approval?, permitsReadlink, hc, hopening]
    | rename old new => simp only [approval?, permitsRename, hc, hopening]
    | stat path follow large => exact absurd rfl (hs path follow large)
  rw [evaluate, evaluate, hc, happroval]

/-- A table that has more bits grants every inspection that it granted with fewer. -/
lemma granted_stat_mono {rules rules' : List Rule} (h : List.Forall₂ Rule.Widened rules rules')
    {path : Path} {follow large : Bool} (hg : Granted rules (.stat path follow large)) :
    Granted rules' (.stat path follow large) := by
  induction h with
  | nil => exact hg
  | cons hr _ ih =>
    obtain ⟨r, hmem, hs⟩ := hg
    obtain rfl | hmem := List.mem_cons.mp hmem
    · exact ⟨_, List.mem_cons_self, hr.mayStat hs⟩
    · obtain ⟨r', hmem', hs'⟩ := ih ⟨r, hmem, hs⟩
      exact ⟨r', List.mem_cons_of_mem _ hmem', hs'⟩

/-- More bits take nothing away. -/
lemma evaluate_mono (hc : g'.commands = g.commands)
    (hr : List.Forall₂ Rule.Widened g.policy.rules g'.policy.rules) {request : Request}
    {a : Approval} (h : g.evaluate request = .ok a) : g'.evaluate request = .ok a := by
  by_cases hs : ∃ path follow large, request = .stat path follow large
  · obtain ⟨path, follow, large, rfl⟩ := hs
    obtain ⟨hserved, ha⟩ := evaluate_eq_ok_iff.mp h
    have hg := (approval?_isSome_iff hserved).mp (Option.isSome_of_eq_some ha)
    have hserved' := hc ▸ hserved
    obtain ⟨a', ha'⟩ := Option.isSome_iff_exists.mp
      ((approval?_isSome_iff hserved').mpr (granted_stat_mono hr hg))
    have h' := evaluate_eq_ok_iff.mpr ⟨hserved', ha'⟩
    obtain ⟨unlink, rfl, -⟩ := evaluate_approval h
    obtain ⟨unlink', rfl, -⟩ := evaluate_approval h'
    exact h'
  · rw [evaluate_congr hc (hr.imp fun _ _ hw => hw.toSameButBit), h]
    rintro path follow large rfl
    exact hs ⟨path, follow, large, rfl⟩

/-- **What the bit for the directories on the way does.** A rule that has it grants the inspection
of a well-formed path that it does not cover, as it was asked for, if the rule's path goes on from
it; and only if it goes on, or has the same components and is recursive. A rule without the bit
grants the inspection of covered paths only. In a table, the bits make no difference to requests
that are no inspections, and to set some takes no approval away. -/
theorem way_shown :
    (∀ (r : Rule) (path : Path), r.intermediates = true → Path.wellFormed path.bytes = true →
      r.covers path.bytes = false →
        (Under (components path.bytes) (components r.path.bytes) →
          r.statName? path = some path) ∧
        ∀ name, r.statName? path = some name →
          name = path ∧ components path.bytes <+: components r.path.bytes ∧
            (r.access.recursive = false → components path.bytes ≠ components r.path.bytes)) ∧
    (∀ (r : Rule) (path : Path), r.intermediates = false → (r.statName? path).isSome = true →
      r.covers path.bytes = true) ∧
    ∀ g g' : Gate, g'.commands = g.commands →
      (List.Forall₂ Rule.SameButBit g.policy.rules g'.policy.rules →
        ∀ request : Request, (∀ path follow large, request ≠ .stat path follow large) →
          g'.evaluate request = g.evaluate request) ∧
      (List.Forall₂ Rule.Widened g.policy.rules g'.policy.rules →
        ∀ request a, g.evaluate request = .ok a → g'.evaluate request = .ok a) := by
  refine ⟨fun r path hi hw hn => ?_, fun r path => r.covers_of_statName?, fun g g' hc => ?_⟩
  · have hcanonical := (Path.wellFormed_iff _).mp hw
    exact ⟨r.statName?_of_under hi hcanonical hn, fun name => r.prefix_of_statName? hcanonical hn⟩
  · exact ⟨fun hr request => evaluate_congr hc hr, fun hr request a => evaluate_mono hc hr⟩

/-- The rule for everything below `/d/` shows the root and its own directory, and a table keeps what
it grants when the rule gets the bit. -/
theorem way_shown_to_d :
    Rule.belowD.statName? ⟨[47], by decide⟩ = some ⟨[47], by decide⟩ ∧
      components [47, 100] <+: components Rule.belowD.path.bytes ∧
      (Gate.mk .all ⟨.accessDenied, [Rule.belowD]⟩).evaluate
          (.stat ⟨[47, 100, 47, 120], by decide⟩ true false) =
        .ok (.stat ⟨[47, 100, 47, 120], by decide⟩ true false) := by
  have hroot := (way_shown.1 Rule.belowD ⟨[47], by decide⟩ (by decide) (by decide) (by decide)).1
  have hown := (way_shown.1 Rule.belowD ⟨[47, 100], by decide⟩ (by decide) (by decide)
    (by decide)).2
  have hset := (way_shown.2.2 ⟨.all, ⟨.accessDenied, [{ Rule.belowD with intermediates := false }]⟩⟩
    ⟨.all, ⟨.accessDenied, [Rule.belowD]⟩⟩ rfl).2 (.cons ⟨⟨rfl, rfl⟩, fun _ => rfl⟩ .nil)
  exact ⟨hroot ⟨by decide, by decide⟩, (hown ⟨[47, 100], by decide⟩ (by decide)).2.1,
    hset _ _ (by decide)⟩

end Gate

/-! ### The spelling of a directory on the way -/

/-- The path with a slash at the end. -/
def Path.slashed (p : Path) : Path where
  bytes := p.bytes ++ [slash]
  nul_free := by simpa [slash] using p.nul_free

namespace Rule

variable {r : Rule}

/-- What is not covered is not covered with a slash at the end either. -/
lemma covers_slashed {path : Path} (hc : Canonical path.bytes)
    (hp : endsWithSlash path.bytes = false) (h : r.covers path.bytes = false) :
    r.covers path.slashed.bytes = false := by
  rw [← Bool.not_eq_true] at h ⊢
  have hs := hc.append_slash hp
  refine mt (fun hcovers => ?_) h
  obtain ⟨hcontains, hend⟩ := (covers_iff_contains hs).mp hcovers
  refine (covers_iff_contains hc).mpr ⟨?_, fun _ => hp⟩
  rwa [hs.resolve_eq, Path.components_append_slash, ← hc.resolve_eq] at hcontains

lemma path_eq_slashed_iff {path : Path} :
    r.path = path.slashed ↔ r.path.bytes = path.bytes ++ [slash] := by
  rw [Path.slashed]
  cases r.path
  simp

/-- With a slash at the end, a directory on the way is one whose components the rule's path goes on
from, and no other. -/
lemma leadsFrom_slashed_iff {path : Path} (hc : Canonical path.bytes)
    (hp : endsWithSlash path.bytes = false) :
    r.leadsFrom path.slashed.bytes = true ↔
      r.intermediates = true ∧ Under (components path.bytes) (components r.path.bytes) := by
  have hs : Canonical path.slashed.bytes := hc.append_slash hp
  have hcomponents : components path.slashed.bytes = components path.bytes :=
    Path.components_append_slash _
  -- the rule's path has no two slashes at the end
  have hdouble : r.path.bytes ≠ path.slashed.bytes ++ [slash] := by
    intro h
    exact r.canonical.single_slashes ⟨path.bytes, [], by simp [h, Path.slashed]⟩
  rw [leadsFrom_iff hs, or_iff_left hdouble, hcomponents]

/-- **The spelling of a directory on the way.** A rule that shows the directories on the way grants
the inspection of one that is written without a slash at the end just where it grants it with the
slash, unless the slash makes it the path of the rule itself: the directory of a recursive rule is
shown when it is written without the slash, and not when it is written with it. -/
theorem way_spelled (r : Rule) (path : Path) (hi : r.intermediates = true)
    (hw : Path.wellFormed path.bytes = true) (hp : endsWithSlash path.bytes = false)
    (hn : r.covers path.bytes = false) :
    (r.path ≠ path.slashed →
      ((r.statName? path).isSome = true ↔ (r.statName? path.slashed).isSome = true)) ∧
    (r.path = path.slashed →
      r.statName? path = some path ∧ r.statName? path.slashed = none) := by
  have hc := (Path.wellFormed_iff _).mp hw
  have hplain := leadsFrom_iff (r := r) hc
  have hslashed := leadsFrom_slashed_iff (r := r) hc hp
  rw [← path_eq_slashed_iff] at hplain
  rw [statName?_of_not_covers hn, statName?_of_not_covers (covers_slashed hc hp hn)]
  constructor
  · intro hother
    rw [or_iff_left hother, ← hslashed] at hplain
    rw [Option.isSome_ite, Option.isSome_ite, hplain]
  · intro hown
    have hsame : components r.path.bytes = components path.bytes := by
      rw [hown]
      exact Path.components_append_slash _
    have hnone : ¬ r.leadsFrom path.slashed.bytes = true :=
      fun h => (hslashed.mp h).2.2 hsame.symm
    exact ⟨if_pos (hplain.mpr ⟨hi, .inr hown⟩), if_neg hnone⟩

/-- The rule for the file `/d/e`, which shows the directories on the way. -/
def fileInD : Rule where
  path := ⟨[47, 100, 47, 101], by decide⟩
  access := .readOnly
  intermediates := true
  well_formed := by decide
  slash_iff := by decide

/-- The rule for `/d/e` shows `/d` and `/d/`; the rule for everything below `/d/` shows `/d`
alone. -/
theorem way_spelled_d :
    ((fileInD.statName? ⟨[47, 100], by decide⟩).isSome = true ↔
      (fileInD.statName? (Path.slashed ⟨[47, 100], by decide⟩)).isSome = true) ∧
    belowD.statName? ⟨[47, 100], by decide⟩ = some ⟨[47, 100], by decide⟩ ∧
      belowD.statName? (Path.slashed ⟨[47, 100], by decide⟩) = none :=
  ⟨(way_spelled fileInD ⟨[47, 100], by decide⟩ rfl (by decide) (by decide) (by decide)).1
      (by decide),
    (way_spelled belowD ⟨[47, 100], by decide⟩ rfl (by decide) (by decide) (by decide)).2 rfl⟩

/-- A recursive rule does not show its own directory in both spellings. -/
theorem own_directory_in_one_spelling :
    belowD.intermediates = true ∧ Path.wellFormed [47, 100] = true ∧
      endsWithSlash [47, 100] = false ∧ belowD.covers [47, 100] = false ∧
      ¬ ((belowD.statName? ⟨[47, 100], by decide⟩).isSome = true ↔
        (belowD.statName? ⟨[47, 100, 47], by decide⟩).isSome = true) := by
  decide

end Rule

end FileBroker
