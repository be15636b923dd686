/-
The order of the rules in a table.

The gate takes the first rule of its table that grants a request. Each of the others that grant it
would hand on the same path, so the order of the table, and how often a rule stands in it, cannot be
seen in what is approved, but for one thing: whether a file that is created anew keeps its name.
There the first granting rule decides, and only temporary rules take the name away.

* `Gate.SameRules`, `Gate.Extends`: tables with the same rules, and tables with further ones at the
  end.
* `Granted.congr`: which requests a table grants depends on its rules alone.
* `Approval.keepingName`: an approval without what the order decides.
* `Gate.evaluate_of_first`: the first rule decides if it grants the request alone.
* `Gate.order_decides`: what the order of the rules decides, and what it does not.
-/
import FileBroker.Proofs.Grants

namespace FileBroker

open OpenFlags (createBit exclusiveBit onWire)

/-- Two gates serve the same commands under the same rules, in whatever order and however often each
of them stands in the table. -/
structure Gate.SameRules (g g' : Gate) : Prop where
  commands : g'.commands = g.commands
  rules : ∀ r, r ∈ g'.policy.rules ↔ r ∈ g.policy.rules

/-- The second gate has the rules of the first, and may have further ones behind them. -/
structure Gate.Extends (g g' : Gate) : Prop where
  commands : g'.commands = g.commands
  rules : g.policy.rules <+: g'.policy.rules

/-! ### What is granted -/

/-- Tables with the same rules grant the same requests. -/
lemma Granted.congr {rules rules' : List Rule} (h : ∀ r, r ∈ rules' ↔ r ∈ rules)
    (request : Request) : Granted rules' request ↔ Granted rules request := by
  cases request <;> simp only [Granted, h]

/-- The approval as if the file that is opened kept its name. -/
def Approval.keepingName : Approval → Approval
  | openFile path flags _ => openFile path flags false
  | a => a

lemma Request.keepingName_approval (request : Request) (unlink : Bool) :
    (request.approval unlink).keepingName = request.approval false := by
  cases request <;> rfl

namespace Gate

variable {g g' : Gate}

open scoped Classical in
/-- The decision on a request, but for the name of a new file: it depends on the served commands and
on what the table grants. -/
lemma map_keepingName_evaluate (g : Gate) (request : Request) :
    (g.evaluate request).map Approval.keepingName =
      if g.commands.contains request.command then
        if Granted g.policy.rules request then .ok (request.approval false)
        else .error .policyDenied
      else .error .commandDisabled := by
  cases hc : g.commands.contains request.command with
  | false =>
    rw [evaluate, hc]
    rfl
  | true =>
    rw [if_pos rfl]
    by_cases hg : Granted g.policy.rules request
    · obtain ⟨a, ha⟩ := Option.isSome_iff_exists.mp ((approval?_isSome_iff hc).mpr hg)
      have he : g.evaluate request = .ok a := evaluate_eq_ok_iff.mpr ⟨hc, ha⟩
      obtain ⟨unlink, rfl, -⟩ := evaluate_approval he
      rw [he, Except.map, request.keepingName_approval, if_pos hg]
    · have ha : g.approval? request = none := by
        rwa [← approval?_isSome_iff hc, Option.not_isSome_iff_eq_none] at hg
      rw [evaluate, hc, ha, if_neg hg]
      rfl

/-- But for the name of a new file, the order of the rules makes no difference. -/
lemma SameRules.map_keepingName_eq (h : g.SameRules g') (request : Request) :
    (g'.evaluate request).map Approval.keepingName =
      (g.evaluate request).map Approval.keepingName := by
  have hg := propext (Granted.congr h.rules request)
  rw [map_keepingName_evaluate, map_keepingName_evaluate, h.commands, hg]

/-! ### Further rules -/

namespace Extends

/-- What the rules of a table grant they grant in front of others. -/
lemma approval?_eq (h : g.Extends g') {request : Request} {a : Approval}
    (ha : g.approval? request = some a) : g'.approval? request = some a := by
  have hopening {path : Path} {flags : Word} {o : Opening}
      (ho : g.policy.opening? path flags = some o) : g'.policy.opening? path flags = some o :=
    h.rules.findSome?_eq_some ho
  cases request with
  | access path mode =>
    simp only [approval?, permitsAccess, h.commands, Option.map_eq_some_iff,
      Option.ite_none_right_eq_some] at ha ⊢
    obtain ⟨name, ⟨hc, hn⟩, ha⟩ := ha
    exact ⟨name, ⟨hc, h.rules.findSome?_eq_some hn⟩, ha⟩
  | openFile path flags =>
    simp only [approval?, permitsOpen, h.commands, Option.map_eq_some_iff,
      Option.ite_none_right_eq_some] at ha ⊢
    obtain ⟨grant, ⟨hc, o, ho, hgrant⟩, ha⟩ := ha
    exact ⟨grant, ⟨hc, o, hopening ho, hgrant⟩, ha⟩
  | readlink path =>
    simp only [approval?, permitsReadlink, h.commands, Option.map_eq_some_iff,
      Option.ite_none_right_eq_some] at ha ⊢
    obtain ⟨name, ⟨hc, o, ho, hname⟩, ha⟩ := ha
    exact ⟨name, ⟨hc, o, hopening ho, hname⟩, ha⟩
  | rename old new =>
    simp only [approval?, permitsRename, h.commands, Option.map_eq_some_iff,
      Option.ite_none_right_eq_some] at ha ⊢
    obtain ⟨grant, ⟨hc, hgrant⟩, ha⟩ := ha
    refine ⟨grant, ⟨hc, ?_⟩, ha⟩
    split at hgrant
    · next o n hold hnew => rwa [hopening hold, hopening hnew]
    · cases hgrant
  | stat path follow large =>
    simp only [approval?, permitsStat, h.commands, Option.map_eq_some_iff,
      Option.ite_none_right_eq_some] at ha ⊢
    obtain ⟨name, ⟨hs, hc, hn⟩, ha⟩ := ha
    exact ⟨name, ⟨hs, hc, h.rules.findSome?_eq_some hn⟩, ha⟩

/-- Further rules at the end of a table leave every approval as it is. -/
lemma evaluate_eq_ok (h : g.Extends g') {request : Request} {a : Approval}
    (he : g.evaluate request = .ok a) : g'.evaluate request = .ok a := by
  rw [evaluate_eq_ok_iff] at he ⊢
  rw [h.commands]
  exact ⟨he.1, h.approval?_eq he.2⟩

end Extends

/-! ### The first rule -/

/-- A rule that grants an open request alone decides, as the first of a table, whether a new file
keeps its name. -/
lemma evaluate_of_first {commands : CommandSet} {denied : Errno} {r : Rule} (rules : List Rule)
    {path : Path} {flags : Word} (hc : commands.contains .openFile = true)
    (hr : Granted [r] (.openFile path flags)) :
    (Gate.mk commands ⟨denied, r :: rules⟩).evaluate (.openFile path flags) =
      .ok (.openFile path (onWire flags) r.access.temporary) := by
  have hextends : (Gate.mk commands ⟨denied, [r]⟩).Extends ⟨commands, ⟨denied, r :: rules⟩⟩ :=
    ⟨rfl, List.prefix_append [r] rules⟩
  have hserved : (Gate.mk commands ⟨denied, [r]⟩).commands.contains
      (Request.openFile path flags).command = true := hc
  obtain ⟨a, ha⟩ := Option.isSome_iff_exists.mp ((approval?_isSome_iff hserved).mpr hr)
  have he := evaluate_eq_ok_iff.mpr ⟨hserved, ha⟩
  obtain ⟨unlink, rfl, hunlink⟩ := evaluate_approval he
  obtain ⟨r', hr', -, rfl⟩ := hunlink path flags rfl
  obtain rfl := List.mem_singleton.mp hr'
  exact hextends.evaluate_eq_ok he

/-- A rule of a table that grants an open request can be made the first one, and then decides
whether a new file keeps its name. -/
lemma exists_sameRules {path : Path} {flags : Word} {r : Rule} (g : Gate)
    (hc : g.commands.contains .openFile = true) (hr : r ∈ g.policy.rules)
    (hg : Granted [r] (.openFile path flags)) :
    ∃ g', g.SameRules g' ∧ g'.evaluate (.openFile path flags) =
      .ok (.openFile path (onWire flags) r.access.temporary) := by
  refine ⟨⟨g.commands, ⟨g.policy.deniedErrno, r :: g.policy.rules⟩⟩, ⟨rfl, fun r' => ?_⟩,
    evaluate_of_first _ hc hg⟩
  rw [List.mem_cons]
  exact ⟨fun h => h.elim (fun h => h ▸ hr) id, .inr⟩

/-- The fate of a new file's name comes from a rule that grants the open request alone. -/
lemma exists_rule_of_evaluate {path : Path} {flags : Word} {unlink : Bool}
    (he : g.evaluate (.openFile path flags) = .ok (.openFile path (onWire flags) unlink)) :
    ∃ r ∈ g.policy.rules, r.access.temporary = unlink ∧ Granted [r] (.openFile path flags) := by
  obtain ⟨hc, ha⟩ := evaluate_eq_ok_iff.mp he
  obtain ⟨hbits, hmode, -⟩ := (approval?_isSome_iff hc).mp (Option.isSome_of_eq_some ha)
  obtain ⟨unlink', ha', hrule⟩ := evaluate_approval he
  obtain ⟨r, hr, hm, hu⟩ := hrule path flags rfl
  obtain ⟨-, -, rfl⟩ := Approval.openFile.inj ha'
  exact ⟨r, hr, hu, hbits, hmode, r, List.mem_singleton_self r, hm⟩

/-- Where the order of the rules makes a difference, it is whether a file that is opened loses its
name. -/
lemma SameRules.exists_unlink (h : g.SameRules g') {request : Request}
    (hne : g'.evaluate request ≠ g.evaluate request) :
    ∃ path flags unlink, request = .openFile path flags ∧
      g.evaluate request = .ok (.openFile path (onWire flags) unlink) ∧
      g'.evaluate request = .ok (.openFile path (onWire flags) !unlink) := by
  have hmap := h.map_keepingName_eq request
  cases he : g.evaluate request with
  | error reason =>
    cases he' : g'.evaluate request with
    | error reason' =>
      rw [he, he'] at hmap
      exact absurd (he'.trans (hmap.trans he.symm)) hne
    | ok a' => simp [he, he', Except.map] at hmap
  | ok a =>
    cases he' : g'.evaluate request with
    | error reason' => simp [he, he', Except.map] at hmap
    | ok a' =>
      obtain ⟨unlink, rfl, -⟩ := evaluate_approval he
      obtain ⟨unlink', rfl, -⟩ := evaluate_approval he'
      rw [he, he'] at hne
      cases request with
      | openFile path flags =>
        have hu : unlink' = !unlink := by
          rw [Bool.eq_not]
          rintro rfl
          exact hne rfl
        exact ⟨path, flags, unlink, rfl, rfl, hu ▸ rfl⟩
      | _ => exact absurd rfl hne

/-- The requests on which the order of the rules decides: those for a new file that a temporary rule
grants, and another rule too. -/
structure Disputed (g : Gate) (path : Path) (flags : Word) : Prop where
  served : g.commands.contains .openFile = true
  create : flags.bit createBit = true
  exclusive : flags.bit exclusiveBit = true
  temporary : ∃ r ∈ g.policy.rules, r.access.temporary = true ∧ Granted [r] (.openFile path flags)
  lasting : ∃ r ∈ g.policy.rules, r.access.temporary = false ∧ Granted [r] (.openFile path flags)

lemma SameRules.disputed (h : g.SameRules g') {request : Request}
    (hne : g'.evaluate request ≠ g.evaluate request) :
    ∃ path flags, request = .openFile path flags ∧ g.Disputed path flags := by
  obtain ⟨path, flags, unlink, rfl, he, he'⟩ := h.exists_unlink hne
  obtain ⟨r, hr, hu, hg⟩ := exists_rule_of_evaluate he
  obtain ⟨r', hr', hu', hg'⟩ := exists_rule_of_evaluate he'
  rw [h.rules] at hr'
  have hserved := (evaluate_eq_ok_iff.mp he).1
  -- one of the two rules is temporary, and such a rule admits only files that are created anew
  have hnew {r : Rule} (ht : r.access.temporary = true) (hg : Granted [r] (.openFile path flags)) :
      flags.bit createBit = true ∧ flags.bit exclusiveBit = true := by
    obtain ⟨-, -, r, hr, hm⟩ := hg
    obtain rfl := List.mem_singleton.mp hr
    exact hm.temporary ht
  refine ⟨path, flags, rfl, ?_⟩
  cases unlink with
  | false =>
    obtain ⟨hc, hx⟩ := hnew hu' hg'
    exact ⟨hserved, hc, hx, ⟨r', hr', hu', hg'⟩, ⟨r, hr, hu, hg⟩⟩
  | true =>
    obtain ⟨hc, hx⟩ := hnew hu hg
    exact ⟨hserved, hc, hx, ⟨r, hr, hu, hg⟩, ⟨r', hr', hu', hg'⟩⟩

/-- On such a request the gate decides in both ways, with the rules in one order or in another. -/
lemma Disputed.exists_ne {path : Path} {flags : Word} (h : g.Disputed path flags) :
    ∃ g', g.SameRules g' ∧
      g'.evaluate (.openFile path flags) ≠ g.evaluate (.openFile path flags) := by
  obtain ⟨r, hr, hu, hg⟩ := h.temporary
  obtain ⟨r', hr', hu', hg'⟩ := h.lasting
  obtain ⟨g₁, hs₁, h₁⟩ := g.exists_sameRules h.served hr hg
  obtain ⟨g₂, hs₂, h₂⟩ := g.exists_sameRules h.served hr' hg'
  by_cases he : g₁.evaluate (.openFile path flags) = g.evaluate (.openFile path flags)
  · refine ⟨g₂, hs₂, fun he' => ?_⟩
    have : r'.access.temporary = r.access.temporary := by
      simpa [h₁, h₂] using he'.trans he.symm
    simp [hu, hu'] at this
  · exact ⟨g₁, hs₁, he⟩

/-- **What the order of the rules decides.** Tables with the same rules, in whatever order and
however often each of them stands there, refuse the same requests for the same reason and approve
the others alike, but for whether a file that is opened loses its name. This they decide
differently, in some order, exactly for a file that must be created anew where a temporary rule
grants the request and a lasting rule grants it too. And further rules at the end of a table leave
every approval as it is. -/
theorem order_decides (g : Gate) (request : Request) :
    (∀ g', g.SameRules g' →
      (g'.evaluate request).map Approval.keepingName =
        (g.evaluate request).map Approval.keepingName) ∧
    ((∃ g', g.SameRules g' ∧ g'.evaluate request ≠ g.evaluate request) ↔
      ∃ path flags, request = .openFile path flags ∧ g.Disputed path flags) ∧
    ∀ g' a, g.Extends g' → g.evaluate request = .ok a → g'.evaluate request = .ok a := by
  refine ⟨fun g' h => h.map_keepingName_eq request, ⟨?_, ?_⟩, fun g' a h => h.evaluate_eq_ok⟩
  · rintro ⟨g', h, hne⟩
    exact h.disputed hne
  · rintro ⟨path, flags, rfl, h⟩
    exact h.exists_ne

/-- The rule for new files `/t`, which are removed as soon as they are open. -/
def scratchT : Rule where
  path := ⟨[47, 116], by decide⟩
  access := .readWriteCreateTemporary
  intermediates := false
  well_formed := by decide
  slash_iff := by decide

/-- The rule for a file `/t` that is kept. -/
def keptT : Rule where
  path := ⟨[47, 116], by decide⟩
  access := .readWriteCreate
  intermediates := false
  well_formed := by decide
  slash_iff := by decide

/-- A new file `/t` loses its name under the two rules in one order and keeps it in the other; the
third rule behind the first two makes no difference. -/
theorem order_decides_t :
    let g : Gate := ⟨.all, ⟨.accessDenied, [scratchT, keptT]⟩⟩
    let g' : Gate := ⟨.all, ⟨.accessDenied, [keptT, scratchT, keptT]⟩⟩
    let g'' : Gate := ⟨.all, ⟨.accessDenied, [scratchT, keptT, keptT]⟩⟩
    let path : Path := ⟨[47, 116], by decide⟩
    let flags : Word := OpenFlags.readWrite ||| OpenFlags.exclusiveCreate
    g.SameRules g' ∧
      g'.evaluate (.openFile path flags) ≠ g.evaluate (.openFile path flags) ∧
      (g'.evaluate (.openFile path flags)).map Approval.keepingName =
        (g.evaluate (.openFile path flags)).map Approval.keepingName ∧
      g.Disputed path flags ∧
      g''.evaluate (.openFile path flags) = .ok (.openFile path flags true) := by
  intro g g' g'' path flags
  have hsame : g.SameRules g' := ⟨rfl, fun r => by simp [g, g']; tauto⟩
  have hne : g'.evaluate (.openFile path flags) ≠ g.evaluate (.openFile path flags) := by decide
  obtain ⟨hmap, hiff, hmore⟩ := order_decides g (.openFile path flags)
  obtain ⟨path', flags', heq, hdisputed⟩ := hiff.mp ⟨g', hsame, hne⟩
  obtain ⟨rfl, rfl⟩ := Request.openFile.inj heq
  exact ⟨hsame, hne, hmap g' hsame, hdisputed,
    hmore g'' _ ⟨rfl, List.prefix_append [scratchT, keptT] [keptT]⟩ (by decide)⟩

end Gate

end FileBroker
