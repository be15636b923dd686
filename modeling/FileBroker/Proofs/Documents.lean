/-
Policy documents are read as they are written, and only as they are written.

A document is a security policy, so a member that is overlooked would be a hole in it. What a
document says does not depend on how its text is laid out; a member too many or too few, wherever it
stands, makes the whole text none.

* `Permission.Written`, `Document.Written`: the JSON values that write a document as objects.
* `Document.Spoiled`: a value in which one object has a member too many or lacks one.
* `Document.parse_eq_ok_iff`: a text is read as a document exactly if the value that it holds means
  that document.
* `Document.parse_strict`: every text that writes a document is read as it, and no text that is
  spoilt is read as anything.
-/
import FileBroker.Proofs.Records
import FileBroker.Document

namespace FileBroker

open Json (Names Reads Sense Spoils Tree)

/-! ### What is written -/

/-- A member of an object that may be left out where it says the standard. -/
inductive Elective (key : String) (v : Tree) (standard : Prop) : List (String × Tree) → Prop
  | written : Elective key v standard [(key, v)]
  | leftOut : standard → Elective key v standard []

namespace Permission

/-- The keys of a permission. -/
def fields : List String := ["path", "access", "allow_stat_with_intermediates"]

/-- The keys that no permission may lack. -/
def required : List String := ["path", "access"]

/-- The value writes the permission as an object, with its members in any order. -/
inductive Written (p : Permission) : Tree → Prop
  | object {ms extra : List (String × Tree)} :
      Elective "allow_stat_with_intermediates" (.boolean p.intermediates) (p.intermediates = false)
        extra →
      ms.Perm ([("path", .string p.path), ("access", .string p.access.name)] ++ extra) →
      Written p (.object ms)

end Permission

namespace Document

/-- The keys of a document. -/
def fields : List String := ["denied_errno", "commands", "permissions"]

/-- The keys that no document may lack. -/
def required : List String := ["commands", "permissions"]

/-- The value writes the document as an object, and each permission in it too. -/
inductive Written (d : Document) : Tree → Prop
  | object {ms extra : List (String × Tree)} {entries : List Tree} :
      Elective "denied_errno" (.string d.denied.name) (d.denied = .eperm) extra →
      List.Forall₂ Permission.Written d.permissions entries →
      ms.Perm ([("commands", .array (d.commands.map fun c => .string c.name)),
        ("permissions", .array entries)] ++ extra) →
      Written d (.object ms)

/-- One object of a document is spoilt: that of the document or that of one of its permissions. -/
inductive Spoiled : Tree → Tree → Prop
  | document {ms ms' : List (String × Tree)} : Spoils fields required ms ms' →
      Spoiled (.object ms) (.object ms')
  | permission {before after ms ms' : List (String × Tree)} {vs vs' : List Tree} :
      Spoils Permission.fields Permission.required ms ms' →
      Spoiled (.object (before ++ ("permissions", .array (vs ++ .object ms :: vs')) :: after))
        (.object (before ++ ("permissions", .array (vs ++ .object ms' :: vs')) :: after))

end Document

/-! ### What is meant -/

lemma AccessClass.lookup_name (c : AccessClass) : names.lookup c.name = some c := by
  cases c <;> rfl

lemma DeniedErrno.lookup_name (e : DeniedErrno) : names.lookup e.name = some e := by
  cases e <;> rfl

lemma Command.lookup_name (c : Command) : names.lookup c.name = some c := by
  cases c <;> rfl

namespace Permission

/-- What the fields of a permission mean. -/
def sense : Sense String AccessClass Bool where
  first v path := v = .string path
  second := Names AccessClass.names
  third v b := v = .boolean b

/-- What a value means as a permission. -/
def Means (v : Tree) (p : Permission) : Prop :=
  layout.Means sense v (p.path, p.access, p.intermediates)

lemma reads_read : Reads read Means := by
  have hagrees : layout.Agrees sense :=
    ⟨Json.reads_text, Json.reads_variant, Json.reads_boolean, by decide⟩
  refine (Json.Layout.reads_record hagrees).map (f := fun r => Permission.mk r.1 r.2.1 r.2.2)
    fun v p => ⟨?_, fun hp => ⟨(p.path, p.access, p.intermediates), hp, rfl⟩⟩
  rintro ⟨r, hr, rfl⟩
  exact hr

lemma requires_of_mem : ∀ key ∈ required, layout.Requires key := by
  simp [required, layout, Json.Layout.Requires]

lemma Written.means {p : Permission} {v : Tree} (h : Written p v) : Means v p := by
  obtain ⟨hextra, hperm⟩ := h
  have haccess : Names AccessClass.names (.string p.access.name) p.access :=
    ⟨_, .inl rfl, p.access.lookup_name⟩
  rw [Means, Json.Layout.means_object_perm hperm]
  cases hextra with
  | written => exact ⟨by simp, by simp [layout, Json.Layout.keys], rfl, haccess, rfl⟩
  | leftOut hstandard =>
    exact ⟨by simp, by simp [layout, Json.Layout.keys], rfl, haccess, congrArg some hstandard.symm⟩

/-- A permission that is spoilt means none. -/
lemma Written.not_means {p : Permission} {ms ms' : List (String × Tree)}
    (h : Written p (.object ms)) (hs : Spoils fields required ms ms') (p' : Permission) :
    ¬ Means (.object ms') p' :=
  Json.Layout.not_means_of_spoils (l := layout) hs requires_of_mem h.means.1 _

lemma written_toValue (p : Permission) : Written p (.ofValue p.toValue) := by
  rw [toValue, Tree.ofValue]
  simp only [List.map_cons, List.map_nil, Tree.ofValue]
  exact ⟨.written, .refl _⟩

end Permission

namespace Document

/-- What the fields of a document mean. -/
def sense : Sense DeniedErrno (List Command) (List Permission) where
  first := Names DeniedErrno.names
  second v cs := ∃ vs, v = .array vs ∧ List.Forall₂ (Names Command.names) vs cs
  third v ps := ∃ vs, v = .array vs ∧ List.Forall₂ Permission.Means vs ps

/-- What a value means as a document. -/
def Means (v : Tree) (d : Document) : Prop :=
  layout.Means sense v (d.denied, d.commands, d.permissions)

lemma reads_read : Reads read Means := by
  have hagrees : layout.Agrees sense :=
    ⟨Json.reads_variant, Json.reads_sequence Json.reads_variant,
      Json.reads_sequence Permission.reads_read, by decide⟩
  refine (Json.Layout.reads_record hagrees).map (f := fun r => Document.mk r.1 r.2.1 r.2.2)
    fun v d => ⟨?_, fun hd => ⟨(d.denied, d.commands, d.permissions), hd, rfl⟩⟩
  rintro ⟨r, hr, rfl⟩
  exact hr

/-- A text is read as a document exactly if the value that it holds means that document. -/
lemma parse_eq_ok_iff {v : Tree} {text : String} (h : v.Fills text) {d : Document} :
    parse text = .ok d ↔ Means v d :=
  reads_read.document h

lemma requires_of_mem : ∀ key ∈ required, layout.Requires key := by
  simp [required, layout, Json.Layout.Requires]

lemma Written.means {d : Document} {v : Tree} (h : Written d v) : Means v d := by
  obtain ⟨hextra, hentries, hperm⟩ := h
  have hdenied : Names DeniedErrno.names (.string d.denied.name) d.denied :=
    ⟨_, .inl rfl, d.denied.lookup_name⟩
  have hcommands : sense.second (.array (d.commands.map fun c => .string c.name)) d.commands := by
    refine ⟨_, rfl, ?_⟩
    rw [List.forall₂_map_left_iff, List.forall₂_same]
    exact fun c _ => ⟨_, .inl rfl, c.lookup_name⟩
  have hpermissions : sense.third (.array _) d.permissions :=
    ⟨_, rfl, (hentries.imp fun _ _ hp => hp.means).flip⟩
  rw [Means, Json.Layout.means_object_perm hperm]
  cases hextra with
  | written =>
    exact ⟨by simp, by simp [layout, Json.Layout.keys], hdenied, hcommands, hpermissions⟩
  | leftOut hstandard =>
    exact ⟨by simp, by simp [layout, Json.Layout.keys], congrArg some hstandard.symm, hcommands,
      hpermissions⟩

lemma written_toValue (d : Document) : Written d (.ofValue d.toValue) := by
  have hcommands : (d.commands.map fun c => Json.Value.string c.name).map Tree.ofValue =
      d.commands.map fun c => .string c.name := by
    rw [List.map_map]
    exact List.map_congr_left fun c _ => by rw [Function.comp, Tree.ofValue]
  have hentries : List.Forall₂ Permission.Written d.permissions
      ((d.permissions.map Permission.toValue).map Tree.ofValue) := by
    rw [List.map_map, List.forall₂_map_right_iff, List.forall₂_same]
    exact fun p _ => p.written_toValue
  rw [toValue, Tree.ofValue]
  simp only [List.map_cons, List.map_nil, Tree.ofValue, hcommands]
  exact ⟨.written, hentries, (List.perm_append_singleton _ _).symm⟩

lemma exists_of_forall₂ {α β : Type} {R : α → β → Prop} {as : List α} {bs bs' : List β} {b : β}
    (h : List.Forall₂ R as (bs ++ b :: bs')) : ∃ a, R a b := by
  obtain ⟨a, -, ha, -⟩ := List.forall₂_cons_right_iff.mp (List.forall₂_drop_append _ _ _ h)
  exact ⟨a, ha⟩

/-- A document that is spoilt means none. -/
lemma Written.not_means {d : Document} {v v' : Tree} (h : Written d v) (hs : Spoiled v v')
    (d' : Document) : ¬ Means v' d' := by
  cases hs with
  | document hs =>
    exact Json.Layout.not_means_of_spoils (l := layout) hs requires_of_mem h.means.1 _
  | @permission before after ms ms' vs vs' hs =>
    have hlookup {entries : List Tree}
        (honce : ((before ++ ("permissions", .array entries) :: after).map Prod.fst).Nodup) :
        (before ++ ("permissions", .array entries) :: after).lookup "permissions" =
          some (.array entries) :=
      (Json.Layout.lookup_eq_some_iff honce).mpr (by simp)
    have honce := h.means.1
    obtain ⟨-, hentries, hperm⟩ := h
    rintro ⟨honce', -, -, -, hpermissions⟩
    -- what the permissions were, and what they would have to be now
    have hold := hperm.mem_iff.mpr
      (List.mem_append_left _ (List.mem_cons_of_mem _ List.mem_cons_self))
    rw [← Json.Layout.lookup_eq_some_iff honce, hlookup honce] at hold
    cases hold
    obtain ⟨p, hp⟩ := exists_of_forall₂ hentries
    rw [show layout.third.key = "permissions" from rfl, hlookup honce'] at hpermissions
    obtain ⟨_, hnew, hps⟩ := hpermissions
    cases hnew
    obtain ⟨p', hp'⟩ := exists_of_forall₂ hps.flip
    exact hp.not_means hs p' hp'

/-- **Documents are read as they are written, and only as they are written.** Every text of a value
that writes a document is read as that document, and the texts that are written for it are such
texts. If one member is added to the document or to one of its permissions whose key is unknown or
already there, or if a member is missing that has no standard, no text of what comes out is read as
a document. -/
theorem parse_strict (d : Document) :
    (∀ v text, Written d v → v.Fills text → parse text = .ok d) ∧
      (∃ v, Written d v ∧ v.Fills (String.ofList d.toValue.compact) ∧ v.Fills d.toValue.pretty) ∧
      ∀ v v' text, Written d v → Spoiled v v' → v'.Fills text →
        ∃ fault, parse text = .error fault := by
  refine ⟨fun v text hv ht => (parse_eq_ok_iff ht).mpr hv.means, ?_, ?_⟩
  · exact ⟨_, d.written_toValue, .of_spells d.toValue.spells_compact,
      .of_spells (d.toValue.spells_prettyAt 0)⟩
  · intro v v' text hv hs ht
    cases hparse : parse text with
    | error fault => exact ⟨fault, rfl⟩
    | ok d' => exact (hv.not_means hs d' ((parse_eq_ok_iff ht).mp hparse)).elim

/-- A document written in another order and without what may be left out; the same with one member
of its permission written twice, and without its commands. -/
theorem parse_strict_reordered :
    let d : Document :=
      ⟨.eperm, [.openFile, .stat], [⟨"/tmp/\"new\"\x01", .readWriteCreate, false⟩]⟩
    let path : String × Json.Value := ("path", .string "/tmp/\"new\"\x01")
    let access : String × Json.Value := ("access", .string "read_write_create")
    let commands : String × Json.Value := ("commands", .array [.string "open", .string "stat"])
    let reordered : Json.Value :=
      .object [("permissions", .array [.object [access, path]]), commands]
    let repeated : Json.Value :=
      .object [("permissions", .array [.object [access, path, access]]), commands]
    let short : Json.Value := .object [("permissions", .array [.object [access, path]])]
    parse reordered.pretty = .ok d ∧ (∃ fault, parse repeated.pretty = .error fault) ∧
      ∃ fault, parse short.pretty = .error fault := by
  intro d path access commands reordered repeated short
  have hreordered : Tree.ofValue reordered = .object
      [("permissions", .array [.object [("access", .string "read_write_create"),
          ("path", .string "/tmp/\"new\"\x01")]]),
        ("commands", .array [.string "open", .string "stat"])] := by
    simp [reordered, access, path, commands, Tree.ofValue]
  have hwritten : Written d (.ofValue reordered) := by
    rw [hreordered]
    exact ⟨.leftOut rfl, .cons ⟨.leftOut rfl, .swap _ _ _⟩ .nil, .swap _ _ _⟩
  have hrepeated : Spoiled (.ofValue reordered) (.ofValue repeated) := by
    have hspoils := @Spoils.repeated Permission.fields Permission.required
      [("access", .string "read_write_create"), ("path", .string "/tmp/\"new\"\x01")] [] "access"
      (.string "read_write_create") (by simp)
    have hspoiled := @Spoiled.permission [] [("commands", .array [.string "open", .string "stat"])]
      _ _ [] [] hspoils
    simpa [hreordered, repeated, access, path, commands, Tree.ofValue] using hspoiled
  have hshort : Spoiled (.ofValue reordered) (.ofValue short) := by
    have hspoils := @Spoils.missing fields required
      [("permissions", .array [.object [("access", .string "read_write_create"),
          ("path", .string "/tmp/\"new\"\x01")]])]
      [] "commands" (.array [.string "open", .string "stat"]) (by simp [required])
    simpa [hreordered, short, access, path, Tree.ofValue] using Spoiled.document hspoils
  obtain ⟨hread, -, hstrict⟩ := parse_strict d
  exact ⟨hread _ _ hwritten (.of_spells (reordered.spells_prettyAt 0)),
    hstrict _ _ _ hwritten hrepeated (.of_spells (repeated.spells_prettyAt 0)),
    hstrict _ _ _ hwritten hshort (.of_spells (short.spells_prettyAt 0))⟩

end Document

end FileBroker
