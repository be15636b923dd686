/-
Audit logs read back.

Whoever can choose the paths of requests chooses what strings stand in the log, but not where a
record begins or ends, nor what its other fields say.

* `Audit.Record.read?`: the record that a line tells.
* `Audit.Record.read?_lineBytes`: a record is read back from its line.
* `Audit.Record.lineBytes_no_break`: the line of a record is a single line.
* `Audit.appendAll`: records appended one after another.
* `Audit.log_reads_back`: the log of some records has a line for each of them, in order, that tells
  that record and nothing else; so two logs are the same only if their records are.
-/
import FileBroker.Audit
import FileBroker.Proofs.Appending
import FileBroker.Proofs.Encodings
import FileBroker.Proofs.Values

namespace FileBroker

/-! ### Values of a shape -/

namespace Json.Value

/-- The value of a key in an object. -/
def field? (key : String) : Value → Option Value
  | object members => members.lookup key
  | _ => none

/-- The integer that a value is. -/
def integer? : Value → Option ℤ
  | integer n => some n
  | _ => none

/-- The string that a value is. -/
def string? : Value → Option String
  | string s => some s
  | _ => none

/-- The items of an array. -/
def items? : Value → Option (List Value)
  | array vs => some vs
  | _ => none

/-- What a value tells that may be absent. -/
def option? {α : Type} (f : Value → Option α) : Value → Option (Option α)
  | null => some none
  | v => (f v).map some

lemma option?_ofOption {α : Type} {f : α → Value} {g : Value → Option α}
    (hg : ∀ a, g (f a) = some a) (hnull : ∀ a, f a ≠ .null) (o : Option α) :
    (ofOption f o).option? g = some o := by
  cases o with
  | none => rfl
  | some a =>
    rw [ofOption, option?]
    · rw [hg, Option.map_some]
    · exact hnull a

@[simp] lemma string?_string (text : String) : (string text).string? = some text := rfl

@[simp] lemma integer?_integer (n : ℤ) : (integer n).integer? = some n := rfl

@[simp] lemma items?_array (vs : List Value) : (array vs).items? = some vs := rfl

@[simp] lemma mapM_string? (texts : List String) : texts.mapM (string? ∘ string) = some texts := by
  induction texts with
  | nil => rfl
  | cons text texts ih => simp [ih]

lemma fits_ofOption {α : Type} {f : α → Value} {depth : ℕ} (hf : ∀ a, Fits (depth + 1) (f a))
    (o : Option α) : Fits (depth + 1) (ofOption f o) := by
  cases o with
  | none => trivial
  | some a => exact hf a

lemma word_within (w : Word) : least ≤ w.toInt ∧ w.toInt ≤ greatest := by
  have hl := Int32.le_toInt w
  have hg := Int32.toInt_lt w
  rw [least, greatest]
  omega

lemma nat_within {n : ℕ} (hn : n < 2 ^ 64) : least ≤ (n : ℤ) ∧ (n : ℤ) ≤ greatest := by
  rw [least, greatest]
  omega

end Json.Value

/-- The peer that a value tells. -/
def Peer.ofValue? (v : Json.Value) : Option Peer := do
  let pid ← (← v.field? "pid").integer?
  let uid ← (← v.field? "uid").integer?
  let gid ← (← v.field? "gid").integer?
  return ⟨.ofInt pid, .ofNat uid.toNat, .ofNat gid.toNat⟩

/-- The refusal of a given name. -/
def Refusal.ofName? (name : String) : Option Refusal :=
  [malformed, commandDisabled, policyDenied].find? (·.name = name)

namespace Audit

/-- The decision of a given name. -/
def Decision.ofName? (name : String) : Option Decision := [allowed, denied].find? (·.name = name)

/-- The command of a given name in a record. -/
def commandOf? (name : String) : Option (Option Command) :=
  if name = "unknown" then some none else (Command.ofName? name).map some

namespace Record

/-- The record that a value tells. -/
def ofValue? (v : Json.Value) : Option Record := do
  let time ← (← v.field? "ts_unix_ms").integer?
  let peer ← (← v.field? "peer").option? Peer.ofValue?
  let command ← commandOf? (← (← v.field? "command").string?)
  let paths ← (← (← v.field? "paths").items?).mapM Json.Value.string?
  let decision ← Decision.ofName? (← (← v.field? "decision").string?)
  let reason ← (← v.field? "reason").option? fun v => do Refusal.ofName? (← v.string?)
  let returnCode ← (← v.field? "return_code").integer?
  return ⟨.ofNat time.toNat, peer, ⟨command, paths, decision, reason, .ofInt returnCode⟩⟩

/-- The record that a line tells. -/
def read? (line : Bytes) : Option Record := do
  let text ← Utf8.toString? line
  let v ← (Json.Value.parse text).toOption
  ofValue? v

end Record

end Audit

lemma Peer.ofValue?_toValue (p : Peer) : Peer.ofValue? p.toValue = some p := by
  simp [Peer.ofValue?, Peer.toValue, Json.Value.field?, List.lookup_cons]

lemma Refusal.ofName?_name (r : Refusal) : Refusal.ofName? r.name = some r := by cases r <;> decide

namespace Audit

lemma Decision.ofName?_name (d : Decision) : Decision.ofName? d.name = some d := by
  cases d <;> decide

lemma commandOf?_commandName (e : Entry) : commandOf? e.commandName = some e.command := by
  rw [Entry.commandName]
  rcases e.command with _ | c
  · rfl
  · cases c <;> decide

namespace Record

/-- All seven fields of a record are told by its value. -/
lemma ofValue?_toValue (r : Record) : ofValue? r.toValue = some r := by
  have hpeer : (Json.Value.ofOption Peer.toValue r.peer).option? Peer.ofValue? = some r.peer :=
    Json.Value.option?_ofOption Peer.ofValue?_toValue (by simp [Peer.toValue]) r.peer
  have hreason : (Json.Value.ofOption (fun reason => .string reason.name) r.entry.reason).option?
      (fun v => v.string?.bind Refusal.ofName?) = some r.entry.reason :=
    Json.Value.option?_ofOption Refusal.ofName?_name (by simp) r.entry.reason
  simp [ofValue?, toValue, Json.Value.field?, List.lookup_cons, hpeer, hreason,
    commandOf?_commandName, Decision.ofName?_name]

/-- A record is not nested deep, and its integers have at most 64 bits. -/
lemma fits_toValue (r : Record) : r.toValue.Fits 128 := by
  have hpeer (p : Peer) : p.toValue.Fits 127 := by
    have huid := Json.Value.nat_within (p.uid.toNat_lt.trans (by decide))
    have hgid := Json.Value.nat_within (p.gid.toNat_lt.trans (by decide))
    simp only [Peer.toValue, Json.Value.Fits, List.forall_mem_cons]
    exact ⟨Json.Value.word_within p.pid, huid, hgid, List.forall_mem_nil _⟩
  have hpeer := Json.Value.fits_ofOption hpeer r.peer
  have htime := Json.Value.nat_within r.time.toNat_lt
  have hreason (reason : Refusal) : (Json.Value.string reason.name).Fits 127 := trivial
  have hreason := Json.Value.fits_ofOption hreason r.entry.reason
  have hcode := Json.Value.word_within r.entry.returnCode
  simp only [toValue, Json.Value.Fits, List.forall_mem_cons, List.forall_mem_map]
  exact ⟨htime, hpeer, trivial, fun _ _ => trivial, trivial, hreason, hcode, List.forall_mem_nil _⟩

/-! ### Lines -/

/-- The bytes of the line of a record, without the byte that ends it. -/
def lineBytes (r : Record) : Bytes := Utf8.encode (String.ofList r.toValue.compact)

/-- **A record is read back from its line.** -/
lemma read?_lineBytes (r : Record) : read? r.lineBytes = some r := by
  rw [read?, lineBytes, Utf8.toString?_encode]
  simp [Json.Value.parse_compact r.fits_toValue, Except.toOption, ofValue?_toValue]

/-- The line of a record is a single line. -/
lemma lineBytes_no_break (r : Record) : 0x0a ∉ r.lineBytes ∧ 0x0d ∉ r.lineBytes := by
  have hcontrol : ∀ b ∈ r.lineBytes, 0x20 ≤ b.toNat := fun b hb =>
    Utf8.encode_no_control (Json.Value.printable_compact r.fits_toValue) hb
  exact ⟨fun h => absurd (hcontrol _ h) (by decide), fun h => absurd (hcontrol _ h) (by decide)⟩

lemma encode_line (r : Record) : Utf8.encode (String.ofList r.line) = r.lineBytes ++ [0x0a] := by
  rw [line, lineBytes, Utf8.encode_ofList, Utf8.encode_ofList, List.flatMap_append]
  rfl

end Record

/-- The bytes of the log of some records. -/
def logBytes (rs : List Record) : Bytes := Utf8.encode (String.ofList (log rs))

lemma logBytes_eq (rs : List Record) : logBytes rs = rs.flatMap fun r => r.lineBytes ++ [0x0a] := by
  have hline (r : Record) : r.line.flatMap String.utf8EncodeChar = r.lineBytes ++ [0x0a] := by
    rw [← Utf8.encode_ofList, Record.encode_line]
  simp only [logBytes, log, Utf8.encode_ofList, List.flatMap_assoc, hline]

lemma splitOn_logBytes (rs : List Record) :
    (logBytes rs).splitOn 0x0a = rs.map Record.lineBytes ++ [[]] := by
  rw [logBytes_eq]
  induction rs with
  | nil => rfl
  | cons r rs ih =>
    have hline : ∀ b ∈ r.lineBytes, (b == 0x0a) = false := fun b hb =>
      beq_false_of_ne fun h => r.lineBytes_no_break.1 (h ▸ hb)
    rw [List.flatMap_cons, List.append_assoc, List.singleton_append, List.splitOn,
      List.splitOnP_append_cons_of_forall_mem hline _ (by decide), ← List.splitOn, ih]
    rfl

/-! ### The log in its file -/

/-- Some records, appended one after another, as far as that succeeds. -/
def appendAll (t : FileTree) (path : Path) : List Record → Except Fault Unit × FileTree
  | [] => (.ok (), t)
  | r :: rs =>
    match append t path r with
    | (.ok (), t') => appendAll t' path rs
    | (.error fault, t') => (.error fault, t')

variable {t : FileTree} {path : Path} {id : ℕ} {content : Bytes}

lemma append_of_fileAt (h : t.FileAt path id content) (r : Record) :
    ∃ t', append t path r = (.ok (), t') ∧
      t'.FileAt path id (content ++ (r.lineBytes ++ [0x0a])) := by
  obtain ⟨t', happend, hat⟩ := h.appendAt (r.lineBytes ++ [0x0a])
  exact ⟨t', by rw [append, Record.encode_line, happend], hat⟩

lemma appendAll_of_fileAt (h : t.FileAt path id content) (rs : List Record) :
    ∃ t', appendAll t path rs = (.ok (), t') ∧ t'.FileAt path id (content ++ logBytes rs) := by
  rw [logBytes_eq]
  induction rs generalizing t content with
  | nil => exact ⟨t, rfl, by rwa [List.flatMap_nil, List.append_nil]⟩
  | cons r rs ih =>
    obtain ⟨t₁, hfirst, hat⟩ := append_of_fileAt h r
    obtain ⟨t', hrest, hat'⟩ := ih hat
    refine ⟨t', by rw [appendAll, hfirst]; exact hrest, ?_⟩
    rwa [List.flatMap_cons, ← List.append_assoc]

lemma map_read?_lineBytes (rs : List Record) :
    (rs.map Record.lineBytes).map Record.read? = rs.map some := by
  rw [List.map_map]
  exact List.map_congr_left fun r _ => r.read?_lineBytes

/-- Two logs are the same only if their records are. -/
lemma logBytes_injective : Function.Injective logBytes := by
  intro rs rs' h
  have hlines : rs.map Record.lineBytes = rs'.map Record.lineBytes := by
    rw [← List.append_left_inj [[]], ← splitOn_logBytes, ← splitOn_logBytes, h]
  have hread := congrArg (List.map Record.read?) hlines
  rw [map_read?_lineBytes, map_read?_lineBytes] at hread
  exact List.map_injective_iff.mpr (Option.some_injective _) hread

/-- **A log tells its records and nothing else.** Records that are appended one after another to
an empty log are all written. The log splits at its newlines into one line for each record, in
order, and what stands behind the last newline is empty. No line has another line break in it, and
each is read back as its record, whatever strings stand in it. So two logs are the same only if
their records are. -/
theorem log_reads_back (hroot : t.isDirectory FileTree.root = true) (hempty : t.BeginsEmpty path) :
    (∀ rs, ∃ t' lines, appendAll t path rs = (.ok (), t') ∧
      (rs ≠ [] → t'.contentAt path = .ok (logBytes rs)) ∧
      (logBytes rs).splitOn 0x0a = lines ++ [[]] ∧
      lines.map Record.read? = rs.map some ∧
      ∀ line ∈ lines, 0x0a ∉ line ∧ 0x0d ∉ line) ∧
    Function.Injective logBytes := by
  obtain ⟨t₁, id, hat, hsame⟩ := hempty.exists_fileAt hroot
  refine ⟨fun rs => ?_, logBytes_injective⟩
  have hlines := splitOn_logBytes rs
  have hbreak : ∀ line ∈ rs.map Record.lineBytes, 0x0a ∉ line ∧ 0x0d ∉ line :=
    List.forall_mem_map.mpr fun r _ => r.lineBytes_no_break
  -- only the first append may have to make the file
  cases rs with
  | nil => exact ⟨t, [], rfl, fun h => absurd rfl h, hlines, rfl, hbreak⟩
  | cons r rs =>
    obtain ⟨t', hall, hat'⟩ := appendAll_of_fileAt hat (r :: rs)
    have hfirst : append t path r = append t₁ path r := by rw [append, append, hsame]
    refine ⟨t', _, ?_, fun _ => hat'.contentAt, hlines, map_read?_lineBytes (r :: rs), hbreak⟩
    rw [appendAll, hfirst]
    exact hall

/-- A log file in the root. -/
def logPath : Path := ⟨[47, 108, 111, 103], by decide⟩

/-- A request whose path has a line break, a mark and a backslash in it, and the beginning of a
record. -/
def forging : Record where
  time := 1
  peer := some ⟨10, 1000, 1000⟩
  entry := ⟨some .openFile, ["/\n\x7b\"ts_unix_ms\":2,\\"], .denied, some .policyDenied, -1⟩

theorem forging_reads_back :
    FileTree.bare.isDirectory FileTree.root = true ∧ FileTree.bare.BeginsEmpty logPath ∧
      ∃ t' lines, appendAll FileTree.bare logPath [forging, forging] = (.ok (), t') ∧
        t'.contentAt logPath = .ok (logBytes [forging, forging]) ∧
        (logBytes [forging, forging]).splitOn 0x0a = lines ++ [[]] ∧
        lines.map Record.read? = [some forging, some forging] := by
  have hroot : FileTree.bare.isDirectory FileTree.root = true := by decide
  have hspot : FileTree.bare.spot .make logPath = .ok ⟨.top, some [108, 111, 103], false⟩ := by
    have hnone : FileTree.bare.entry? FileTree.root [108, 111, 103] = none := by decide
    rw [FileTree.spot, if_neg (by decide), if_neg (by decide)]
    refine FileTree.walk_eq_ok.mpr (.last (by decide) (by decide) (.inr ⟨by decide, ?_⟩))
    intro id hid
    cases hnone.symm.trans hid
  have hempty : FileTree.bare.BeginsEmpty logPath :=
    FileTree.beginsEmpty_of_nothing hroot hspot (by decide)
  obtain ⟨t', lines, hall, hcontent, hsplit, hread, -⟩ :=
    (log_reads_back hroot hempty).1 [forging, forging]
  exact ⟨hroot, hempty, t', lines, hall, hcontent (by simp), hsplit, hread⟩

end Audit

end FileBroker
