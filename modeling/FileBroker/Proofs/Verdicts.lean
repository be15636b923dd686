/-
What a printed verdict tells.

Whoever asks the policy alone sees a text, and acts on what it tells. Here stands what has to be in
a text for each field of a verdict, without a word on how verdicts are printed; a text that tells a
verdict tells no other, and the text that is printed for a verdict tells it.

* `Json.IsInteger`, `Json.OrNull`: values that are a given integer, or what may be absent.
* `Verdict.Written`: the value that writes a verdict.
* `Verdict.Told`, `Verdict.Told.unique`: the texts that tell a verdict; each tells one.
* `Verdict.told_printed_iff`: the text that is printed for a verdict tells this verdict alone.
-/
import FileBroker.Control
import FileBroker.Proofs.Documents
import FileBroker.Proofs.Unambiguity

namespace FileBroker

namespace Json

/-! ### Integers and what may be absent -/

/-- The value is that integer, in decimal digits. -/
inductive IsInteger : Tree → ℤ → Prop
  | plain {ds : List Char} : AreDigits ds → IsInteger (.number ds) (Nat.ofDigitChars 10 ds 0)
  | minus {ds : List Char} : AreDigits ds →
      IsInteger (.number ('-' :: ds)) (-(Nat.ofDigitChars 10 ds 0 : ℕ))

lemma AreDigits.ne_minus {ds : List Char} : ¬ AreDigits ('-' :: ds) := fun h =>
  absurd (h.2 '-' List.mem_cons_self) (by decide)

lemma IsInteger.unique {v : Tree} {n n' : ℤ} (h : IsInteger v n) (h' : IsInteger v n') :
    n = n' := by
  cases h with
  | plain hds =>
    cases h' with
    | plain => rfl
    | minus => exact absurd hds AreDigits.ne_minus
  | minus hds =>
    cases h' with
    | plain hds' => exact absurd hds' AreDigits.ne_minus
    | minus => rfl

/-- The digits that are written for an integer are that integer. -/
lemma isInteger_integerText (n : ℤ) : IsInteger (.number (integerText n)) n := by
  have hdigits := areDigits_toDigits n.natAbs
  have hvalue : Nat.ofDigitChars 10 (Nat.toDigits 10 n.natAbs) 0 = n.natAbs :=
    Nat.ofDigitChars_ten_toDigits
  rw [integerText]
  split_ifs with hneg
  · have hminus := IsInteger.minus hdigits
    rwa [hvalue, show -(n.natAbs : ℤ) = n by omega] at hminus
  · have hplain := IsInteger.plain hdigits
    rwa [hvalue, Int.natAbs_of_nonneg (by omega)] at hplain

variable {α : Type} {means : Tree → α → Prop}

/-- The value says what is there, or is null if nothing is. -/
def OrNull (means : Tree → α → Prop) (v : Tree) : Option α → Prop
  | some a => means v a
  | none => v = .null

lemma OrNull.unique {v : Tree} {a a' : Option α} (h : OrNull means v a) (h' : OrNull means v a')
    (hmeans : ∀ b b', means v b → means v b' → b = b') (hnull : ∀ b, ¬ means .null b) : a = a' := by
  cases a with
  | none =>
    cases a' with
    | none => rfl
    | some b => exact absurd ((show v = .null from h) ▸ h') (hnull b)
  | some b =>
    cases a' with
    | none => exact absurd ((show v = .null from h') ▸ h) (hnull b)
    | some b' => exact congrArg some (hmeans b b' h h')

end Json

open Json (IsInteger OrNull Tree)

lemma Command.name_injective : Function.Injective Command.name := fun c c' h =>
  Option.some.inj (c.lookup_name.symm.trans (h ▸ c'.lookup_name))

namespace Verdict

/-! ### Texts that tell a verdict -/

/-- The value writes the verdict: an object with a member for each field. -/
inductive Written (v : Verdict) : Tree → Prop
  | object {unlink flags : Tree} : OrNull (fun t b => t = .boolean b) unlink v.unlinkAfterOpen →
      OrNull (fun t word => IsInteger t word.toInt) flags v.flags →
      Written v (.object [
        ("allowed", .boolean v.allowed),
        ("command", .string v.command.name),
        ("file_names", .array (v.fileNames.map .string)),
        ("unlink_after_open", unlink),
        ("flags", flags)])

/-- The text tells the verdict: it is JSON for a value that writes it. -/
def Told (v : Verdict) (text : String) : Prop := ∃ t : Tree, v.Written t ∧ t.Fills text

/-- A value writes one verdict. -/
lemma Written.unique {v v' : Verdict} {t : Tree} (h : v.Written t) (h' : v'.Written t) :
    v = v' := by
  obtain ⟨allowed, command, names, unlink?, flags?⟩ := v
  obtain ⟨allowed', command', names', unlink?', flags?'⟩ := v'
  cases h with
  | @object unlink flags hunlink hflags =>
    generalize ht : Tree.object _ = t at h'
    cases h' with
    | object hunlink' hflags' =>
      simp only [Tree.object.injEq, List.cons.injEq, Prod.mk.injEq, Tree.boolean.injEq,
        Tree.string.injEq, Tree.array.injEq, true_and, and_true] at ht
      obtain ⟨rfl, hcommand, hnames, rfl, rfl⟩ := ht
      obtain rfl := Command.name_injective hcommand
      obtain rfl := List.map_injective_iff.mpr (fun _ _ h => Tree.string.inj h) hnames
      have hboolean (b b' : Bool) (hb : unlink = .boolean b) (hb' : unlink = .boolean b') :
          b = b' := Tree.boolean.inj (hb.symm.trans hb')
      have hword (word word' : Word) (hw : IsInteger flags word.toInt)
          (hw' : IsInteger flags word'.toInt) : word = word' :=
        Int32.toInt_inj.mp (hw.unique hw')
      obtain rfl := hunlink.unique hunlink' hboolean nofun
      obtain rfl := hflags.unique hflags' hword nofun
      rfl

/-- A text tells one verdict, since it holds one value. -/
lemma Told.unique {v v' : Verdict} {text : String} (h : v.Told text) (h' : v'.Told text) :
    v = v' := by
  obtain ⟨t, hwritten, ht⟩ := h
  obtain ⟨t', hwritten', ht'⟩ := h'
  obtain rfl := ht.unique ht'
  exact hwritten.unique hwritten'

/-- A verdict is printed as a value that writes it. -/
lemma written_verdictValue (v : Verdict) : v.Written (.ofValue (Control.verdictValue v)) := by
  have hnames : (v.fileNames.map Json.Value.string).map Tree.ofValue =
      v.fileNames.map .string := by
    rw [List.map_map]
    exact List.map_congr_left fun s _ => by rw [Function.comp, Tree.ofValue]
  rw [Control.verdictValue, Tree.ofValue]
  simp only [List.map_cons, List.map_nil, Tree.ofValue, hnames]
  refine .object ?_ ?_
  · cases v.unlinkAfterOpen with
    | none => rw [Json.Value.ofOption, Tree.ofValue]; rfl
    | some b => rw [Json.Value.ofOption, Tree.ofValue]; rfl
  · cases v.flags with
    | none => rw [Json.Value.ofOption, Tree.ofValue]; rfl
    | some flags =>
      rw [Json.Value.ofOption, Tree.ofValue]
      exact Json.isInteger_integerText flags.toInt

/-- **The text that is printed for a verdict tells this verdict alone.** -/
lemma told_printed_iff {v v' : Verdict} :
    v'.Told (Control.verdictValue v).pretty ↔ v' = v := by
  have hprinted : v.Told (Control.verdictValue v).pretty :=
    ⟨_, v.written_verdictValue, .of_spells ((Control.verdictValue v).spells_prettyAt 0)⟩
  constructor
  · exact fun h => h.unique hprinted
  · rintro rfl
    exact hprinted

/-- One member stands on a line, and so does one name. -/
example : (Control.verdictValue ⟨true, .openFile, ["/e/\"x\""], some false, some (-65536)⟩).pretty =
    "\x7b\n  \"allowed\": true,\n  \"command\": \"open\",\n" ++
      "  \"file_names\": [\n    \"/e/\\\"x\\\"\"\n  ],\n" ++
      "  \"unlink_after_open\": false,\n  \"flags\": -65536\n\x7d" := by cbv

end Verdict

end FileBroker
