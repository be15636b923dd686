/-
The spelling of paths.

A path is judged piece by piece. Here the judgement is said of the byte string as a whole, and
ancestors are said by what follows them.

* `Path.Canonical`, `Path.wellFormed_iff`: absolute, no two slashes in a row, no piece `.` or `..`.
* `Path.Leads`, `Path.isAncestor_iff`: a path that another one continues with a further component.
-/
import Mathlib.Tactic
import FileBroker.Path

namespace FileBroker.Path

/-! ### Splitting -/

lemma split_ne_nil (bytes : Bytes) : split bytes ≠ [] := by
  cases bytes with
  | nil => simp [split]
  | cons b rest =>
    rw [split]
    split
    · simp
    · split <;> simp

lemma split_slash (rest : Bytes) : split (slash :: rest) = [] :: split rest := by
  rw [split, if_pos rfl]

/-- A byte that is no slash belongs to the first piece of what follows it. -/
lemma split_cons_of_ne {b : UInt8} (hb : b ≠ slash) {rest piece : Bytes} {pieces : List Bytes}
    (h : split rest = piece :: pieces) : split (b :: rest) = (b :: piece) :: pieces := by
  rw [split, if_neg hb, h]

/-- The first of several pieces is empty exactly if the bytes start with a slash. -/
lemma split_eq_nil_cons_iff (bytes : Bytes) :
    (∃ pieces, pieces ≠ [] ∧ split bytes = [] :: pieces) ↔ [slash] <+: bytes := by
  cases bytes with
  | nil => simp [split]
  | cons b rest =>
    by_cases hb : b = slash
    · subst hb
      simp [split_slash, split_ne_nil]
    · obtain ⟨piece, pieces, h⟩ := List.exists_cons_of_ne_nil (split_ne_nil rest)
      rw [split_cons_of_ne hb h]
      simp [Ne.symm hb]

/-- Two slashes in a row are an empty piece between the first and the last one. -/
lemma inner_pieces_iff (bytes : Bytes) :
    (∀ piece ∈ (split bytes).tail.dropLast, piece ≠ []) ↔ ¬ [slash, slash] <:+: bytes := by
  induction bytes with
  | nil => simp [split]
  | cons b rest ih =>
    obtain ⟨piece, pieces, h⟩ := List.exists_cons_of_ne_nil (split_ne_nil rest)
    rw [h, List.tail_cons] at ih
    rw [List.infix_cons_iff, not_or]
    by_cases hb : b = slash
    · subst hb
      have hs := split_eq_nil_cons_iff rest
      rw [h] at hs
      rw [split_slash, h, List.tail_cons, List.cons_prefix_cons, ← ih, ← hs]
      cases pieces with
      | nil => simp
      | cons next pieces => simp
    · rw [split_cons_of_ne hb h, List.tail_cons, ih, List.cons_prefix_cons]
      simp [Ne.symm hb]

/-! ### Well-formed paths -/

/-- The spelling that a policy accepts, said of the whole byte string. -/
structure Canonical (bytes : Bytes) : Prop where
  absolute : [slash] <+: bytes
  single_slashes : ¬ [slash, slash] <:+: bytes
  no_dots : ∀ piece ∈ split bytes, piece ≠ dot ∧ piece ≠ dotDot

lemma wellFormed_iff (bytes : Bytes) : wellFormed bytes = true ↔ Canonical bytes := by
  cases bytes with
  | nil => exact ⟨fun h => by simp [wellFormed] at h, fun h => by simpa using h.absolute⟩
  | cons b rest =>
    by_cases hb : b = slash
    · subst hb
      have hi := inner_pieces_iff (slash :: rest)
      rw [split_slash, List.tail_cons] at hi
      have hw : wellFormed (slash :: rest) = true ↔
          (∀ piece ∈ (split rest).dropLast, piece ≠ []) ∧
            ∀ piece ∈ split rest, piece ≠ dot ∧ piece ≠ dotDot := by
        simp [wellFormed]
      rw [hw, hi]
      constructor
      · rintro ⟨hs, hd⟩
        refine ⟨by simp, hs, fun piece hp => ?_⟩
        rw [split_slash, List.mem_cons] at hp
        rcases hp with rfl | hp
        · decide
        · exact hd piece hp
      · intro h
        refine ⟨h.single_slashes, fun piece hp => h.no_dots piece ?_⟩
        rw [split_slash]
        exact List.mem_cons_of_mem _ hp
    · refine ⟨fun h => by simp [wellFormed, hb] at h, fun h => ?_⟩
      have := h.absolute
      simp [Ne.symm hb] at this

/-! ### Ancestors -/

/-- The path `short` is continued to `long` by further bytes, and a slash stands at the joint. -/
def Leads (short long : Bytes) : Prop :=
  ∃ more, more ≠ [] ∧ long = short ++ more ∧
    (short.getLast? = some slash ∨ more.head? = some slash)

lemma isAncestor_iff (short long : Bytes) : isAncestor short long = true ↔ Leads short long := by
  rw [isAncestor, Bool.and_eq_true, Bool.and_eq_true, List.isPrefixOf_iff_prefix]
  constructor
  · rintro ⟨⟨⟨more, rfl⟩, hl⟩, hs⟩
    refine ⟨more, ?_, rfl, ?_⟩
    · rintro rfl
      simp at hl
    · simpa [endsWithSlash] using hs
  · rintro ⟨more, hm, rfl, hs⟩
    have := List.length_pos_iff.mpr hm
    refine ⟨⟨List.prefix_append _ _, by simpa using this⟩, ?_⟩
    simpa [endsWithSlash] using hs

end FileBroker.Path
