/-
Paths as lists of components.

A canonical path is nothing but its components, each behind a slash, with or without one more slash
at the end. So to compare such paths byte by byte is to compare their components, as long as the
comparison ends at a slash.

* `Path.Canonical.split_eq`, `Path.Canonical.bytes_eq`: the pieces and the bytes of a canonical
  path, told by its components.
* `Path.Under`: components that go on where others end.
* `Path.prefix_spelled_iff`: byte prefixes that end with a slash are prefixes of components.
* `Path.Canonical.leads_iff`: the ancestors of a canonical path.
* `Path.Canonical.resolve_eq`: lexical resolution has nothing to do on a canonical path.
-/
import FileBroker.Proofs.Paths

namespace FileBroker.Path

/-! ### Splitting at a slash -/

lemma split_append_slash (a b : Bytes) : split (a ++ slash :: b) = split a ++ split b := by
  induction a with
  | nil => rw [List.nil_append, split_slash, split, List.singleton_append]
  | cons c a ih =>
    rw [List.cons_append]
    by_cases hc : c = slash
    · rw [hc, split_slash, split_slash, ih, List.cons_append]
    · obtain ⟨piece, pieces, h⟩ := List.exists_cons_of_ne_nil (split_ne_nil a)
      rw [h, List.cons_append] at ih
      rw [split_cons_of_ne hc h, split_cons_of_ne hc ih, List.cons_append]

lemma split_of_plain {bytes : Bytes} (h : slash ∉ bytes) : split bytes = [bytes] := by
  induction bytes with
  | nil => rfl
  | cons b rest ih =>
    rw [List.mem_cons, not_or] at h
    exact split_cons_of_ne (Ne.symm h.1) (ih h.2)

lemma slash_notMem_of_mem_split {piece bytes : Bytes} (h : piece ∈ split bytes) :
    slash ∉ piece := by
  induction bytes generalizing piece with
  | nil =>
    rw [split, List.mem_singleton] at h
    simp [h]
  | cons b rest ih =>
    by_cases hb : b = slash
    · rw [hb, split_slash, List.mem_cons] at h
      rcases h with rfl | h
      · simp
      · exact ih h
    · obtain ⟨first, pieces, hs⟩ := List.exists_cons_of_ne_nil (split_ne_nil rest)
      rw [split_cons_of_ne hb hs, List.mem_cons] at h
      rcases h with rfl | h
      · have hfirst := ih (hs ▸ List.mem_cons_self)
        simp [Ne.symm hb, hfirst]
      · exact ih (hs ▸ List.mem_cons_of_mem _ h)

/-! ### Components, each behind a slash -/

/-- Names, each behind a slash. -/
def spelled (names : List Bytes) : Bytes := names.flatMap (slash :: ·)

@[simp] lemma spelled_nil : spelled [] = [] := rfl

@[simp] lemma spelled_cons (name : Bytes) (names : List Bytes) :
    spelled (name :: names) = slash :: name ++ spelled names := rfl

@[simp] lemma spelled_append (names names' : List Bytes) :
    spelled (names ++ names') = spelled names ++ spelled names' := List.flatMap_append

/-- A path is its pieces, each behind a slash, without the first slash. -/
lemma spelled_split (bytes : Bytes) : spelled (split bytes) = slash :: bytes := by
  induction bytes with
  | nil => rfl
  | cons b rest ih =>
    by_cases hb : b = slash
    · rw [hb, split_slash, spelled_cons, ih, List.cons_append, List.nil_append]
    · obtain ⟨piece, pieces, h⟩ := List.exists_cons_of_ne_nil (split_ne_nil rest)
      rw [h, spelled_cons, List.cons_append, List.cons.injEq] at ih
      rw [split_cons_of_ne hb h, spelled_cons, List.cons_append, List.cons_append, ih.2]

/-- Names that a component can have. -/
def Named (names : List Bytes) : Prop := ∀ name ∈ names, name ≠ [] ∧ slash ∉ name

lemma components_named (bytes : Bytes) : Named (components bytes) := by
  intro name h
  obtain ⟨hmem, hne⟩ := List.mem_filter.mp h
  exact ⟨by simpa using hne, slash_notMem_of_mem_split hmem⟩

/-- The slash at the end of a path, if there is one. -/
def trail (bytes : Bytes) : Bytes := if endsWithSlash bytes then [slash] else []

namespace Canonical

variable {bytes : Bytes}

/-- The pieces of a canonical path are an empty one, its components, and another empty one if a
slash stands at the end. -/
lemma split_eq (h : Canonical bytes) :
    split bytes = [] :: components bytes ++ if endsWithSlash bytes then [[]] else [] := by
  obtain ⟨rest, rfl⟩ := h.absolute
  rw [List.singleton_append] at h ⊢
  obtain hnone | ⟨init, last, hs⟩ := List.eq_nil_or_concat (split rest)
  · exact absurd hnone (split_ne_nil rest)
  rw [List.concat_eq_append] at hs
  have hinit : ∀ piece ∈ init, piece ≠ [] := by
    have := (inner_pieces_iff _).mpr h.single_slashes
    rwa [split_slash, List.tail_cons, hs, List.dropLast_concat] at this
  have hfilter : init.filter (· ≠ []) = init := List.filter_eq_self.mpr (by simpa using hinit)
  have hbytes : slash :: rest = spelled init ++ slash :: last := by
    rw [← spelled_split, hs, spelled_append, spelled_cons, spelled_nil, List.append_nil]
  rw [split_slash, components, split_slash, hs, List.filter_cons_of_neg (by simp),
    List.filter_append, hfilter]
  by_cases hl : last = []
  · have hends : endsWithSlash (slash :: rest) = true := by
      simp [endsWithSlash, hbytes, hl]
    rw [hends, hl]
    simp
  · have hplain : slash ∉ last := slash_notMem_of_mem_split (show last ∈ split rest by simp [hs])
    have hends : endsWithSlash (slash :: rest) = false := by
      rw [endsWithSlash, hbytes, List.getLast?_append, List.getLast?_cons_of_ne_nil hl]
      obtain ⟨b, hb⟩ := Option.ne_none_iff_exists'.mp (mt List.getLast?_eq_none_iff.mp hl)
      rw [hb, Option.some_or, decide_eq_false_iff_not]
      rintro ⟨⟩
      exact hplain (List.mem_of_getLast? hb)
    rw [hends]
    simp [hl]

/-- A canonical path is its components, each behind a slash, and a slash that may stand at the
end. -/
lemma bytes_eq (h : Canonical bytes) : bytes = spelled (components bytes) ++ trail bytes := by
  have hs := spelled_split bytes
  rw [h.split_eq, spelled_append, spelled_cons, List.cons_append, List.nil_append,
    List.cons_append, List.cons.injEq] at hs
  rw [trail]
  conv_lhs => rw [← hs.2]
  congr 1
  split <;> rfl

end Canonical

lemma trail_cases (bytes : Bytes) : trail bytes = [] ∨ trail bytes = [slash] := by
  rw [trail]
  split
  · exact .inr rfl
  · exact .inl rfl

lemma trail_append_slash (bytes : Bytes) : trail (bytes ++ [slash]) = [slash] := by
  simp [trail, endsWithSlash]

lemma components_append_slash (bytes : Bytes) :
    components (bytes ++ [slash]) = components bytes := by
  rw [components, split_append_slash, split, List.filter_append]
  simp [components]

/-! ### Prefixes -/

/-- Two names that are each followed by a slash, or by nothing, are not confused. -/
lemma name_prefix_iff {a n more : Bytes} (ha : slash ∉ a) (hn : slash ∉ n) {after : Bytes}
    (hafter : after = [] ∨ ∃ rest, after = slash :: rest) :
    a ++ slash :: more <+: n ++ after ↔ a = n ∧ slash :: more <+: after := by
  induction a generalizing n with
  | nil =>
    cases n with
    | nil => simp
    | cons c n =>
      have hc : slash ≠ c := fun h => hn (h ▸ List.mem_cons_self)
      simp [hc]
  | cons b a ih =>
    cases n with
    | nil =>
      have hb : b ≠ slash := fun h => ha (h ▸ List.mem_cons_self)
      rcases hafter with rfl | ⟨rest, rfl⟩
      · simp
      · simp [hb]
    | cons c n =>
      rw [List.cons_append, List.cons_append, List.cons_prefix_cons,
        ih (fun h => ha (List.mem_cons_of_mem _ h)) (fun h => hn (List.mem_cons_of_mem _ h)),
        List.cons.injEq, and_assoc]

/-- The names `names` go on where the names `above` end. -/
def Under (above names : List Bytes) : Prop := above <+: names ∧ above ≠ names

/-- **Components and bytes.** Names that are spelled with a slash at the end are the beginning of
other names just where those go on, or are the same with a slash at the end as well. -/
lemma prefix_spelled_iff {above names : List Bytes} (ha : Named above) (hn : Named names)
    {rest : Bytes} (hr : rest = [] ∨ rest = [slash]) :
    spelled above ++ [slash] <+: spelled names ++ rest ↔
      Under above names ∨ (above = names ∧ rest = [slash]) := by
  induction above generalizing names with
  | nil =>
    cases names with
    | nil => rcases hr with rfl | rfl <;> simp [Under]
    | cons name names => simp [Under]
  | cons first above ih =>
    obtain ⟨hfirst, hplain⟩ := ha first List.mem_cons_self
    have habove : Named above := fun name h => ha name (List.mem_cons_of_mem _ h)
    obtain ⟨more, hmore⟩ : ∃ more, spelled above ++ [slash] = slash :: more := by
      cases above <;> simp
    cases names with
    | nil =>
      obtain ⟨b, first, rfl⟩ := List.exists_cons_of_ne_nil hfirst
      rcases hr with rfl | rfl <;> simp [Under]
    | cons name names =>
      have hname := hn name List.mem_cons_self
      have hnames : Named names := fun name h => hn name (List.mem_cons_of_mem _ h)
      have hafter : spelled names ++ rest = [] ∨ ∃ more, spelled names ++ rest = slash :: more := by
        cases names with
        | nil => rcases hr with rfl | rfl <;> simp
        | cons => simp
      rw [spelled_cons, spelled_cons, List.append_assoc, List.append_assoc, hmore,
        List.cons_append, List.cons_append, List.cons_prefix_cons,
        name_prefix_iff hplain hname.2 hafter, ← hmore, ih habove hnames]
      simp only [Under, List.cons_prefix_cons, List.cons.injEq, ne_eq]
      tauto

section Leads

variable {short long : Bytes}

/-- A path without a slash at the end leads to those that begin with it and a slash. -/
lemma leads_iff_of_plain (h : endsWithSlash short = false) :
    Leads short long ↔ short ++ [slash] <+: long := by
  constructor
  · rintro ⟨more, -, rfl, hend | hhead⟩
    · exact absurd hend (of_decide_eq_false h)
    · obtain ⟨rest, rfl⟩ := List.head?_eq_some_iff.mp hhead
      exact ⟨rest, by simp⟩
  · rintro ⟨rest, rfl⟩
    exact ⟨slash :: rest, by simp, by simp, .inr rfl⟩

/-- A path with a slash at the end leads to all others that begin with it. -/
lemma leads_iff_of_slash (h : endsWithSlash short = true) :
    Leads short long ↔ short <+: long ∧ long ≠ short := by
  constructor
  · rintro ⟨more, hm, rfl, -⟩
    exact ⟨List.prefix_append _ _, by simpa using hm⟩
  · rintro ⟨⟨more, rfl⟩, hm⟩
    exact ⟨more, by simpa using hm, rfl, .inl (of_decide_eq_true h)⟩

end Leads

namespace Canonical

variable {short long : Bytes}

/-- The components of a path with a slash at the end are the beginning of others just where it leads
there or is the same path. -/
lemma prefix_iff (hs : Canonical short) (hl : Canonical long) (ht : trail short = [slash]) :
    short <+: long ↔ Under (components short) (components long) ∨ long = short := by
  have h := prefix_spelled_iff (components_named short) (components_named long) (trail_cases long)
  have hsame : components short = components long ∧ trail long = [slash] ↔ long = short := by
    constructor
    · rintro ⟨hc, htl⟩
      rw [hs.bytes_eq, hl.bytes_eq, hc, ht, htl]
    · rintro rfl
      exact ⟨rfl, ht⟩
  rwa [hsame, ← hl.bytes_eq, ← ht, ← hs.bytes_eq] at h

lemma append_slash {bytes : Bytes} (h : Canonical bytes) (ht : endsWithSlash bytes = false) :
    Canonical (bytes ++ [slash]) where
  absolute := h.absolute.trans (List.prefix_append _ _)
  single_slashes := by
    rw [← inner_pieces_iff, split_append_slash, split, h.split_eq, ht]
    simpa using fun name hn => ((components_named bytes) name hn).1
  no_dots piece hp := by
    rw [split_append_slash, List.mem_append, split, List.mem_singleton] at hp
    rcases hp with hp | rfl
    · exact h.no_dots piece hp
    · decide

/-- One canonical path leads to another just where the components of the other go on, or where the
other is the same with a slash at the end. -/
lemma leads_iff (hs : Canonical short) (hl : Canonical long) :
    Leads short long ↔
      Under (components short) (components long) ∨ long = short ++ [slash] := by
  cases ht : endsWithSlash short with
  | false =>
    have hp := (hs.append_slash ht).prefix_iff hl (trail_append_slash short)
    rw [leads_iff_of_plain ht, hp, components_append_slash]
  | true =>
    have hdouble : long ≠ short ++ [slash] := by
      obtain ⟨init, rfl⟩ := List.getLast?_eq_some_iff.mp (of_decide_eq_true ht)
      rintro rfl
      exact hl.single_slashes ⟨init, [], by simp⟩
    have hne : Under (components short) (components long) → long ≠ short := by
      rintro h rfl
      exact h.2 rfl
    have hp := hs.prefix_iff hl (show trail short = [slash] by rw [trail, ht, if_pos rfl])
    rw [leads_iff_of_slash ht, hp]
    tauto

/-- A name can be put behind the slash at the end of a canonical path. -/
lemma append_name {bytes name : Bytes} (h : Canonical (bytes ++ [slash])) (hplain : slash ∉ name)
    (hdots : name ≠ dot ∧ name ≠ dotDot) : Canonical (bytes ++ slash :: name) where
  absolute := by
    have := h.absolute
    cases bytes <;> simp_all
  single_slashes := by
    have hinner := (inner_pieces_iff _).mpr h.single_slashes
    obtain ⟨first, pieces, hs⟩ := List.exists_cons_of_ne_nil (split_ne_nil bytes)
    rw [split_append_slash, split, hs, List.cons_append, List.tail_cons,
      List.dropLast_concat] at hinner
    rwa [← inner_pieces_iff, split_append_slash, split_of_plain hplain, hs, List.cons_append,
      List.tail_cons, List.dropLast_concat]
  no_dots piece hp := by
    rw [split_append_slash, List.mem_append, split_of_plain hplain, List.mem_singleton] at hp
    rcases hp with hp | rfl
    · exact h.no_dots piece (by rw [split_append_slash]; exact List.mem_append_left _ hp)
    · exact hdots

/-- Nothing is left to resolve in a canonical path. -/
lemma resolve_eq {bytes : Bytes} (h : Canonical bytes) : resolve bytes = components bytes := by
  have hfold : ∀ (pieces done : List Bytes), (∀ piece ∈ pieces, piece ≠ dot ∧ piece ≠ dotDot) →
      pieces.foldl resolveStep done = done ++ pieces.filter (· ≠ []) := by
    intro pieces
    induction pieces with
    | nil => simp
    | cons piece pieces ih =>
      intro done hd
      obtain ⟨hdot, hdotDot⟩ := hd piece List.mem_cons_self
      have hrest := fun p hp => hd p (List.mem_cons_of_mem piece hp)
      by_cases hp : piece = []
      · simp [resolveStep, hp, ih done hrest]
      · simp [resolveStep, hp, hdot, hdotDot, ih _ hrest]
  exact hfold _ [] h.no_dots

end Canonical

end FileBroker.Path
