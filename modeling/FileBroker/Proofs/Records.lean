/-
What a JSON value means as a record.

A record is read member by member, and what has been read of it grows field by field. What comes out
does not depend on the order: each key has to be that of a field, none may stand twice, and a field
without a member takes its standard.

* `Json.Sense`: what the values of three fields mean.
* `Json.Layout.Means`: what a value means as a record, said of the value as a whole.
* `Json.Layout.Gathers`, `Json.Layout.gathers_cons`: what some members add to what has been read,
  one after the other.
* `Json.Layout.reads_record`: the reader of records takes exactly the values that mean one.
* `Json.Layout.means_object_perm`: the order of the members means nothing.
* `Json.Spoils`, `Json.Layout.not_means_of_spoils`: members of which one is unknown, stands twice or
  is missing mean no record.
-/
import FileBroker.Proofs.Meanings

namespace FileBroker.Json

/-- What the values of three fields mean. -/
structure Sense (α β γ : Type) where
  first : Tree → α → Prop
  second : Tree → β → Prop
  third : Tree → γ → Prop

section Field

variable {α : Type} (f : Field α) (means : Tree → α → Prop)

/-- The value of the field is that of its member, or its standard where there is none. -/
def Field.Holds : Option Tree → α → Prop
  | some v, a => means v a
  | none, a => f.standard = some a

/-- The member of the field, if there is one, is the first one for it, and is taken. -/
def Field.Takes (means : Tree → α → Prop) : Option Tree → Option α → Option α → Prop
  | some v, old, new => old = none ∧ ∃ a, means v a ∧ new = some a
  | none, old, new => new = old

variable {f means}

lemma Field.takes_none {old new : Option α} : Takes means none old new ↔ new = old := Iff.rfl

lemma Field.settle_eq_ok_iff {old : Option α} {a : α} :
    f.settle old = .ok a ↔ (old <|> f.standard) = some a := by
  rw [settle]
  cases old <|> f.standard <;> simp

/-- A field that begins with nothing ends with what it holds. -/
lemma Field.holds_iff {v? : Option Tree} {a : α} :
    f.Holds means v? a ↔ ∃ new, Takes means v? none new ∧ f.settle new = .ok a := by
  cases v? with
  | none => simp [Holds, Takes, settle_eq_ok_iff]
  | some v => simp [Holds, Takes, settle_eq_ok_iff]

end Field

namespace Layout

variable {α β γ : Type} (l : Layout α β γ) (m : Sense α β γ)

/-- What a value means as a record: as an array, its items are the fields in order; as an object,
each of its keys is that of a field and stands once. -/
def Means : Tree → α × β × γ → Prop
  | .array vs, r =>
    vs.length ≤ 3 ∧ l.first.Holds m.first vs[0]? r.1 ∧ l.second.Holds m.second vs[1]? r.2.1 ∧
      l.third.Holds m.third vs[2]? r.2.2
  | .object ms, r =>
    (ms.map Prod.fst).Nodup ∧ (∀ key ∈ ms.map Prod.fst, key ∈ l.keys) ∧
      l.first.Holds m.first (ms.lookup l.first.key) r.1 ∧
      l.second.Holds m.second (ms.lookup l.second.key) r.2.1 ∧
      l.third.Holds m.third (ms.lookup l.third.key) r.2.2
  | _, _ => False

/-- The fields of the record are read by what they mean, and their keys differ. -/
structure Agrees : Prop where
  first : Reads l.first.read m.first
  second : Reads l.second.read m.second
  third : Reads l.third.read m.third
  distinct : l.keys.Nodup

/-- What some members make of what has been read before them: the fields of their keys are filled,
and all others stay as they are. -/
structure Gathers (ms : List (String × Tree)) (p q : Partial α β γ) : Prop where
  once : (ms.map Prod.fst).Nodup
  known : ∀ key ∈ ms.map Prod.fst, key ∈ l.keys
  first : Field.Takes m.first (ms.lookup l.first.key) p.1 q.1
  second : Field.Takes m.second (ms.lookup l.second.key) p.2.1 q.2.1
  third : Field.Takes m.third (ms.lookup l.third.key) p.2.2 q.2.2

variable {l m}

/-! ### Arrays -/

lemma place_spelled {δ : Type} {f : Field δ} {means : Tree → δ → Prop} (hf : Reads f.read means)
    {vs : List Tree} {first : Bool} {s : List Char} (hs : SpellsItems first s vs) (n : ℕ) :
    ∃ tail, SpellsItems false tail vs.tail ∧
      ∀ rest, Gives (l.place f n first (s ++ rest)) (f.Holds means vs.head?) (tail ++ rest) := by
  cases hs with
  | close hw =>
    refine ⟨[']'], .close blank_nil, fun rest => ?_⟩
    rw [List.append_assoc, List.singleton_append, place, beforeItem_close hw]
    simp only [List.head?_nil]
    cases hstandard : f.standard with
    | none => exact .error _ fun d hd => by simp [Field.Holds, hstandard] at hd
    | some d => exact (Gives.ok d _).congr fun d' => by simp [Field.Holds, hstandard, eq_comm]
  | @item _ gap s t v vs hgap hv hvs =>
    refine ⟨t, hvs, fun rest => ?_⟩
    rw [List.append_assoc, List.append_assoc, place,
      beforeItem_item hgap (hv.starts.append (t ++ rest))]
    exact hf hv blank_nil (t ++ rest)

lemma ofArray_spelled (h : l.Agrees m) {vs : List Tree} {s : List Char}
    (hs : SpellsItems true s vs) (rest : List Char) :
    Gives (l.ofArray (s ++ rest)) (l.Means m (.array vs)) rest := by
  obtain ⟨s₁, hs₁, hfirst⟩ := place_spelled (l := l) h.first hs 0
  obtain ⟨s₂, hs₂, hsecond⟩ := place_spelled (l := l) h.second hs₁ 1
  obtain ⟨s₃, hs₃, hthird⟩ := place_spelled (l := l) h.third hs₂ 2
  refine ((hfirst rest).bind fun a _ => (hsecond rest).bind fun b _ => (hthird rest).bind
    fun c _ => (closeArray_spelled hs₃ rest).bind fun _ _ => Gives.ok (a, b, c) rest).congr
    fun r => ?_
  have hend : vs.tail.tail.tail = [] ↔ vs.length ≤ 3 := by
    rw [← List.drop_one, ← List.drop_one, ← List.drop_one, List.drop_drop, List.drop_drop,
      List.drop_eq_nil_iff]
  rw [hend, List.head?_eq_getElem?, List.head?_eq_getElem?, List.head?_eq_getElem?,
    List.getElem?_tail, List.getElem?_tail, List.getElem?_tail]
  constructor
  · rintro ⟨a, ha, b, hb, c, hc, -, hlength, rfl⟩
    exact ⟨hlength, ha, hb, hc⟩
  · rintro ⟨hlength, ha, hb, hc⟩
    exact ⟨_, ha, _, hb, _, hc, (), hlength, rfl⟩

/-! ### Objects -/

lemma beforeMember_close {w : List Char} (hw : Blank w) (first : Bool) (rest : List Char) :
    beforeMember first (w ++ '\x7d' :: rest) = .ok (false, '\x7d' :: rest) := by
  rw [beforeMember, skipBlank_mark hw rfl]
  rfl

lemma beforeMember_member {gap : List Char} {first : Bool} (hgap : Gap first gap)
    (rest : List Char) : beforeMember first (gap ++ '\x22' :: rest) = .ok (true, rest) := by
  cases hgap with
  | first hw =>
    rw [beforeMember, skipBlank_mark hw rfl]
    rfl
  | comma hw hw' =>
    rw [beforeMember, List.append_assoc, List.cons_append, skipBlank_mark hw rfl]
    simp [skipBlank_mark hw' (c := '\x22') rfl]

lemma once_spelled {δ : Type} {f : Field δ} {means : Tree → δ → Prop} (hf : Reads f.read means)
    {w w' s : List Char} {v : Tree} (hw : Blank w) (hw' : Blank w') (hs : Spells s v)
    (old : Option δ) (rest : List Char) :
    Gives (once f old (w ++ ':' :: (w' ++ (s ++ rest)))) (Field.Takes means (some v) old) rest := by
  cases old with
  | some d => exact .error _ fun _ h => by cases h.1
  | none =>
    rw [once]
    simp only [colon_spelled hw, ok_bind]
    exact ((hf hs hw' rest).bind fun d _ => Gives.ok (some d) rest).congr fun new => by
      simp [Field.Takes]

lemma gathers_singleton {key : String} {v : Tree} {p q : Partial α β γ} :
    l.Gathers m [(key, v)] p q ↔ key ∈ l.keys ∧
      Field.Takes m.first (if l.first.key = key then some v else none) p.1 q.1 ∧
      Field.Takes m.second (if l.second.key = key then some v else none) p.2.1 q.2.1 ∧
      Field.Takes m.third (if l.third.key = key then some v else none) p.2.2 q.2.2 := by
  have hlookup (k : String) : [(key, v)].lookup k = if k = key then some v else none := by
    rw [List.lookup_cons]
    split <;> simp_all
  constructor
  · rintro ⟨-, hknown, hfirst, hsecond, hthird⟩
    rw [hlookup] at hfirst hsecond hthird
    exact ⟨hknown key (by simp), hfirst, hsecond, hthird⟩
  · rintro ⟨hknown, hfirst, hsecond, hthird⟩
    rw [← hlookup] at hfirst hsecond hthird
    exact ⟨by simp, by simpa using hknown, hfirst, hsecond, hthird⟩

/-- The text of a member behind its key. -/
lemma member_spelled (h : l.Agrees m) {w w' s : List Char} {v : Tree} (hw : Blank w)
    (hw' : Blank w') (hs : Spells s v) (key : String) (p : Partial α β γ) (rest : List Char) :
    Gives (l.member key p (w ++ ':' :: (w' ++ (s ++ rest)))) (l.Gathers m [(key, v)] p) rest := by
  obtain ⟨h₁₂, h₁₃, h₂₃⟩ : l.first.key ≠ l.second.key ∧ l.first.key ≠ l.third.key ∧
      l.second.key ≠ l.third.key := by simpa [keys, and_assoc] using h.distinct
  obtain ⟨a, b, c⟩ := p
  rw [member]
  split_ifs with hfirst hsecond hthird
  · subst key
    refine ((once_spelled h.first hw hw' hs a rest).map (f := fun a => (a, b, c))).congr
      fun q => ?_
    rw [gathers_singleton, if_pos rfl, if_neg h₁₂.symm, if_neg h₁₃.symm]
    constructor
    · rintro ⟨a, ha, rfl⟩
      exact ⟨by simp [keys], ha, rfl, rfl⟩
    · rintro ⟨-, ha, hb, hc⟩
      exact ⟨_, ha, Prod.ext rfl (Prod.ext hb hc)⟩
  · subst key
    refine ((once_spelled h.second hw hw' hs b rest).map (f := fun b => (a, b, c))).congr
      fun q => ?_
    rw [gathers_singleton, if_neg h₁₂, if_pos rfl, if_neg h₂₃.symm]
    constructor
    · rintro ⟨b, hb, rfl⟩
      exact ⟨by simp [keys], rfl, hb, rfl⟩
    · rintro ⟨-, ha, hb, hc⟩
      exact ⟨_, hb, Prod.ext ha (Prod.ext rfl hc)⟩
  · subst key
    refine ((once_spelled h.third hw hw' hs c rest).map (f := fun c => (a, b, c))).congr
      fun q => ?_
    rw [gathers_singleton, if_neg h₁₃, if_neg h₂₃, if_pos rfl]
    constructor
    · rintro ⟨c, hc, rfl⟩
      exact ⟨by simp [keys], rfl, rfl, hc⟩
    · rintro ⟨-, ha, hb, hc⟩
      exact ⟨_, hc, Prod.ext ha (Prod.ext hb rfl)⟩
  · refine .error _ fun q hq => ?_
    have hkey := (gathers_singleton.mp hq).1
    simp [keys, hfirst, hsecond, hthird] at hkey

lemma lookup_eq_none_iff {key : String} {ms : List (String × Tree)} :
    ms.lookup key = none ↔ key ∉ ms.map Prod.fst := by
  rw [List.lookup_eq_none_iff]
  grind

/-- A field takes nothing twice. -/
lemma takes_cons {δ : Type} {means : Tree → δ → Prop} {k key : String} {v : Tree}
    {ms : List (String × Tree)} {old new : Option δ} :
    (∃ mid, Field.Takes means (if k = key then some v else none) old mid ∧
        Field.Takes means (ms.lookup k) mid new) ↔
      (k = key → ms.lookup k = none) ∧ Field.Takes means (((key, v) :: ms).lookup k) old new := by
  by_cases hkey : k = key
  · subst hkey
    rw [if_pos rfl, List.lookup_cons_self]
    cases hlookup : ms.lookup k with
    | none => simp [Field.takes_none]
    | some v' =>
      simp only [Field.Takes, reduceCtorEq, imp_false, not_true_eq_false, false_and, iff_false]
      rintro ⟨mid, ⟨-, d, -, rfl⟩, hmid, -⟩
      cases hmid
  · rw [if_neg hkey, List.lookup_cons, beq_false_of_ne hkey]
    simp [Field.takes_none, hkey]

/-- Members are taken one after the other. -/
lemma gathers_cons {key : String} {v : Tree} {ms : List (String × Tree)} {p q : Partial α β γ} :
    l.Gathers m ((key, v) :: ms) p q ↔
      ∃ mid, l.Gathers m [(key, v)] p mid ∧ l.Gathers m ms mid q := by
  constructor
  · rintro ⟨honce, hknown, hfirst, hsecond, hthird⟩
    rw [List.map_cons, List.nodup_cons] at honce
    rw [List.map_cons, List.forall_mem_cons] at hknown
    have habsent {k : String} (hk : k = key) : ms.lookup k = none :=
      hk ▸ lookup_eq_none_iff.mpr honce.1
    obtain ⟨a, ha, ha'⟩ := takes_cons.mpr ⟨habsent, hfirst⟩
    obtain ⟨b, hb, hb'⟩ := takes_cons.mpr ⟨habsent, hsecond⟩
    obtain ⟨c, hc, hc'⟩ := takes_cons.mpr ⟨habsent, hthird⟩
    exact ⟨(a, b, c), gathers_singleton.mpr ⟨hknown.1, ha, hb, hc⟩,
      honce.2, hknown.2, ha', hb', hc'⟩
  · rintro ⟨mid, hmember, honce, hknown, ha', hb', hc'⟩
    obtain ⟨hkey, ha, hb, hc⟩ := gathers_singleton.mp hmember
    obtain ⟨hfirst, ha⟩ := takes_cons.mp ⟨_, ha, ha'⟩
    obtain ⟨hsecond, hb⟩ := takes_cons.mp ⟨_, hb, hb'⟩
    obtain ⟨hthird, hc⟩ := takes_cons.mp ⟨_, hc, hc'⟩
    -- the field of the key would not have taken a second member
    have hfresh : key ∉ ms.map Prod.fst := by
      rw [← lookup_eq_none_iff]
      simp only [keys, List.mem_cons, List.not_mem_nil, or_false] at hkey
      rcases hkey with rfl | rfl | rfl
      · exact hfirst rfl
      · exact hsecond rfl
      · exact hthird rfl
    exact ⟨List.nodup_cons.mpr ⟨hfresh, honce⟩, List.forall_mem_cons.mpr ⟨hkey, hknown⟩, ha, hb, hc⟩

lemma gathers_nil {p q : Partial α β γ} : l.Gathers m [] p q ↔ q = p := by
  constructor
  · rintro ⟨-, -, ha, hb, hc⟩
    exact Prod.ext ha (Prod.ext hb hc)
  · rintro rfl
    exact ⟨List.nodup_nil, List.forall_mem_nil _, rfl, rfl, rfl⟩

lemma members_more {first : Bool} {s s' rest : List Char} {key : String}
    (h : beforeMember first s = .ok (true, s')) (hkey : string s' = .ok (key, rest)) (bound : ℕ)
    (p : Partial α β γ) :
    l.members (bound + 1) first p s =
      l.member key p rest >>= fun r => l.members bound false r.1 r.2 := by
  rw [members, h]
  simp only [hkey]
  cases l.member key p rest <;> rfl

lemma members_spelled (h : l.Agrees m) {ms : List (String × Tree)} {first : Bool} {s : List Char}
    (hs : SpellsMembers first s ms) (bound : ℕ) (p : Partial α β γ) (rest : List Char) :
    Gives (l.members bound first p (s ++ rest)) (fun q => ms.length < bound ∧ l.Gathers m ms p q)
      ('\x7d' :: rest) := by
  -- along the members; what has been read before the next one is the `p` of the induction
  induction ms generalizing first s bound p with
  | nil =>
    cases bound with
    | zero => exact .error _ fun _ hq => absurd hq.1 (Nat.not_lt_zero _)
    | succ bound =>
      cases hs with
      | close hw =>
        rw [List.append_assoc, List.singleton_append, members, beforeMember_close hw]
        exact (Gives.ok p _).congr fun q => by simp [gathers_nil]
  | cons member ms ih =>
    cases bound with
    | zero => exact .error _ fun _ hq => absurd hq.1 (Nat.not_lt_zero _)
    | succ bound =>
      cases hs with
      | @member _ gap k w w' s t key v _ hgap hk hw hw' hv hms =>
        obtain ⟨tail, htail, hkey⟩ := key_quoted hk gap w w' s t rest
        rw [htail, members_more (beforeMember_member hgap tail) hkey]
        refine ((member_spelled h hw hw' hv key p (t ++ rest)).bind
          fun q _ => ih hms bound q).congr fun q => ?_
        rw [gathers_cons, List.length_cons, Nat.add_lt_add_iff_right]
        constructor
        · rintro ⟨mid, hmember, hb, hq⟩
          exact ⟨hb, mid, hmember, hq⟩
        · rintro ⟨hb, mid, hmember, hq⟩
          exact ⟨mid, hmember, hb, hq⟩

lemma settle_eq_ok_iff {q : Partial α β γ} {r : α × β × γ} :
    l.settle q = .ok r ↔ l.first.settle q.1 = .ok r.1 ∧ l.second.settle q.2.1 = .ok r.2.1 ∧
      l.third.settle q.2.2 = .ok r.2.2 := by
  rw [settle]
  cases l.first.settle q.1 <;> cases l.second.settle q.2.1 <;> cases l.third.settle q.2.2 <;>
    simp [bind, Except.bind, pure, Except.pure, Prod.ext_iff]

/-- Keys that are known and stand once are no more than the keys that there are. -/
lemma Gathers.length_lt {ms : List (String × Tree)} {p q : Partial α β γ} (h : l.Gathers m ms p q) :
    ms.length < 4 := by
  have hle := (List.subperm_of_subset h.once h.known).length_le
  rw [List.length_map] at hle
  exact Nat.lt_succ_of_le hle

lemma means_object_iff {ms : List (String × Tree)} {r : α × β × γ} :
    l.Means m (.object ms) r ↔
      ∃ q, l.Gathers m ms (none, none, none) q ∧ l.settle q = .ok r := by
  simp only [Means, Field.holds_iff, settle_eq_ok_iff]
  constructor
  · rintro ⟨honce, hknown, ⟨a, ha, ha'⟩, ⟨b, hb, hb'⟩, c, hc, hc'⟩
    exact ⟨(a, b, c), ⟨honce, hknown, ha, hb, hc⟩, ha', hb', hc'⟩
  · rintro ⟨q, ⟨honce, hknown, ha, hb, hc⟩, ha', hb', hc'⟩
    exact ⟨honce, hknown, ⟨_, ha, ha'⟩, ⟨_, hb, hb'⟩, _, hc, hc'⟩

lemma ofObject_spelled (h : l.Agrees m) {ms : List (String × Tree)} {s : List Char}
    (hs : SpellsMembers true s ms) (rest : List Char) :
    Gives (l.ofObject (s ++ rest)) (l.Means m (.object ms)) rest := by
  have hsettle (q : Partial α β γ) : Gives
      (l.settle q >>= fun r => Except.ok (r, rest)) (fun r => l.settle q = .ok r) rest := by
    cases l.settle q with
    | error fault => exact .error _ fun _ hr => by cases hr
    | ok r => exact (Gives.ok r rest).congr fun _ => by simp [eq_comm]
  refine ((members_spelled h hs 4 (none, none, none) rest).bind fun q _ => hsettle q).congr
    fun r => ?_
  rw [means_object_iff]
  constructor
  · rintro ⟨q, ⟨-, hq⟩, hr⟩
    exact ⟨q, hq, hr⟩
  · rintro ⟨q, hq, hr⟩
    exact ⟨q, ⟨hq.length_lt, hq⟩, hr⟩

/-- **A record is read from the texts of the values that mean one**, and is the one they mean. -/
lemma reads_record (h : l.Agrees m) : Reads (record l) (l.Means m) := by
  intro s v hs w hw rest
  obtain ⟨c, cs, hcs, hc⟩ := hs.head
  by_cases hbracket : c = '['
  · obtain ⟨vs, rfl⟩ := (hbracket ▸ hc).eq_array
    cases hs with
    | array hvs =>
      rw [record, List.cons_append, skipBlank_mark hw rfl]
      exact ofArray_spelled h hvs rest
  by_cases hbrace : c = '\x7b'
  · obtain ⟨ms, rfl⟩ := (hbrace ▸ hc).eq_object
    cases hs with
    | object hms =>
      rw [record, List.cons_append, skipBlank_mark hw rfl]
      exact ofObject_spelled h hms rest
  · rw [record, hcs, List.cons_append, skipBlank_mark hw hc.starts.1]
    simp only [if_neg hbracket, if_neg hbrace]
    refine .error _ fun r hr => ?_
    cases v with
    | array => exact hbracket hc
    | object => exact hbrace hc
    | _ => exact hr

/-! ### Order, and members too many or too few -/

lemma lookup_eq_some_iff {key : String} {v : Tree} {ms : List (String × Tree)}
    (h : (ms.map Prod.fst).Nodup) : ms.lookup key = some v ↔ (key, v) ∈ ms := by
  induction ms with
  | nil => simp
  | cons member ms ih =>
    obtain ⟨key', v'⟩ := member
    rw [List.map_cons, List.nodup_cons] at h
    by_cases hkey : key = key'
    · subst hkey
      have habsent : (key, v) ∉ ms := fun hv => h.1 (List.mem_map.mpr ⟨_, hv, rfl⟩)
      simp [habsent, eq_comm]
    · rw [List.lookup_cons, beq_false_of_ne hkey]
      simp [ih h.2, hkey]

/-- The order of the members means nothing. -/
lemma means_object_perm {ms ms' : List (String × Tree)} (h : ms.Perm ms') {r : α × β × γ} :
    l.Means m (.object ms) r ↔ l.Means m (.object ms') r := by
  have hkeys := h.map Prod.fst
  simp only [Means, hkeys.nodup_iff, hkeys.mem_iff]
  refine and_congr_right fun honce => and_congr_right fun _ => ?_
  have hlookup (key : String) : ms.lookup key = ms'.lookup key := by
    ext v
    rw [lookup_eq_some_iff (hkeys.nodup_iff.mpr honce), lookup_eq_some_iff honce, h.mem_iff]
  simp only [hlookup]

variable (l) in
/-- The key is that of a field without a standard. -/
def Requires (key : String) : Prop :=
  key = l.first.key ∧ l.first.standard = none ∨ key = l.second.key ∧ l.second.standard = none ∨
    key = l.third.key ∧ l.third.standard = none

lemma Requires.mem {ms : List (String × Tree)} {r : α × β × γ} {key : String}
    (h : l.Requires key) (hr : l.Means m (.object ms) r) : key ∈ ms.map Prod.fst := by
  have hfield {δ : Type} {f : Field δ} {means : Tree → δ → Prop} {d : δ}
      (hd : f.Holds means (ms.lookup f.key) d) (hnone : f.standard = none) :
      f.key ∈ ms.map Prod.fst := by
    by_contra habsent
    rw [lookup_eq_none_iff.mpr habsent, Field.Holds, hnone] at hd
    cases hd
  obtain ⟨-, -, hfirst, hsecond, hthird⟩ := hr
  obtain ⟨rfl, hnone⟩ | ⟨rfl, hnone⟩ | ⟨rfl, hnone⟩ := h
  · exact hfield hfirst hnone
  · exact hfield hsecond hnone
  · exact hfield hthird hnone

end Layout

/-- Members are changed by one that is unknown, that repeats another one, or that is missing. -/
inductive Spoils (keys required : List String) : List (String × Tree) → List (String × Tree) → Prop
  | unknown {before after : List (String × Tree)} {key : String} {v : Tree} : key ∉ keys →
      Spoils keys required (before ++ after) (before ++ (key, v) :: after)
  | repeated {before after : List (String × Tree)} {key : String} {v : Tree} :
      key ∈ (before ++ after).map Prod.fst →
      Spoils keys required (before ++ after) (before ++ (key, v) :: after)
  | missing {before after : List (String × Tree)} {key : String} {v : Tree} : key ∈ required →
      Spoils keys required (before ++ (key, v) :: after) (before ++ after)

/-- **Members that are spoilt mean no record**, provided that no key stood twice before. -/
lemma Layout.not_means_of_spoils {α β γ : Type} {l : Layout α β γ} {m : Sense α β γ}
    {required : List String} {ms ms' : List (String × Tree)} (h : Spoils l.keys required ms ms')
    (hrequired : ∀ key ∈ required, l.Requires key) (honce : (ms.map Prod.fst).Nodup)
    (r : α × β × γ) : ¬ l.Means m (.object ms') r := by
  intro hr
  obtain ⟨honce', hknown', -⟩ := id hr
  have hmiddle {before after : List (String × Tree)} {key : String} {v : Tree}
      (h : ((before ++ (key, v) :: after).map Prod.fst).Nodup) :
      key ∉ (before ++ after).map Prod.fst := by
    rw [(List.perm_middle.map Prod.fst).nodup_iff] at h
    exact (List.nodup_cons.mp h).1
  cases h with
  | unknown hkey => exact hkey (hknown' _ (by simp))
  | repeated hkey => exact hmiddle honce' hkey
  | missing hkey => exact hmiddle honce ((hrequired _ hkey).mem hr)

end FileBroker.Json
