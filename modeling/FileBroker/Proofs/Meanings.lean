/-
What a JSON value means as a value of a given shape.

A reader sees a text, and what it gives should depend on the value that the text spells and on
nothing else: not on blanks, escapes or the order of members, and not on what follows. Each shape
therefore gets a meaning on values, and its reader takes exactly the values with a meaning off the
text that spells them.

* `Json.Gives`: what a scan gives at one place of a text.
* `Json.Reads`: a reader agrees with a meaning, on every spelling of every value.
* `Json.reads_text`, `Json.reads_boolean`, `Json.reads_variant`, `Json.reads_sequence`: the readers
  of scalars, variants and arrays.
* `Json.Reads.document`: the texts that hold a value are read as what the value means.
-/
import FileBroker.Proofs.Spellings

namespace FileBroker.Json

/-! ### What a scan gives -/

section Gives

variable {α β : Type} {result : Except Fault (α × List Char)} {means means' : α → Prop}
  {rest : List Char}

/-- The scan succeeds with the values that are meant and no others, and leaves that rest. -/
def Gives (result : Except Fault (α × List Char)) (means : α → Prop) (rest : List Char) : Prop :=
  ∀ a rest', result = .ok (a, rest') ↔ means a ∧ rest' = rest

namespace Gives

lemma ok (a : α) (rest : List Char) : Gives (.ok (a, rest)) (· = a) rest := by
  intro a' rest'
  rw [Except.ok.injEq, Prod.mk.injEq, eq_comm, @eq_comm _ rest]

lemma error (fault : Fault) (h : ∀ a, ¬ means a) : Gives (.error fault) means rest := by
  intro a rest'
  constructor
  · intro hresult
    cases hresult
  · rintro ⟨hmeans, -⟩
    exact (h a hmeans).elim

lemma not_means {fault : Fault} (h : Gives (.error fault) means rest) (a : α) : ¬ means a := by
  intro ha
  cases (h a rest).mpr ⟨ha, rfl⟩

lemma congr (h : Gives result means rest) (hiff : ∀ a, means a ↔ means' a) :
    Gives result means' rest := fun a rest' => (h a rest').trans (and_congr_left' (hiff a))

/-- A scan that goes on where another one has stopped. -/
lemma bind {k : α × List Char → Except Fault (β × List Char)} {meant : α → β → Prop}
    {rest' : List Char} (h : Gives result means rest)
    (hk : ∀ a, means a → Gives (k (a, rest)) (meant a) rest') :
    Gives (result >>= k) (fun b => ∃ a, means a ∧ meant a b) rest' := by
  cases result with
  | error fault =>
    refine error fault ?_
    rintro b ⟨a, ha, -⟩
    exact h.not_means a ha
  | ok r =>
    obtain ⟨a, s⟩ := r
    obtain ⟨ha, rfl⟩ := (h a s).mp rfl
    refine (hk a ha).congr fun b => ⟨fun hb => ⟨a, ha, hb⟩, ?_⟩
    rintro ⟨a', ha', hb⟩
    cases (h a' s).mpr ⟨ha', rfl⟩
    exact hb

/-- A scan whose value is turned into another one. -/
lemma map {f : α → β} (h : Gives result means rest) :
    Gives (result.map fun (a, s) => (f a, s)) (fun b => ∃ a, means a ∧ b = f a) rest := by
  cases result with
  | error fault =>
    refine error fault ?_
    rintro b ⟨a, ha, -⟩
    exact h.not_means a ha
  | ok r =>
    exact h.bind (k := fun r => .ok (f r.1, r.2)) fun a _ => ok (f a) rest

end Gives

/-- The reader takes a value off the text exactly if it means something, and then all of it,
whatever blanks stand in front and whatever follows. -/
def Reads (read : Scan α) (means : Tree → α → Prop) : Prop :=
  ∀ ⦃s : List Char⦄ ⦃v : Tree⦄, Spells s v → ∀ ⦃w : List Char⦄, Blank w → ∀ rest : List Char,
    Gives (read (w ++ (s ++ rest))) (means v) rest

lemma Reads.map {read : Scan α} {means : Tree → α → Prop} {meant : Tree → β → Prop} {f : α → β}
    (h : Reads read means) (hiff : ∀ v b, (∃ a, means v a ∧ b = f a) ↔ meant v b) :
    Reads (fun s => (read s).map fun (a, rest) => (f a, rest)) meant :=
  fun _ v hs _ hw rest => (h hs hw rest).map.congr (hiff v)

end Gives

/-! ### Blanks and first characters -/

lemma skipBlank_append {w : List Char} (hw : Blank w) (s : List Char) :
    skipBlank (w ++ s) = skipBlank s := by
  refine List.dropWhile_append_of_pos fun c hc => ?_
  have hblank : [' ', '\t', '\n', '\r'].all isBlank = true := rfl
  exact List.all_eq_true.mp hblank c (hw c hc)

lemma skipBlank_mark {w : List Char} (hw : Blank w) {c : Char} (hc : isBlank c = false)
    (s : List Char) : skipBlank (w ++ c :: s) = c :: s := by
  rw [skipBlank_append hw, skipBlank_of hc]

/-- The character that the spellings of a value begin with. -/
def Tree.Begins : Tree → Char → Prop
  | null, c => c = 'n'
  | boolean b, c => c = if b then 't' else 'f'
  | number _, c => leads c = true
  | string _, c => c = '\x22'
  | array _, c => c = '['
  | object _, c => c = '\x7b'

lemma IsNumber.head {s : List Char} (h : IsNumber s) : ∃ c cs, s = c :: cs ∧ leads c = true := by
  obtain ⟨hsign, ⟨hne, hdigits⟩, -, -, -⟩ := h
  rcases hsign with rfl | rfl
  · obtain ⟨c, cs, rfl⟩ := List.exists_cons_of_ne_nil hne
    exact ⟨c, _, rfl, by rw [leads, isDigit_eq, hdigits c List.mem_cons_self, Bool.or_true]⟩
  · exact ⟨'-', _, rfl, rfl⟩

lemma Spells.head {s : List Char} {v : Tree} (h : Spells s v) :
    ∃ c cs, s = c :: cs ∧ v.Begins c := by
  cases h with
  | null => exact ⟨'n', _, rfl, rfl⟩
  | boolean b => cases b <;> exact ⟨_, _, rfl, rfl⟩
  | number h => exact h.head
  | string h => obtain ⟨-⟩ := h; exact ⟨'\x22', _, rfl, rfl⟩
  | array => exact ⟨'[', _, rfl, rfl⟩
  | object => exact ⟨'\x7b', _, rfl, rfl⟩

lemma Tree.Begins.starts {v : Tree} {c : Char} (h : v.Begins c) : isBlank c = false ∧ c ≠ ']' := by
  cases v with
  | number => exact ⟨isBlank_of_leads h, ne_of_test h rfl⟩
  | boolean b => cases b <;> (obtain rfl := h; decide)
  | _ => obtain rfl := h; decide

lemma Spells.starts {s : List Char} {v : Tree} (h : Spells s v) : Starts s := by
  obtain ⟨c, cs, rfl, hc⟩ := h.head
  exact ⟨c, cs, rfl, hc.starts⟩

namespace Tree.Begins

variable {v : Tree}

lemma eq_null (h : v.Begins 'n') : v = .null := by
  cases v with
  | null => rfl
  | boolean b => cases b <;> simp [Begins] at h
  | _ => simp [Begins, leads, isDigit] at h

lemma eq_boolean {b : Bool} (h : v.Begins (if b then 't' else 'f')) : v = .boolean b := by
  cases v with
  | boolean b' => cases b <;> cases b' <;> simp [Begins] at h ⊢
  | _ => cases b <;> simp [Begins, leads, isDigit] at h

lemma eq_string (h : v.Begins '\x22') : ∃ s, v = .string s := by
  cases v with
  | string s => exact ⟨s, rfl⟩
  | boolean b => cases b <;> simp [Begins] at h
  | _ => simp [Begins, leads, isDigit] at h

lemma eq_array (h : v.Begins '[') : ∃ vs, v = .array vs := by
  cases v with
  | array vs => exact ⟨vs, rfl⟩
  | boolean b => cases b <;> simp [Begins] at h
  | _ => simp [Begins, leads, isDigit] at h

lemma eq_object (h : v.Begins '\x7b') : ∃ ms, v = .object ms := by
  cases v with
  | object ms => exact ⟨ms, rfl⟩
  | boolean b => cases b <;> simp [Begins] at h
  | _ => simp [Begins, leads, isDigit] at h

end Tree.Begins

/-! ### Scalars -/

lemma reads_unit : Reads unit fun v _ => v = .null := by
  intro s v hs w hw rest
  obtain ⟨c, cs, hcs, hc⟩ := hs.head
  by_cases hn : c = 'n'
  · obtain rfl := (hn ▸ hc).eq_null
    cases hs
    rw [unit, nullText, List.cons_append, skipBlank_mark hw rfl]
    exact (Gives.ok () rest).congr fun _ => by simp
  · rw [unit, hcs, List.cons_append, skipBlank_mark hw hc.starts.1]
    simp only [if_neg hn]
    exact .error _ fun _ h => hn (by subst h; exact hc)

lemma reads_text : Reads text fun v s => v = .string s := by
  intro s v hs w hw rest
  obtain ⟨c, cs, hcs, hc⟩ := hs.head
  by_cases hmark : c = '\x22'
  · obtain ⟨t, rfl⟩ := (hmark ▸ hc).eq_string
    cases hs with
    | string hq =>
      obtain ⟨tail, htail, hread⟩ := string_quoted hq rest
      rw [text, htail, skipBlank_mark hw rfl]
      simp only [if_true, hread]
      exact (Gives.ok t rest).congr fun _ => by simp [eq_comm]
  · rw [text, hcs, List.cons_append, skipBlank_mark hw hc.starts.1]
    simp only [if_neg hmark]
    exact .error _ fun _ h => hmark (by subst h; exact hc)

lemma reads_boolean : Reads boolean fun v b => v = .boolean b := by
  intro s v hs w hw rest
  obtain ⟨c, cs, hcs, hc⟩ := hs.head
  by_cases hletter : ∃ b : Bool, c = if b then 't' else 'f'
  · obtain ⟨b, rfl⟩ := hletter
    obtain rfl := hc.eq_boolean
    cases hs
    have hb : boolean (w ++ (booleanText b ++ rest)) = .ok (b, rest) := by
      rw [boolean, skipBlank_append hw]
      cases b <;> rfl
    rw [hb]
    exact (Gives.ok b rest).congr fun _ => by simp [eq_comm]
  · rw [boolean, hcs, List.cons_append, skipBlank_mark hw hc.starts.1]
    have ht : c ≠ 't' := fun h => hletter ⟨true, h⟩
    have hf : c ≠ 'f' := fun h => hletter ⟨false, h⟩
    simp only [if_neg ht, if_neg hf]
    exact .error _ fun b h => hletter ⟨b, by subst h; exact hc⟩

/-! ### Arrays -/

lemma beforeItem_close {w : List Char} (hw : Blank w) (first : Bool) (rest : List Char) :
    beforeItem first (w ++ ']' :: rest) = .ok (false, ']' :: rest) := by
  rw [beforeItem, skipBlank_mark hw rfl]
  rfl

lemma beforeItem_item {gap s : List Char} {first : Bool} (hgap : Gap first gap) (hs : Starts s) :
    beforeItem first (gap ++ s) = .ok (true, s) := by
  obtain ⟨c, cs, rfl, hblank, hclose⟩ := hs
  cases hgap with
  | first hw =>
    rw [beforeItem, skipBlank_mark hw hblank]
    simp only [if_neg hclose, if_true]
  | comma hw hw' =>
    rw [beforeItem, List.append_assoc, List.cons_append, skipBlank_mark hw rfl]
    simp [skipBlank_mark hw' hblank, hclose]

lemma closeArray_spelled {s : List Char} {vs : List Tree} (hs : SpellsItems false s vs)
    (rest : List Char) : Gives (closeArray (s ++ rest)) (fun _ => vs = []) rest := by
  cases hs with
  | close hw =>
    rw [closeArray, List.append_assoc, List.singleton_append, skipBlank_mark hw rfl]
    exact (Gives.ok () rest).congr fun _ => by simp
  | item hgap =>
    cases hgap with
    | comma hw =>
      rw [closeArray, List.append_assoc, List.append_assoc, List.cons_append,
        skipBlank_mark hw rfl]
      exact .error _ fun _ h => by cases h

/-- There are at most as many items as characters. -/
lemma SpellsItems.length_le {vs : List Tree} {first : Bool} {s : List Char}
    (h : SpellsItems first s vs) : vs.length ≤ s.length := by
  induction vs generalizing first s with
  | nil => exact Nat.zero_le _
  | cons v vs ih =>
    cases h with
    | item hgap hv hvs =>
      obtain ⟨c, cs, rfl, -⟩ := hv.head
      have := ih hvs
      simp only [List.length_cons, List.length_append]
      omega

section Sequence

variable {α : Type} {item : Scan α} {means : Tree → α → Prop}

lemma itemsOf_more {first : Bool} {s rest : List Char} (h : beforeItem first s = .ok (true, rest))
    (bound : ℕ) :
    itemsOf item (bound + 1) first s = item rest >>= fun r =>
      (itemsOf item bound false r.2).map fun (as, end') => (r.1 :: as, end') := by
  rw [itemsOf, h]
  simp only
  cases item rest <;> rfl

lemma itemsOf_spelled (hitem : Reads item means) {vs : List Tree} {first : Bool} {s : List Char}
    (hs : SpellsItems first s vs) {bound : ℕ} (hb : vs.length < bound) (rest : List Char) :
    Gives (itemsOf item bound first (s ++ rest)) (List.Forall₂ means vs) rest := by
  induction vs generalizing first s bound with
  | nil =>
    obtain ⟨bound, rfl⟩ := Nat.exists_eq_add_one_of_ne_zero (Nat.ne_zero_of_lt hb)
    cases hs with
    | close hw =>
      rw [List.append_assoc, List.singleton_append, itemsOf, beforeItem_close hw]
      exact (Gives.ok [] rest).congr fun _ => by simp
  | cons v vs ih =>
    obtain ⟨bound, rfl⟩ := Nat.exists_eq_add_one_of_ne_zero (Nat.ne_zero_of_lt hb)
    cases hs with
    | @item _ gap s t _ _ hgap hv hvs =>
      have hread := hitem hv blank_nil (t ++ rest)
      have hrest := ih hvs (Nat.lt_of_succ_lt_succ hb)
      rw [List.append_assoc, List.append_assoc,
        itemsOf_more (beforeItem_item hgap (hv.starts.append (t ++ rest)))]
      refine (hread.bind fun a _ => hrest.map).congr fun as => ?_
      rw [List.forall₂_cons_left_iff]
      simp only [exists_and_left]

/-- The values of an array, each by its meaning. -/
lemma reads_sequence (hitem : Reads item means) :
    Reads (sequence item) fun v as => ∃ vs, v = .array vs ∧ List.Forall₂ means vs as := by
  intro s v hs w hw rest
  obtain ⟨c, cs, hcs, hc⟩ := hs.head
  by_cases hbracket : c = '['
  · obtain ⟨vs, rfl⟩ := (hbracket ▸ hc).eq_array
    cases hs with
    | @array s _ hvs =>
      rw [sequence, List.cons_append, skipBlank_mark hw rfl]
      have hb : vs.length < (s ++ rest).length + 1 := by
        have := hvs.length_le
        rw [List.length_append]
        omega
      exact (itemsOf_spelled hitem hvs hb rest).congr fun as => by simp
  · rw [sequence, hcs, List.cons_append, skipBlank_mark hw hc.starts.1]
    simp only [if_neg hbracket]
    refine .error _ ?_
    rintro as ⟨vs, rfl, -⟩
    exact hbracket hc

end Sequence

/-! ### Variants -/

lemma ok_bind {α β : Type} (a : α) (next : α → Except Fault β) :
    (Except.ok a >>= next) = next a := rfl

lemma colon_spelled {w : List Char} (hw : Blank w) (rest : List Char) :
    colon (w ++ ':' :: rest) = .ok ((), rest) := by
  rw [colon, skipBlank_mark hw rfl]
  rfl

/-- In front of a member stands its key, whose mark and characters are taken off. -/
lemma key_quoted {k : List Char} {key : String} (hk : Quotes k key)
    (gap w w' s t rest : List Char) :
    ∃ tail, gap ++ (k ++ (w ++ ':' :: (w' ++ (s ++ t)))) ++ rest = gap ++ '\x22' :: tail ∧
      string tail = .ok (key, w ++ ':' :: (w' ++ (s ++ (t ++ rest)))) := by
  obtain ⟨tail, htail, hkey⟩ := string_quoted hk (w ++ ':' :: (w' ++ (s ++ (t ++ rest))))
  refine ⟨tail, ?_, hkey⟩
  rw [← htail]
  simp only [List.append_assoc, List.cons_append]

section Variant

variable {α : Type} {variants : List (String × α)}

/-- The value is the name of a variant, alone or as the only key of an object. -/
def Names (variants : List (String × α)) (v : Tree) (a : α) : Prop :=
  ∃ name, (v = .string name ∨ v = .object [(name, .null)]) ∧ variants.lookup name = some a

lemma named_bind {β : Type} {next : α → Except Fault (β × List Char)} {means : α → β → Prop}
    {rest : List Char} (name : String) (h : ∀ a, Gives (next a) (means a) rest) :
    Gives (named variants name >>= next)
      (fun b => ∃ a, variants.lookup name = some a ∧ means a b) rest := by
  rw [named]
  cases variants.lookup name with
  | none =>
    refine .error _ ?_
    rintro b ⟨a, ha, -⟩
    cases ha
  | some a => exact (h a).congr fun b => by simp

/-- An object ends with its closing brace if no member is left, and goes on otherwise. -/
lemma closing_spelled {ms : List (String × Tree)} {t : List Char} (ht : SpellsMembers false t ms)
    (rest : List Char) :
    ∃ d tail, skipBlank (t ++ rest) = d :: tail ∧
      (d = '\x7d' ∧ ms = [] ∧ tail = rest ∨ d ≠ '\x7d' ∧ ms ≠ []) := by
  cases ht with
  | close hw =>
    rw [List.append_assoc, List.singleton_append, skipBlank_mark hw rfl]
    exact ⟨_, _, rfl, .inl ⟨rfl, rfl, rfl⟩⟩
  | member hgap =>
    cases hgap with
    | comma hw =>
      rw [List.append_assoc, List.append_assoc, List.cons_append, skipBlank_mark hw rfl]
      exact ⟨_, _, rfl, .inr ⟨by decide, List.cons_ne_nil _ _⟩⟩

lemma variantObject_spelled {ms : List (String × Tree)} {s : List Char}
    (hs : SpellsMembers true s ms) (rest : List Char) :
    Gives (variantObject variants (s ++ rest))
      (fun a => ∃ name, ms = [(name, .null)] ∧ variants.lookup name = some a) rest := by
  cases hs with
  | close hw =>
    rw [variantObject, List.append_assoc, List.singleton_append, skipBlank_mark hw rfl]
    refine .error _ ?_
    rintro a ⟨name, h, -⟩
    cases h
  | @member _ gap k w w' s t key v ms hgap hk hw hw' hv hms =>
    cases hgap with
    | first hgap =>
      obtain ⟨tail, htail, hkey⟩ := key_quoted hk gap w w' s t rest
      rw [htail, variantObject, skipBlank_mark hgap rfl]
      simp only [ne_eq, not_true_eq_false, if_false, hkey, ok_bind, colon_spelled hw]
      have hunit := reads_unit hv hw' (t ++ rest)
      refine (named_bind key fun a => hunit.bind fun _ _ =>
        (?_ : Gives _ (fun b => ms = [] ∧ b = a) rest)).congr fun a => ⟨?_, ?_⟩
      · obtain ⟨d, tail, hskip, ⟨rfl, rfl, rfl⟩ | ⟨hd, hms⟩⟩ := closing_spelled hms rest
        · rw [hskip]
          exact (Gives.ok a tail).congr fun _ => by simp
        · rw [hskip]
          simp only [if_neg hd]
          exact .error _ fun _ h => hms h.1
      · rintro ⟨b, hb, -, rfl, rfl, rfl⟩
        exact ⟨key, rfl, hb⟩
      · rintro ⟨name, hname, hlookup⟩
        cases hname
        exact ⟨a, hlookup, (), rfl, rfl, rfl⟩

lemma reads_variant : Reads (variant variants) (Names variants) := by
  intro s v hs w hw rest
  obtain ⟨c, cs, hcs, hc⟩ := hs.head
  by_cases hmark : c = '\x22'
  · obtain ⟨t, rfl⟩ := (hmark ▸ hc).eq_string
    cases hs with
    | string hq =>
      obtain ⟨tail, htail, hread⟩ := string_quoted hq rest
      rw [variant, htail, skipBlank_mark hw rfl]
      simp only [if_true, hread, ok_bind]
      exact (named_bind t fun a => Gives.ok a rest).congr fun a => by simp [Names]
  by_cases hbrace : c = '\x7b'
  · obtain ⟨ms, rfl⟩ := (hbrace ▸ hc).eq_object
    cases hs with
    | object hms =>
      rw [variant, List.cons_append, skipBlank_mark hw rfl]
      exact (variantObject_spelled hms rest).congr fun a => by simp [Names]
  · rw [variant, hcs, List.cons_append, skipBlank_mark hw hc.starts.1]
    simp only [if_neg hmark, if_neg hbrace]
    refine .error _ ?_
    rintro a ⟨name, rfl | rfl, -⟩
    · exact hmark hc
    · exact hbrace hc

end Variant

/-! ### Whole texts -/

/-- A text that holds a value and nothing else is read as what the value means, and is a fault if
that is nothing. -/
lemma Reads.document {α : Type} {read : Scan α} {means : Tree → α → Prop} (h : Reads read means)
    {v : Tree} {text : String} (hv : v.Fills text) {a : α} :
    document read text.toList = .ok a ↔ means v a := by
  obtain ⟨w, s, w', hw, hs, hw', htext⟩ := hv
  have hread := h hs hw w'
  have hblank : skipBlank w' = [] := by
    rw [← List.append_nil w', skipBlank_append hw']
    rfl
  rw [Json.document, htext]
  generalize read (w ++ (s ++ w')) = result at hread ⊢
  cases result with
  | error fault => exact iff_of_false (by simp) (hread.not_means a)
  | ok r =>
    obtain ⟨b, rest⟩ := r
    obtain ⟨hb, rfl⟩ := (hread b rest).mp rfl
    simp only [hblank, if_true, Except.ok.injEq]
    constructor
    · rintro rfl
      exact hb
    · intro ha
      cases (hread a rest).mpr ⟨ha, rfl⟩
      rfl

end FileBroker.Json
