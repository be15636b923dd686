/-
A text spells one value.

A value has many texts, but no text is that of two values. What a text tells is therefore told to
everyone who reads it as JSON, whatever reader that is. The grammar alone decides this: at each
place of a text it is known whether an array or an object goes on, where a string ends, and, from
what may follow a value, where a number ends.

* `Json.Stops`: what may follow a number.
* `Json.IsNumber.append_inj`: numbers end in one place.
* `Json.Tree.Sole`: a value that is all that a text can begin with.
* `Json.Divides`, `Json.Divides.append_inj`: arrays and objects, along their parts.
* `Json.itemFront`, `Json.memberFront`: what stands in front of an item or a member.
* `Json.Tree.sole`, `Json.Tree.Fills.unique`: a text holds at most one value.
-/
import FileBroker.Proofs.Records

namespace FileBroker.Json

/-! ### Numbers -/

/-- The character may stand in a number. -/
def inNumber (c : Char) : Bool := c.isDigit || ['-', '+', '.', 'e', 'E'].contains c

/-- Nothing follows that could go on with a number. -/
def Stops (s : List Char) : Prop := ∀ c ∈ s.head?, inNumber c = false

lemma stops_cons {c : Char} {s : List Char} : Stops (c :: s) ↔ inNumber c = false := by
  simp [Stops]

lemma stops_blank {w : List Char} (hw : Blank w) : Stops w := by
  intro c hc
  have hblank : [' ', '\t', '\n', '\r'].all (fun c => !inNumber c) = true := by decide
  simpa using List.all_eq_true.mp hblank c (hw c (List.mem_of_mem_head? hc))

/-- A mark that stands in no number stops one, with blanks in front of it or without. -/
lemma stops_mark {w : List Char} (hw : Blank w) {c : Char} (hc : inNumber c = false)
    (s : List Char) : Stops (w ++ c :: s) := by
  cases w with
  | nil => exact stops_cons.mpr hc
  | cons d w => exact stops_cons.mpr (stops_cons.mp (stops_blank hw))

lemma AreDigits.inNumber {s : List Char} (h : AreDigits s) : ∀ c ∈ s, inNumber c = true := by
  intro c hc
  rw [Json.inNumber, h.2 c hc, Bool.true_or]

lemma IsNumber.inNumber {s : List Char} (h : IsNumber s) : ∀ c ∈ s, inNumber c = true := by
  obtain ⟨hsign, hwhole, -, hfraction, hexponent⟩ := h
  rw [List.forall_mem_append, List.forall_mem_append, List.forall_mem_append]
  refine ⟨?_, hwhole.inNumber, ?_, ?_⟩
  · rcases hsign with rfl | rfl
    · exact List.forall_mem_nil _
    · exact List.forall_mem_singleton.mpr rfl
  · rcases hfraction with rfl | ⟨ds, hds, rfl⟩
    · exact List.forall_mem_nil _
    · exact List.forall_mem_cons.mpr ⟨rfl, hds.inNumber⟩
  · rcases hexponent with rfl | ⟨e, plus, ds, he, hplus, hds, rfl⟩
    · exact List.forall_mem_nil _
    · have hletter : Json.inNumber e = true := by rcases he with rfl | rfl <;> rfl
      have hmark : ∀ c ∈ plus, Json.inNumber c = true := by
        rcases hplus with rfl | rfl | rfl
        · exact List.forall_mem_nil _
        · exact List.forall_mem_singleton.mpr rfl
        · exact List.forall_mem_singleton.mpr rfl
      exact List.forall_mem_cons.mpr ⟨hletter, List.forall_mem_append.mpr ⟨hmark, hds.inNumber⟩⟩

lemma IsNumber.takeWhile {s r : List Char} (h : IsNumber s) (hr : Stops r) :
    (s ++ r).takeWhile Json.inNumber = s := by
  rw [List.takeWhile_append_of_pos h.inNumber]
  cases r with
  | nil => rw [List.takeWhile_nil, List.append_nil]
  | cons c r =>
    rw [List.takeWhile_cons_of_neg (by rw [stops_cons.mp hr]; decide), List.append_nil]

/-- Numbers end in one place. -/
lemma IsNumber.append_inj {s s' r r' : List Char} (h : IsNumber s) (h' : IsNumber s')
    (hr : Stops r) (hr' : Stops r') (heq : s ++ r = s' ++ r') : s = s' ∧ r = r' := by
  have hs : s = s' := by rw [← h.takeWhile hr, heq, h'.takeWhile hr']
  subst hs
  exact ⟨rfl, List.append_cancel_left heq⟩

/-! ### Values -/

/-- A text that begins with the value begins with no other one, and it is known what follows. -/
def Tree.Sole (v : Tree) : Prop :=
  ∀ ⦃s s' r r' : List Char⦄ ⦃v' : Tree⦄, Spells s v → Spells s' v' → Stops r → Stops r' →
    s ++ r = s' ++ r' → v = v' ∧ r = r'

/-- Values at the front of one text have their first character in common. -/
lemma Spells.begins {s s' r r' : List Char} {v v' : Tree} (h : Spells s v) (h' : Spells s' v')
    (heq : s ++ r = s' ++ r') : ∃ c, v.Begins c ∧ v'.Begins c := by
  obtain ⟨c, cs, rfl, hc⟩ := h.head
  obtain ⟨c', cs', rfl, hc'⟩ := h'.head
  obtain rfl : c = c' := (List.cons.inj heq).1
  exact ⟨c, hc, hc'⟩

lemma Tree.Begins.eq_number {v : Tree} {c : Char} (hc : leads c = true) (h : v.Begins c) :
    ∃ digits, v = .number digits := by
  have hne {d : Char} (hd : leads d = false) : c ≠ d := ne_of_test hc hd
  cases v with
  | number digits => exact ⟨digits, rfl⟩
  | boolean b => cases b <;> exact absurd h (hne rfl)
  | _ => exact absurd h (hne rfl)

lemma Quotes.append_inj {s s' r r' : List Char} {t t' : String} (h : Quotes s t)
    (h' : Quotes s' t') (heq : s ++ r = s' ++ r') : t = t' ∧ r = r' := by
  obtain ⟨tail, htail, hread⟩ := string_quoted h r
  obtain ⟨tail', htail', hread'⟩ := string_quoted h' r'
  obtain rfl : tail = tail' := (List.cons.inj (htail.symm.trans (heq.trans htail'))).2
  exact Prod.mk.inj (Except.ok.inj (hread.symm.trans hread'))

/-! ### Arrays and objects -/

section Parts

variable {κ : Type}

/-- The rest of an array or of an object, whose parts are values with labels: what stands in front
tells whether there is one more part and its label, or else that the closing mark is there. What
follows a part stops a number. -/
def Divides (spells : Bool → List Char → List (κ × Tree) → Prop) (front : Bool → Scan (Option κ))
    (mark : Char) : Prop :=
  ∀ ⦃first : Bool⦄ ⦃s : List Char⦄ ⦃parts : List (κ × Tree)⦄, spells first s parts →
    (parts = [] ∧ ∀ r, front first (s ++ r) = .ok (none, mark :: r)) ∨
      ∃ label v rest t u, parts = (label, v) :: rest ∧ Spells t v ∧ spells false u rest ∧
        ∀ r, Stops (u ++ r) ∧ front first (s ++ r) = .ok (some label, t ++ (u ++ r))

/-- The parts at the front of a text are known if each of them is. -/
lemma Divides.append_inj {spells : Bool → List Char → List (κ × Tree) → Prop}
    {front : Bool → Scan (Option κ)} {mark : Char} (hd : Divides spells front mark)
    {parts parts' : List (κ × Tree)} (hsole : ∀ p ∈ parts, p.2.Sole) {first : Bool}
    {s s' r r' : List Char} (h : spells first s parts) (h' : spells first s' parts')
    (heq : s ++ r = s' ++ r') : parts = parts' ∧ r = r' := by
  induction parts generalizing first s s' parts' with
  | nil =>
    obtain ⟨-, hfront⟩ | ⟨_, _, _, _, _, hparts, -⟩ := hd h
    · have hend := hfront r
      rw [heq] at hend
      obtain ⟨rfl, hfront'⟩ | ⟨_, _, _, _, _, -, -, -, hfront'⟩ := hd h'
      · rw [hfront' r', Except.ok.injEq, Prod.mk.injEq, List.cons.injEq] at hend
        exact ⟨rfl, hend.2.2.symm⟩
      · rw [(hfront' r').2, Except.ok.injEq, Prod.mk.injEq] at hend
        cases hend.1
    · cases hparts
  | cons p parts ih =>
    obtain ⟨hparts, -⟩ | ⟨label, v, rest, t, u, hparts, hv, hrest, hfront⟩ := hd h
    · cases hparts
    · cases hparts
      rw [List.forall_mem_cons] at hsole
      obtain ⟨hstops, hpart⟩ := hfront r
      rw [heq] at hpart
      obtain ⟨rfl, hfront'⟩ | ⟨label', v', rest', t', u', rfl, hv', hrest', hfront'⟩ := hd h'
      · rw [hfront' r', Except.ok.injEq, Prod.mk.injEq] at hpart
        cases hpart.1
      · obtain ⟨hstops', hpart'⟩ := hfront' r'
        rw [hpart', Except.ok.injEq, Prod.mk.injEq, Option.some.injEq] at hpart
        obtain ⟨rfl, htext⟩ := hpart
        obtain ⟨rfl, hbehind⟩ := hsole.1 hv hv' hstops hstops' htext.symm
        obtain ⟨rfl, hr⟩ := ih hsole.2 hrest hrest' hbehind
        exact ⟨rfl, hr⟩

end Parts

/-- Whether there is one more item in an array that is open. -/
def itemFront (first : Bool) : Scan (Option Unit) := fun s =>
  (beforeItem first s).map fun (more, s) => (if more then some () else none, s)

/-- The key of the next member in an object that is open, if there is one, and its value behind. -/
def memberFront (first : Bool) : Scan (Option String) := fun s => do
  let (more, s) ← Layout.beforeMember first s
  if more then
    let (key, s) ← string s
    let (_, s) ← colon s
    return (some key, skipBlank s)
  else return (none, s)

lemma stops_gap {gap : List Char} (h : Gap false gap) (s : List Char) : Stops (gap ++ s) := by
  cases h with
  | comma hw =>
    rw [List.append_assoc]
    exact stops_mark hw rfl _

lemma SpellsItems.stops {s : List Char} {vs : List Tree} (h : SpellsItems false s vs)
    (r : List Char) : Stops (s ++ r) := by
  cases h with
  | close hw =>
    rw [List.append_assoc]
    exact stops_mark hw rfl r
  | item hgap =>
    rw [List.append_assoc]
    exact stops_gap hgap _

lemma SpellsMembers.stops {s : List Char} {ms : List (String × Tree)}
    (h : SpellsMembers false s ms) (r : List Char) : Stops (s ++ r) := by
  cases h with
  | close hw =>
    rw [List.append_assoc]
    exact stops_mark hw rfl r
  | member hgap =>
    rw [List.append_assoc]
    exact stops_gap hgap _

lemma divides_items :
    Divides (fun first s parts => SpellsItems first s (parts.map Prod.snd)) itemFront ']' := by
  intro first s parts h
  rcases parts with _ | ⟨⟨label, v⟩, rest⟩
  · cases h with
    | close hw =>
      refine .inl ⟨rfl, fun r => ?_⟩
      rw [itemFront, List.append_assoc, List.singleton_append, beforeItem_close hw]
      rfl
  · cases h with
    | item hgap hv hrest =>
      refine .inr ⟨label, v, rest, _, _, rfl, hv, hrest, fun r => ⟨hrest.stops r, ?_⟩⟩
      rw [itemFront, List.append_assoc, List.append_assoc,
        beforeItem_item hgap (hv.starts.append _)]
      rfl

lemma divides_members : Divides SpellsMembers memberFront '\x7d' := by
  intro first s parts h
  cases h with
  | close hw =>
    refine .inl ⟨rfl, fun r => ?_⟩
    rw [memberFront, List.append_assoc, List.singleton_append, Layout.beforeMember_close hw]
    rfl
  | @member _ gap k w w' s t key v ms hgap hk hw hw' hv hms =>
    refine .inr ⟨key, v, ms, s, t, rfl, hv, hms, fun r => ⟨hms.stops r, ?_⟩⟩
    obtain ⟨tail, htail, hkey⟩ := key_quoted hk gap w w' s t r
    obtain ⟨c, cs, rfl, hblank, -⟩ := hv.starts
    rw [memberFront, htail, Layout.beforeMember_member hgap]
    simp only [ok_bind, if_true, hkey, colon_spelled hw, List.cons_append,
      skipBlank_mark hw' hblank]
    rfl

lemma SpellsItems.append_inj {vs vs' : List Tree} (hsole : ∀ v ∈ vs, v.Sole)
    {s s' r r' : List Char} (h : SpellsItems true s vs) (h' : SpellsItems true s' vs')
    (heq : s ++ r = s' ++ r') : vs = vs' ∧ r = r' := by
  have hunlabelled (vs : List Tree) : (vs.map fun v => ((), v)).map Prod.snd = vs := by simp
  have hparts : ∀ p ∈ vs.map fun v => ((), v), p.2.Sole := by simpa using hsole
  rw [← hunlabelled vs] at h
  rw [← hunlabelled vs'] at h'
  obtain ⟨hvs, hr⟩ := divides_items.append_inj hparts h h' heq
  exact ⟨by rw [← hunlabelled vs, hvs, hunlabelled vs'], hr⟩

/-! ### Whole texts -/

namespace Tree

/-- A value that is a single word is known by its first letter. -/
lemma sole_of_word {v : Tree} (word : List Char) (hword : ∀ s, Spells s v → s = word)
    (hletter : ∀ c v', v.Begins c → v'.Begins c → v' = v) : v.Sole := by
  intro s s' r r' v' h h' _ _ heq
  obtain ⟨c, hc, hc'⟩ := h.begins h' heq
  obtain rfl := hletter c v' hc hc'
  rw [hword s h, hword s' h'] at heq
  exact ⟨rfl, List.append_cancel_left heq⟩

/-- Every value is the only one of its texts. -/
lemma sole : (v : Tree) → v.Sole
  | null =>
    sole_of_word nullText (fun s h => by cases h; rfl) fun _ _ hc hc' => (hc ▸ hc').eq_null
  | boolean b =>
    sole_of_word (booleanText b) (fun s h => by cases h; rfl) fun _ _ hc hc' =>
      (hc ▸ hc').eq_boolean
  | number digits => by
    intro s s' r r' v' h h' hr hr' heq
    obtain ⟨c, hc, hc'⟩ := h.begins h' heq
    obtain ⟨digits', rfl⟩ := hc'.eq_number hc
    cases h with
    | number hs =>
      cases h' with
      | number hs' =>
        obtain ⟨rfl, hbehind⟩ := hs.append_inj hs' hr hr' heq
        exact ⟨rfl, hbehind⟩
  | string text => by
    intro s s' r r' v' h h' _ _ heq
    obtain ⟨c, hc, hc'⟩ := h.begins h' heq
    obtain ⟨text', rfl⟩ := (hc ▸ hc').eq_string
    cases h with
    | string hs =>
      cases h' with
      | string hs' =>
        obtain ⟨rfl, hbehind⟩ := hs.append_inj hs' heq
        exact ⟨rfl, hbehind⟩
  | array vs => by
    intro s s' r r' v' h h' _ _ heq
    obtain ⟨c, hc, hc'⟩ := h.begins h' heq
    obtain ⟨vs', rfl⟩ := (hc ▸ hc').eq_array
    cases h with
    | array hs =>
      cases h' with
      | array hs' =>
        obtain ⟨rfl, hbehind⟩ :=
          hs.append_inj (fun v _ => sole v) hs' (List.cons.inj heq).2
        exact ⟨rfl, hbehind⟩
  | object ms => by
    intro s s' r r' v' h h' _ _ heq
    obtain ⟨c, hc, hc'⟩ := h.begins h' heq
    obtain ⟨ms', rfl⟩ := (hc ▸ hc').eq_object
    cases h with
    | object hs =>
      cases h' with
      | object hs' =>
        obtain ⟨rfl, hbehind⟩ :=
          divides_members.append_inj (fun m _ => sole m.2) hs hs' (List.cons.inj heq).2
        exact ⟨rfl, hbehind⟩
decreasing_by
  · decreasing_tactic
  · rw [object.sizeOf_spec]; exact sizeOf_snd_lt ‹_›

/-- **A text holds at most one value.** -/
lemma Fills.unique {v v' : Tree} {text : String} (h : v.Fills text) (h' : v'.Fills text) :
    v = v' := by
  obtain ⟨w, s, r, hw, hs, hr, htext⟩ := h
  obtain ⟨w', s', r', hw', hs', hr', htext'⟩ := h'
  have hskip {w s r : List Char} {v : Tree} (hw : Blank w) (hs : Spells s v) :
      skipBlank (w ++ (s ++ r)) = s ++ r := by
    obtain ⟨c, cs, rfl, hblank, -⟩ := hs.starts
    exact skipBlank_mark hw hblank _
  have heq : s ++ r = s' ++ r' := by
    rw [← hskip hw hs, ← htext, htext', hskip hw' hs']
  exact (v.sole hs hs' (stops_blank hr) (stops_blank hr') heq).1

end Tree

end FileBroker.Json
