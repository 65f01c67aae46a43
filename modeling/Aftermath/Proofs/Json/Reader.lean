import Aftermath.Proofs.Json.Scanner

/-! The reader and the grammar agree. What the grammar allows is read as the value it stands for,
whatever nesting it has, and nothing else is read. -/

namespace Aftermath.Json

variable {strict : Bool} {c : Char} {cs ds r : List Char} {p : Part} {v : Json} {fuel : Nat}

theorem literal_ok_iff {ws : List Char} : literal ws cs = .ok r ↔ cs = ws ++ r := by
  induction ws generalizing cs with
  | nil => simp [literal]
  | cons w ws ih =>
    cases cs with
    | nil => simp [literal]
    | cons c cs =>
      unfold literal
      split
      · next he => simp [ih, he]
      · next hne => simp [Ne.symm hne]

theorem Spaced.trans {a b : List Char} (h : Spaced a b) (h' : Spaced b r) : Spaced a r := by
  obtain ⟨w, rfl, hw⟩ := h
  obtain ⟨u, rfl, hu⟩ := h'
  exact ⟨w ++ u, by rw [List.append_assoc], by rw [List.all_append, hw, hu]; rfl⟩

/-! ### Shapes -/

theorem digit_not_space (hc : c.isDigit) : isSpace c = false ∧ c ≠ ']' ∧ c ≠ '"' ∧ c ≠ '[' ∧
    c ≠ '\x7b' ∧ c ≠ 'n' ∧ c ≠ 't' ∧ c ≠ 'f' := by
  refine ⟨?_, ?_, ?_, ?_, ?_, ?_, ?_, ?_⟩
  · cases hs : isSpace c with
    | false => rfl
    | true =>
      simp only [isSpace, Bool.or_eq_true, decide_eq_true_eq] at hs
      rcases hs with ((rfl | rfl) | rfl) | rfl <;> cases hc
  all_goals
    rintro rfl
    cases hc

/-- A value begins with a character of its own. -/
theorem Stands.head (h : Stands strict cs (.value v) r) :
    ∃ c cs', cs = c :: cs' ∧ isSpace c = false ∧ c ≠ ']' := by
  cases h with
  | number hn =>
    obtain ⟨c, cs', rfl, rfl | hc⟩ := hn.head
    · exact ⟨_, _, rfl, rfl, by decide⟩
    · exact ⟨_, _, rfl, (digit_not_space hc).1, (digit_not_space hc).2.1⟩
  | _ => exact ⟨_, _, rfl, rfl, by decide⟩

theorem Spells.length_lt {s : List Char} (h : Spells strict cs s r) : r.length < cs.length := by
  induction h with
  | close => simp
  | raw _ _ _ _ ih | short _ _ ih | unit _ _ _ ih | pair _ _ _ _ _ _ ih =>
    simp only [List.length_cons]
    omega

theorem Digits.length_lt {ds : List Char} (h : Digits cs ds r) : r.length < cs.length := by
  obtain ⟨rfl, hne, -⟩ := h
  have := List.length_pos_iff.2 hne
  rw [List.length_append]
  omega

theorem Numbers.length_lt {n : Numeral} (h : Numbers cs n r) : r.length < cs.length := by
  have hf : ∀ {a b : List Char} {f : Option (List Char)}, Fraction a f b → b.length ≤ a.length := by
    intro a b f h
    cases h with
    | absent => exact Nat.le_refl _
    | present h => exact Nat.le_succ_of_le (Nat.le_of_lt h.length_lt)
  have he : ∀ {a b : List Char} {e : Option (Bool × List Char)}, Exponent a e b →
      b.length ≤ a.length := by
    intro a b e h
    cases h with
    | absent => exact Nat.le_refl _
    | unsigned _ h | positive _ h | negative _ h =>
      have := h.length_lt
      simp only [List.length_cons]
      omega
  cases h with
  | positive hw hf' he' =>
    have := hw.toDigits.length_lt
    have := hf hf'
    have := he he'
    omega
  | negative hw hf' he' =>
    have := hw.toDigits.length_lt
    have := hf hf'
    have := he he'
    rw [List.length_cons]
    omega

/-- Every part of a text takes some of it. -/
theorem Stands.length_lt (h : Stands strict cs p r) : r.length < cs.length := by
  induction h with
  | number hn => exact hn.length_lt
  | text hs => exact Nat.lt_succ_of_lt hs.length_lt
  | noItems hs | noMembers hs =>
    have := hs.length_le
    simp only [List.length_cons] at this ⊢
    omega
  | array _ ih | object _ ih => exact Nat.lt_succ_of_lt ih
  | lastItem h₁ _ h₂ ih =>
    have := h₁.length_le
    have := h₂.length_le
    simp only [List.length_cons] at this
    omega
  | item h₁ _ h₂ _ ih ih' =>
    have := h₁.length_le
    have := h₂.length_le
    simp only [List.length_cons] at this
    omega
  | lastMember h₁ hs h₂ h₃ _ h₄ ih =>
    have := h₁.length_le
    have := hs.length_lt
    have := h₂.length_le
    have := h₃.length_le
    have := h₄.length_le
    simp only [List.length_cons] at *
    omega
  | member h₁ hs h₂ h₃ _ h₄ _ ih ih' =>
    have := h₁.length_le
    have := hs.length_lt
    have := h₂.length_le
    have := h₃.length_le
    have := h₄.length_le
    simp only [List.length_cons] at *
    omega
  | _ => simp only [List.length_cons]; omega

/-- A number ends before white space. -/
theorem Spaced.ends (h : Spaced cs r) (hr : Ends r) : Ends cs := by
  obtain ⟨w, rfl, hw⟩ := h
  cases w with
  | nil => exact hr
  | cons d w =>
    rintro e ⟨⟩
    have hd := (Bool.and_eq_true_iff.1 hw).1
    simp only [isSpace, Bool.or_eq_true, decide_eq_true_eq] at hd
    rcases hd with ((rfl | rfl) | rfl) | rfl <;> decide

theorem ends_nil : Ends [] := by rintro c ⟨⟩

theorem ends_separator (hc : c = ',' ∨ c = ']' ∨ c = '\x7d') : Ends (c :: r) := by
  rintro d ⟨⟩
  rcases hc with rfl | rfl | rfl <;> decide

/-! ### What the grammar allows is read -/

theorem value_of_text (hs : skipSpace ds = '"' :: cs) :
    value strict (fuel + 1) ds = (text strict cs).map fun (s, r) => (.str (String.ofList s), r) := by
  simp only [value, hs]

theorem value_of_number (hs : skipSpace ds = c :: cs) (hc : c = '-' ∨ c.isDigit) :
    value strict (fuel + 1) ds = number strict (c :: cs) := by
  have hne : c ≠ '"' ∧ c ≠ '[' ∧ c ≠ '\x7b' ∧ c ≠ 'n' ∧ c ≠ 't' ∧ c ≠ 'f' := by
    rcases hc with rfl | hc
    · decide
    · exact (digit_not_space hc).2.2
  simp only [value, hs]
  split
  case h_1 he => cases he
  case h_8 he => cases he; exact if_pos hc
  all_goals
    next he =>
    cases he
    simp at hne

theorem value_of_noItems {cs' : List Char} (hs : skipSpace ds = '[' :: cs)
    (hi : skipSpace cs = ']' :: cs') : value strict (fuel + 1) ds = .ok (.arr [], cs') := by
  simp only [value, hs, hi]

theorem value_of_items (hs : skipSpace ds = '[' :: cs) (hi : (skipSpace cs).head? ≠ some ']') :
    value strict (fuel + 1) ds =
      (items strict fuel (skipSpace cs)).map fun (vs, r) => (.arr vs, r) := by
  simp only [value, hs]
  split
  · next he => rw [he] at hi; exact absurd rfl hi
  · rfl

theorem value_of_noMembers {cs' : List Char} (hs : skipSpace ds = '\x7b' :: cs)
    (hi : skipSpace cs = '\x7d' :: cs') : value strict (fuel + 1) ds = .ok (.obj [], cs') := by
  simp only [value, hs, hi]

theorem value_of_members (hs : skipSpace ds = '\x7b' :: cs)
    (hi : (skipSpace cs).head? ≠ some '\x7d') :
    value strict (fuel + 1) ds =
      (members strict fuel (skipSpace cs)).map fun (ms, r) => (ofMembers ms, r) := by
  simp only [value, hs]
  split
  · next he => rw [he] at hi; exact absurd rfl hi
  · rfl

/-- How a part of a text is read, if the fuel is enough for its length. -/
def Reads (strict : Bool) (cs r : List Char) : Part → Prop
  | .value v => Ends r → ∀ fuel ds, 2 * cs.length ≤ fuel → skipSpace ds = skipSpace cs →
      value strict fuel ds = .ok (v, r)
  | .items vs => ∀ fuel ds, 2 * cs.length < fuel → skipSpace ds = skipSpace cs →
      items strict fuel ds = .ok (vs, r)
  | .members ms => ∀ fuel ds, 2 * cs.length < fuel → skipSpace ds = skipSpace cs →
      members strict fuel ds = .ok (ms, r)

/-- An item, or a member from behind its name, with what separates it from the next. -/
theorem Reads.spaced {cs₁ cs₂ : List Char} (h : Reads strict cs₁ cs₂ (.value v)) (hs : Spaced cs cs₁)
    (hr : Spaced cs₂ (c :: r)) (hc : c = ',' ∨ c = ']' ∨ c = '\x7d') (hds : skipSpace ds = skipSpace cs)
    (hf : 2 * cs.length ≤ fuel) :
    value strict fuel ds = .ok (v, cs₂) ∧ skipSpace cs₂ = c :: r := by
  refine ⟨h (hr.ends (ends_separator hc)) _ _ ?_ (hds.trans hs.skipSpace_eq), hr.skipSpace_cons ?_⟩
  · have := hs.length_le
    omega
  · rcases hc with rfl | rfl | rfl <;> rfl

theorem items_last {cs' : List Char} (hv : value strict fuel ds = .ok (v, cs'))
    (hs : skipSpace cs' = ']' :: r) : items strict (fuel + 1) ds = .ok ([v], r) := by
  simp only [items, hv, hs, bind, Except.bind]
  rfl

theorem items_more {cs' cs'' : List Char} {vs : List Json} (hv : value strict fuel ds = .ok (v, cs'))
    (hs : skipSpace cs' = ',' :: cs'') (hi : items strict fuel cs'' = .ok (vs, r)) :
    items strict (fuel + 1) ds = .ok (v :: vs, r) := by
  simp only [items, hv, hs, hi, bind, Except.bind]
  rfl

def Member (strict : Bool) (fuel : Nat) (ds s : List Char) (v : Json) (r : List Char) : Prop :=
  ∃ cs₁ cs₂ cs₃ cs₄, skipSpace ds = '"' :: cs₁ ∧ text strict cs₁ = .ok (s, cs₂) ∧
    skipSpace cs₂ = ':' :: cs₃ ∧ value strict fuel cs₃ = .ok (v, cs₄) ∧ skipSpace cs₄ = r

theorem Member.last {s : List Char} (h : Member strict fuel ds s v ('\x7d' :: r)) :
    members strict (fuel + 1) ds = .ok ([(.ofList s, v)], r) := by
  obtain ⟨cs₁, cs₂, cs₃, cs₄, h₁, h₂, h₃, h₄, h₅⟩ := h
  simp only [members, h₁, h₂, h₃, h₄, h₅, bind, Except.bind]
  rfl

theorem Member.more {s : List Char} {ms : List (String × Json)}
    (h : Member strict fuel ds s v (',' :: cs)) (hm : members strict fuel cs = .ok (ms, r)) :
    members strict (fuel + 1) ds = .ok ((.ofList s, v) :: ms, r) := by
  obtain ⟨cs₁, cs₂, cs₃, cs₄, h₁, h₂, h₃, h₄, h₅⟩ := h
  simp only [members, h₁, h₂, h₃, h₄, h₅, hm, bind, Except.bind]
  rfl

theorem Reads.member {s cs₁ cs₂ cs₃ cs₄ cs₅ : List Char} (h : Reads strict cs₄ cs₅ (.value v))
    (h₁ : Spaced cs ('"' :: cs₁)) (hs : Spells strict cs₁ s cs₂) (h₂ : Spaced cs₂ (':' :: cs₃))
    (h₃ : Spaced cs₃ cs₄) (h₄ : Spaced cs₅ (c :: r)) (hc : c = ',' ∨ c = ']' ∨ c = '\x7d')
    (hds : skipSpace ds = skipSpace cs) (hf : 2 * cs.length ≤ fuel) :
    Member strict fuel ds s v (c :: r) := by
  have hl₁ := h₁.length_le
  have hl₂ := hs.length_lt
  have hl₃ := h₂.length_le
  simp only [List.length_cons] at hl₁ hl₃
  obtain ⟨hv, hr⟩ := h.spaced h₃ h₄ hc rfl (by omega : 2 * _ ≤ fuel)
  exact ⟨_, _, _, _, hds.trans (h₁.skipSpace_cons rfl), hs.text_eq, h₂.skipSpace_cons rfl, hv, hr⟩

theorem Stands.head_items {vs : List Json} (h : Stands strict cs (.items vs) r) :
    (skipSpace cs).head? ≠ some ']' := by
  obtain ⟨cs₁, v, cs₂, hs, hv⟩ : ∃ cs₁ v cs₂, Spaced cs cs₁ ∧ Stands strict cs₁ (.value v) cs₂ := by
    cases h with
    | lastItem hs hv => exact ⟨_, _, _, hs, hv⟩
    | item hs hv => exact ⟨_, _, _, hs, hv⟩
  obtain ⟨c, cs', rfl, hc, hne⟩ := hv.head
  rw [hs.skipSpace_cons hc]
  simpa using hne

theorem Stands.head_members {ms : List (String × Json)} (h : Stands strict cs (.members ms) r) :
    (skipSpace cs).head? ≠ some '\x7d' := by
  obtain ⟨cs₁, hs⟩ : ∃ cs₁, Spaced cs ('"' :: cs₁) := by
    cases h with
    | lastMember hs => exact ⟨_, hs⟩
    | member hs => exact ⟨_, hs⟩
  rw [hs.skipSpace_cons rfl]
  simp

theorem skipSpace_skipSpace (cs : List Char) : skipSpace (skipSpace cs) = skipSpace cs :=
  (spaced_skipSpace cs).skipSpace_eq.symm

/-- A value takes one unit of fuel for the character it begins with. -/
theorem reads_value (hc : isSpace c = false)
    (hv : Ends r → ∀ fuel ds, 2 * cs.length < fuel → skipSpace ds = c :: cs →
      value strict (fuel + 1) ds = .ok (v, r)) : Reads strict (c :: cs) r (.value v) := by
  intro hr fuel ds hf hs
  rw [List.length_cons] at hf
  rw [skipSpace_cons hc] at hs
  obtain ⟨fuel, rfl⟩ : ∃ n, fuel = n + 1 := ⟨fuel - 1, by omega⟩
  exact hv hr fuel ds (by omega) hs

theorem Numbers.reads {n : Numeral} (hn : Numbers cs n r)
    (hv : if strict then n.value? = some v else v = .null) : Reads strict cs r (.value v) := by
  obtain ⟨c, cs', rfl, hc⟩ := hn.head
  have hsp : isSpace c = false := by
    rcases hc with rfl | hc
    · rfl
    · exact (digit_not_space hc).1
  refine reads_value hsp fun hr fuel ds _ hs => ?_
  rw [value_of_number hs hc, number_ok_iff]
  exact ⟨n, hn.numeral_eq hr, hv⟩

theorem Reads.lastItem {cs₁ cs₂ : List Char} (h : Reads strict cs₁ cs₂ (.value v))
    (h₁ : Spaced cs cs₁) (h₂ : Spaced cs₂ (']' :: r)) : Reads strict cs r (.items [v]) := by
  rintro (_ | fuel) ds hf hs
  · omega
  · obtain ⟨hv, hr⟩ := h.spaced h₁ h₂ (by simp) hs (by omega : 2 * _ ≤ fuel)
    exact items_last hv hr

theorem Reads.item {cs₁ cs₂ cs₃ : List Char} {vs : List Json} (h : Reads strict cs₁ cs₂ (.value v))
    (hi : Reads strict cs₃ r (.items vs)) (h₁ : Spaced cs cs₁) (hl : cs₂.length < cs₁.length)
    (h₂ : Spaced cs₂ (',' :: cs₃)) : Reads strict cs r (.items (v :: vs)) := by
  rintro (_ | fuel) ds hf hs
  · omega
  · obtain ⟨hv, hr⟩ := h.spaced h₁ h₂ (by simp) hs (by omega : 2 * _ ≤ fuel)
    have hl₁ := h₁.length_le
    have hl₂ := h₂.length_le
    rw [List.length_cons] at hl₂
    exact items_more hv hr (hi fuel _ (by omega) rfl)

theorem Reads.lastMember {s cs₁ cs₂ cs₃ cs₄ cs₅ : List Char} (h : Reads strict cs₄ cs₅ (.value v))
    (h₁ : Spaced cs ('"' :: cs₁)) (hs : Spells strict cs₁ s cs₂) (h₂ : Spaced cs₂ (':' :: cs₃))
    (h₃ : Spaced cs₃ cs₄) (h₄ : Spaced cs₅ ('\x7d' :: r)) :
    Reads strict cs r (.members [(.ofList s, v)]) := by
  rintro (_ | fuel) ds hf hds
  · omega
  · exact (h.member h₁ hs h₂ h₃ h₄ (by simp) hds (by omega)).last

theorem Reads.moreMembers {s cs₁ cs₂ cs₃ cs₄ cs₅ cs₆ : List Char} {ms : List (String × Json)}
    (h : Reads strict cs₄ cs₅ (.value v)) (hm : Reads strict cs₆ r (.members ms))
    (h₁ : Spaced cs ('"' :: cs₁)) (hs : Spells strict cs₁ s cs₂) (h₂ : Spaced cs₂ (':' :: cs₃))
    (h₃ : Spaced cs₃ cs₄) (hl : cs₅.length < cs₄.length) (h₄ : Spaced cs₅ (',' :: cs₆)) :
    Reads strict cs r (.members ((.ofList s, v) :: ms)) := by
  rintro (_ | fuel) ds hf hds
  · omega
  · have hl₁ := h₁.length_le
    have hl₂ := hs.length_lt
    have hl₃ := h₂.length_le
    have hl₄ := h₃.length_le
    have hl₅ := h₄.length_le
    simp only [List.length_cons] at hl₁ hl₃ hl₅
    exact (h.member h₁ hs h₂ h₃ h₄ (by simp) hds (by omega)).more (hm fuel _ (by omega) rfl)

/-- What the grammar allows is read. -/
theorem Stands.reads (h : Stands strict cs p r) : Reads strict cs r p := by
  induction h with
  | nullWord | trueWord | falseWord =>
    exact reads_value rfl fun _ _ _ _ hs => by simp [value, hs, literal, Except.map]
  | number hn hv => exact hn.reads hv
  | text ht =>
    refine reads_value rfl fun _ _ _ _ hs => ?_
    rw [value_of_text hs, ht.text_eq]
    rfl
  | noItems hi => exact reads_value rfl fun _ _ _ _ hs => value_of_noItems hs (hi.skipSpace_cons rfl)
  | array hi ih =>
    refine reads_value rfl fun _ fuel _ hf hs => ?_
    rw [value_of_items hs hi.head_items, ih fuel _ hf (skipSpace_skipSpace _)]
    rfl
  | noMembers hi =>
    exact reads_value rfl fun _ _ _ _ hs => value_of_noMembers hs (hi.skipSpace_cons rfl)
  | object hi ih =>
    refine reads_value rfl fun _ fuel _ hf hs => ?_
    rw [value_of_members hs hi.head_members, ih fuel _ hf (skipSpace_skipSpace _)]
    rfl
  | lastItem h₁ _ h₂ ih => exact Reads.lastItem ih h₁ h₂
  | item h₁ hv h₂ _ ih ih' => exact Reads.item ih ih' h₁ hv.length_lt h₂
  | lastMember h₁ hs h₂ h₃ _ h₄ ih => exact Reads.lastMember ih h₁ hs h₂ h₃ h₄
  | member h₁ hs h₂ h₃ hv h₄ _ ih ih' => exact Reads.moreMembers ih ih' h₁ hs h₂ h₃ hv.length_lt h₄

/-! ### Nothing else is read -/

theorem Stands.spaced_items {vs : List Json} (h : Stands strict cs (.items vs) r)
    (hs : Spaced ds cs) : Stands strict ds (.items vs) r := by
  cases h with
  | lastItem h₁ hv h₂ => exact .lastItem (hs.trans h₁) hv h₂
  | item h₁ hv h₂ hi => exact .item (hs.trans h₁) hv h₂ hi

theorem Stands.spaced_members {ms : List (String × Json)} (h : Stands strict cs (.members ms) r)
    (hs : Spaced ds cs) : Stands strict ds (.members ms) r := by
  cases h with
  | lastMember h₁ h₂ h₃ h₄ h₅ h₆ => exact .lastMember (hs.trans h₁) h₂ h₃ h₄ h₅ h₆
  | member h₁ h₂ h₃ h₄ h₅ h₆ h₇ => exact .member (hs.trans h₁) h₂ h₃ h₄ h₅ h₆ h₇

/-- What has been read stands there, whatever the fuel was. -/
structure Sound (strict : Bool) (fuel : Nat) : Prop where
  value : ∀ {ds v r}, value strict fuel ds = .ok (v, r) → Stands strict (skipSpace ds) (.value v) r
  items : ∀ {ds vs r}, items strict fuel ds = .ok (vs, r) → Stands strict ds (.items vs) r
  members : ∀ {ds ms r}, members strict fuel ds = .ok (ms, r) → Stands strict ds (.members ms) r

theorem Sound.value_succ (ih : Sound strict fuel) (h : Json.value strict (fuel + 1) ds = .ok (v, r)) :
    Stands strict (skipSpace ds) (.value v) r := by
  rw [Json.value] at h
  split at h
  · cases h
  · next cs hs =>
    obtain ⟨⟨s, u⟩, ht, he⟩ := map_ok_iff.1 h
    cases he
    exact hs ▸ .text (spells_of_text ht)
  · next cs hs =>
    rw [hs]
    split at h
    · next hi =>
      cases h
      exact .noItems (spaced_of_skipSpace hi)
    · obtain ⟨⟨vs, u⟩, hi, he⟩ := map_ok_iff.1 h
      cases he
      exact .array ((ih.items hi).spaced_items (spaced_skipSpace _))
  · next cs hs =>
    rw [hs]
    split at h
    · next hi =>
      cases h
      exact .noMembers (spaced_of_skipSpace hi)
    · obtain ⟨⟨ms, u⟩, hi, he⟩ := map_ok_iff.1 h
      cases he
      exact .object ((ih.members hi).spaced_members (spaced_skipSpace _))
  · next cs hs =>
    obtain ⟨u, hl, he⟩ := map_ok_iff.1 h
    cases he
    rw [hs, literal_ok_iff.1 hl]
    exact .nullWord
  · next cs hs =>
    obtain ⟨u, hl, he⟩ := map_ok_iff.1 h
    cases he
    rw [hs, literal_ok_iff.1 hl]
    exact .trueWord
  · next cs hs =>
    obtain ⟨u, hl, he⟩ := map_ok_iff.1 h
    cases he
    rw [hs, literal_ok_iff.1 hl]
    exact .falseWord
  · next c cs _ _ _ _ _ _ hs =>
    split at h
    · obtain ⟨n, hn, hv⟩ := number_ok_iff.1 h
      exact hs ▸ .number (numbers_of_numeral hn) hv
    · cases h

theorem Sound.items_succ (ih : Sound strict fuel) {vs : List Json}
    (h : Json.items strict (fuel + 1) ds = .ok (vs, r)) : Stands strict ds (.items vs) r := by
  rw [Json.items, bind_ok_iff] at h
  obtain ⟨⟨v, cs⟩, hv, h⟩ := h
  have hv := ih.value hv
  dsimp only at h
  split at h
  · cases h
  · next cs' hs =>
    obtain ⟨⟨us, u⟩, hi, he⟩ := bind_ok_iff.1 h
    cases he
    exact .item (spaced_skipSpace ds) hv (spaced_of_skipSpace hs) (ih.items hi)
  · next cs' hs =>
    cases h
    exact .lastItem (spaced_skipSpace ds) hv (spaced_of_skipSpace hs)
  · cases h

theorem Sound.members_succ (ih : Sound strict fuel) {ms : List (String × Json)}
    (h : Json.members strict (fuel + 1) ds = .ok (ms, r)) : Stands strict ds (.members ms) r := by
  rw [Json.members] at h
  split at h
  · cases h
  · next cs hq =>
    obtain ⟨⟨s, cs₁⟩, ht, h⟩ := bind_ok_iff.1 h
    dsimp only at h
    split at h
    · cases h
    · next cs₂ hc =>
      obtain ⟨⟨v, cs₃⟩, hv, h⟩ := bind_ok_iff.1 h
      have hq := spaced_of_skipSpace hq
      have ht := spells_of_text ht
      have hc := spaced_of_skipSpace hc
      have hv := ih.value hv
      dsimp only at h
      split at h
      · cases h
      · next cs₄ hs =>
        obtain ⟨⟨us, u⟩, hm, he⟩ := bind_ok_iff.1 h
        cases he
        exact .member hq ht hc (spaced_skipSpace _) hv (spaced_of_skipSpace hs) (ih.members hm)
      · next cs₄ hs =>
        cases h
        exact .lastMember hq ht hc (spaced_skipSpace _) hv (spaced_of_skipSpace hs)
      · cases h
    · cases h
  · cases h

theorem sound (strict : Bool) (fuel : Nat) : Sound strict fuel := by
  induction fuel with
  | zero => exact ⟨fun h => (by cases h), fun h => (by cases h), fun h => (by cases h)⟩
  | succ fuel ih => exact ⟨ih.value_succ, ih.items_succ, ih.members_succ⟩

/-! ### Whole texts -/

theorem skipValue_of_wellFormed (h : WellFormed cs r) (hr : Ends r) (hs : Spaced ds cs) :
    skipValue ds = .ok r := by
  obtain ⟨v, h⟩ := h
  have hread := h.reads hr (fuelFor ds) ds (by have := hs.length_le; unfold fuelFor; omega)
    hs.skipSpace_eq
  rw [skipValue, hread]
  rfl

theorem wellFormed_of_skipValue (h : skipValue ds = .ok r) : WellFormed (skipSpace ds) r := by
  obtain ⟨⟨v, u⟩, hv, rfl⟩ := map_ok_iff.1 h
  exact ⟨v, (sound false _).value hv⟩

theorem finish_ok_iff {α : Type} {a b : α} : finish a cs = .ok b ↔ Spaced cs [] ∧ a = b := by
  unfold finish
  have : (skipSpace cs).isEmpty ↔ Spaced cs [] := by
    rw [List.isEmpty_iff]
    exact ⟨spaced_of_skipSpace, fun h => h.skipSpace_eq⟩
  split
  · next he => simp [this.1 he]
  · next he => simp [mt this.2 he]

/-- A text is read as a value if the grammar says that it stands for that value. -/
theorem read_of_stands {s : String} (hs : Spaced s.toList cs) (h : Stands true cs (.value v) r)
    (hr : Spaced r []) : read s = .ok v := by
  have hread := h.reads (hr.ends ends_nil) (fuelFor s.toList) s.toList
    (by have := hs.length_le; unfold fuelFor; omega) hs.skipSpace_eq
  simp only [read, hread, bind, Except.bind, finish_ok_iff]
  exact ⟨hr, trivial⟩

end Aftermath.Json
