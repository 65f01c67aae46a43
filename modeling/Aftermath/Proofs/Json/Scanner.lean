import Aftermath.Proofs.Json.Text
import Aftermath.Proofs.Json.Grammar

/-! The scanners read what the grammar allows and nothing else: white space, strings and numbers. A
number ends where nothing stands that could be part of it. -/

namespace Aftermath

section
variable {ε α β : Type} {x : Except ε α} {b : β}

theorem map_ok_iff {f : α → β} : x.map f = .ok b ↔ ∃ a, x = .ok a ∧ f a = b := by
  cases x with
  | error e => simp [Except.map]
  | ok a => simp [Except.map]

theorem bind_ok_iff {f : α → Except ε β} : x >>= f = .ok b ↔ ∃ a, x = .ok a ∧ f a = .ok b := by
  cases x with
  | error e => simp [bind, Except.bind]
  | ok a => simp [bind, Except.bind]

end

namespace Json

variable {strict : Bool} {c : Char} {cs cs' ds s r : List Char}

/-! ### White space -/

theorem Spaced.refl (cs : List Char) : Spaced cs cs := ⟨[], rfl, rfl⟩

theorem Spaced.length_le (h : Spaced cs r) : r.length ≤ cs.length := by
  obtain ⟨w, rfl, -⟩ := h
  simp

theorem spaced_skipSpace (cs : List Char) : Spaced cs (skipSpace cs) :=
  ⟨cs.takeWhile isSpace, List.takeWhile_append_dropWhile.symm, by simp⟩

theorem Spaced.skipSpace_eq (h : Spaced cs r) : skipSpace cs = skipSpace r := by
  obtain ⟨w, rfl, hw⟩ := h
  rw [skipSpace, List.dropWhile_append_of_pos (by simpa using hw)]
  rfl

/-- The characters with which JSON values and their separators begin are no white space. -/
theorem skipSpace_cons (hc : isSpace c = false) : skipSpace (c :: cs) = c :: cs := by
  simp [skipSpace, hc]

theorem Spaced.skipSpace_cons (h : Spaced cs (c :: r)) (hc : isSpace c = false) :
    skipSpace cs = c :: r := by
  rw [h.skipSpace_eq, Json.skipSpace_cons hc]

theorem spaced_of_skipSpace (h : skipSpace cs = r) : Spaced cs r := h ▸ spaced_skipSpace cs

/-! ### Strings -/

/-- A surrogate pair. -/
theorem text_pair {a b c d e f g h : Char} {n m : Nat} (hn : unit? a b c d = some n)
    (hl : isLeading n) (hm : unit? e f g h = some m) (ht : isTrailing m) :
    text true ('\\' :: 'u' :: a :: b :: c :: d :: '\\' :: 'u' :: e :: f :: g :: h :: cs) =
      (text true cs).map fun (s, r) => (paired n m :: s, r) := by
  have hnt : isTrailing n = false := by
    simp only [isLeading, isTrailing, Bool.and_eq_true, Bool.and_eq_false_iff, decide_eq_true_eq,
      decide_eq_false_iff_not] at hl ⊢
    omega
  rw [text, hn]
  simp [hnt, hl, hm, ht]

theorem Spells.text_eq (h : Spells strict cs s r) : text strict cs = .ok (s, r) := by
  induction h with
  | close => exact text_quote
  | raw hq hb hl _ ih => rw [text_raw hq hb hl, ih]; rfl
  | short hd _ ih => rw [text_short hd, ih]; rfl
  | unit hn hs _ ih => rw [text_unit hn hs, ih]; rfl
  | pair hs hn hl hm ht _ ih =>
    subst hs
    rw [text_pair hn hl hm ht, ih]; rfl

/-- What the rest of a string is read as goes on from its first character. -/
theorem exists_of_map_cons {x : Except Fault (List Char × List Char)}
    (h : (x.map fun (s, r) => (c :: s, r)) = .ok (s, r)) : ∃ t, x = .ok (t, r) ∧ s = c :: t := by
  obtain ⟨⟨t, u⟩, hx, he⟩ := map_ok_iff.1 h
  cases he
  exact ⟨t, hx, rfl⟩

theorem spells_of_text (h : text strict cs = .ok (s, r)) : Spells strict cs s r := by
  fun_induction text strict cs generalizing s r with
  | case2 => cases h; exact .close
  | case7 _ _ _ _ n hn _ hl _ _ _ _ _ m hm ht ih =>
    rw [Bool.and_eq_true] at hl
    obtain ⟨t, ht', rfl⟩ := exists_of_map_cons h
    exact .pair hl.1 hn hl.2 hm ht (ih ht')
  | case10 _ _ _ _ _ n hn ht hl ih =>
    obtain ⟨t, ht', rfl⟩ := exists_of_map_cons h
    refine .unit hn (fun hs => ?_) (ih ht')
    rw [hs, Bool.true_and, Bool.not_eq_true] at ht hl
    exact ⟨hl, ht⟩
  | case13 _ _ _ _ d hd ih =>
    obtain ⟨t, ht, rfl⟩ := exists_of_map_cons h
    exact .short hd (ih ht)
  | case15 c cs hq hb _ _ hb' hl ih =>
    obtain ⟨t, ht, rfl⟩ := exists_of_map_cons h
    refine .raw hq ?_ (Nat.le_of_not_lt hl) (ih ht)
    rintro rfl
    cases cs with
    | nil => exact hb rfl rfl
    | cons d cs => exact hb' d cs rfl rfl
  | _ => cases h

/-! ### Numbers -/

/-- What can stand behind a number: nothing that would go on with it. -/
def Ends (r : List Char) : Prop :=
  ∀ c ∈ r.head?, c.isDigit = false ∧ c ≠ '.' ∧ c ≠ 'e' ∧ c ≠ 'E'

theorem takeWhile_digits (hds : ds.all Char.isDigit) (hr : ∀ c ∈ r.head?, c.isDigit = false) :
    (ds ++ r).takeWhile Char.isDigit = ds ∧ (ds ++ r).dropWhile Char.isDigit = r := by
  have hall : ∀ c ∈ ds, c.isDigit := by simpa using hds
  rw [List.takeWhile_append_of_pos hall, List.dropWhile_append_of_pos hall]
  cases r with
  | nil => simp
  | cons c r => simp [hr c rfl]

theorem Digits.digits_eq (h : Digits cs ds r) (hr : ∀ c ∈ r.head?, c.isDigit = false) :
    digits strict cs = .ok (ds, r) := by
  obtain ⟨rfl, hne, hds⟩ := h
  obtain ⟨ht, hd⟩ := takeWhile_digits hds hr
  unfold digits
  rw [ht, hd]
  cases ds with
  | nil => exact absurd rfl hne
  | cons d ds => rfl

theorem digits_of_digits (h : digits strict cs = .ok (ds, r)) : Digits cs ds r := by
  unfold digits at h
  split at h
  · cases h
  · next d ds hd =>
    cases h
    refine ⟨?_, List.cons_ne_nil _ _, ?_⟩
    · rw [← hd, List.takeWhile_append_dropWhile]
    · rw [← hd]; simp

theorem Whole.wholeDigits_eq (h : Whole cs ds r) (hr : ∀ c ∈ r.head?, c.isDigit = false) :
    wholeDigits strict cs = .ok (ds, r) := by
  unfold wholeDigits
  rw [h.toDigits.digits_eq hr]
  split
  · next he =>
    cases he
    cases h.zero rfl
  · rfl

theorem whole_of_wholeDigits (h : wholeDigits strict cs = .ok (ds, r)) : Whole cs ds r := by
  unfold wholeDigits at h
  split at h
  · cases h
  · next hne =>
    refine ⟨digits_of_digits h, fun hz => ?_⟩
    cases ds with
    | nil => cases hz
    | cons d ds =>
      cases hz
      cases ds with
      | nil => rfl
      | cons e ds => exact absurd h (hne _ _ _)

theorem Fraction.fractionDigits_eq {f : Option (List Char)} (h : Fraction cs f r)
    (hr : ∀ c ∈ r.head?, c.isDigit = false ∧ c ≠ '.') :
    fractionDigits strict cs = .ok (f, r) := by
  cases h with
  | absent =>
    unfold fractionDigits
    split
    · exact absurd rfl (hr _ rfl).2
    · rfl
  | present hd =>
    simp only [fractionDigits, hd.digits_eq fun c hc => (hr c hc).1, Except.map]

theorem fraction_of_fractionDigits {f : Option (List Char)}
    (h : fractionDigits strict cs = .ok (f, r)) : Fraction cs f r := by
  unfold fractionDigits at h
  split at h
  · obtain ⟨⟨ds, u⟩, hd, he⟩ := map_ok_iff.1 h
    cases he
    exact .present (digits_of_digits hd)
  · cases h
    exact .absent

theorem Digits.head_digit (h : Digits cs ds r) : ∃ c cs', cs = c :: cs' ∧ c.isDigit := by
  obtain ⟨rfl, hne, hds⟩ := h
  cases ds with
  | nil => exact absurd rfl hne
  | cons d ds => exact ⟨d, _, rfl, by simpa using (Bool.and_eq_true_iff.1 hds).1⟩

theorem exponentSign_of_digit (hc : c.isDigit) : exponentSign (c :: cs) = (false, c :: cs) := by
  unfold exponentSign
  split
  · next he => cases he; cases hc
  · next he => cases he; cases hc
  · rfl

theorem Exponent.exponentDigits_eq {e : Option (Bool × List Char)} (h : Exponent cs e r)
    (hr : Ends r) : exponentDigits strict cs = .ok (e, r) := by
  have hd : ∀ c ∈ r.head?, c.isDigit = false := fun c hc => (hr c hc).1
  cases h with
  | absent =>
    cases cs with
    | nil => rfl
    | cons c cs =>
      obtain ⟨-, -, he, hE⟩ := hr c rfl
      rw [exponentDigits, if_neg (by simp [he, hE])]
  | unsigned he hds =>
    obtain ⟨c, cs', rfl, hc⟩ := hds.head_digit
    rw [exponentDigits, if_pos he, exponentSign_of_digit hc]
    simp only [hds.digits_eq hd, Except.map]
  | positive he hds | negative he hds =>
    rw [exponentDigits, if_pos he, exponentSign]
    simp only [hds.digits_eq hd, Except.map]

theorem exponent_of_exponentDigits {e : Option (Bool × List Char)}
    (h : exponentDigits strict cs = .ok (e, r)) : Exponent cs e r := by
  unfold exponentDigits at h
  split at h
  · cases h
    exact .absent
  · next c cs =>
    split at h
    · next hc =>
      obtain ⟨⟨ds, u⟩, hd, he⟩ := map_ok_iff.1 h
      cases he
      have hd := digits_of_digits hd
      split at hd
      · exact .positive hc hd
      · exact .negative hc hd
      · exact .unsigned hc hd
    · cases h
      exact .absent

/-- Where an exponent may begin no digit and no point stands. -/
theorem Exponent.head {e : Option (Bool × List Char)} (h : Exponent cs e r) (hr : Ends r) :
    ∀ c ∈ cs.head?, c.isDigit = false ∧ c ≠ '.' := by
  intro c hc
  cases h with
  | absent => exact ⟨(hr c hc).1, (hr c hc).2.1⟩
  | unsigned he _ | positive he _ | negative he _ =>
    cases hc
    rcases he with rfl | rfl
    · decide
    · decide

theorem Fraction.head {f : Option (List Char)} (h : Fraction cs f r)
    (hr : ∀ c ∈ r.head?, c.isDigit = false) : ∀ c ∈ cs.head?, c.isDigit = false := by
  intro c hc
  cases h with
  | absent => exact hr c hc
  | present => cases hc; rfl

/-- The parts of a number behind its sign. -/
theorem numeral_parts (strict : Bool) {w : List Char} {f : Option (List Char)}
    {e : Option (Bool × List Char)}
    {cs₁ cs₂ : List Char} (hw : Whole cs w cs₁) (hf : Fraction cs₁ f cs₂) (he : Exponent cs₂ e r)
    (hr : Ends r) : wholeDigits strict cs = .ok (w, cs₁) ∧ fractionDigits strict cs₁ = .ok (f, cs₂) ∧
      exponentDigits strict cs₂ = .ok (e, r) := by
  have hhead := he.head hr
  exact ⟨hw.wholeDigits_eq (hf.head fun c hc => (hhead c hc).1), hf.fractionDigits_eq hhead,
    he.exponentDigits_eq hr⟩

theorem Numbers.numeral_eq {n : Numeral} (h : Numbers cs n r) (hr : Ends r) :
    numeral strict cs = .ok (n, r) := by
  unfold numeral
  cases h with
  | positive hw hf he =>
    obtain ⟨h₁, h₂, h₃⟩ := numeral_parts strict hw hf he hr
    obtain ⟨c, cs', rfl, hc⟩ := hw.toDigits.head_digit
    have hm : c ≠ '-' := by
      rintro rfl
      cases hc
    split
    next hsign =>
    split at hsign
    · next heq => cases heq; exact absurd rfl hm
    · cases hsign
      simp only [h₁, h₂, h₃, bind, Except.bind]
      rfl
  | negative hw hf he =>
    obtain ⟨h₁, h₂, h₃⟩ := numeral_parts strict hw hf he hr
    simp only [h₁, h₂, h₃, bind, Except.bind]
    rfl

theorem numbers_of_numeral {n : Numeral} (h : numeral strict cs = .ok (n, r)) : Numbers cs n r := by
  unfold numeral at h
  split at h
  next negative cs' hsign =>
  obtain ⟨⟨w, cs₁⟩, hw, h⟩ := bind_ok_iff.1 h
  obtain ⟨⟨f, cs₂⟩, hf, h⟩ := bind_ok_iff.1 h
  obtain ⟨⟨e, cs₃⟩, he, h⟩ := bind_ok_iff.1 h
  cases h
  have hw := whole_of_wholeDigits hw
  have hf := fraction_of_fractionDigits hf
  have he := exponent_of_exponentDigits he
  split at hsign
  · cases hsign
    exact .negative hw hf he
  · cases hsign
    exact .positive hw hf he

/-- A number begins with a digit or a minus sign. -/
theorem Numbers.head {n : Numeral} (h : Numbers cs n r) :
    ∃ c cs', cs = c :: cs' ∧ (c = '-' ∨ c.isDigit) := by
  cases h with
  | positive hw =>
    obtain ⟨c, cs', rfl, hc⟩ := hw.toDigits.head_digit
    exact ⟨c, cs', rfl, .inr hc⟩
  | negative => exact ⟨_, _, rfl, .inl rfl⟩

/-- A number that is kept has its value, one that is passed over none. -/
theorem number_ok_iff {v : Json} : number strict cs = .ok (v, r) ↔
    ∃ n, numeral strict cs = .ok (n, r) ∧ if strict then n.value? = some v else v = .null := by
  unfold number
  rw [bind_ok_iff]
  constructor
  · rintro ⟨⟨n, u⟩, hn, h⟩
    cases strict with
    | false => cases h; exact ⟨n, hn, rfl⟩
    | true =>
      simp only [if_true] at h
      split at h
      · next hv => cases h; exact ⟨n, hn, hv⟩
      · cases h
  · rintro ⟨n, hn, h⟩
    refine ⟨(n, r), hn, ?_⟩
    cases strict with
    | false => rw [if_neg (by simp)] at h; rw [h]; rfl
    | true =>
      rw [if_pos rfl] at h
      simp only [if_true, h]
      rfl

end Json
end Aftermath
