import Aftermath.Settings

/-! The variable that holds the default timeout. Between the white space at its ends stands a numeral,
or the first thing that keeps it from being one is the cause of the failure: nothing stands there, a
character is no digit, or the digits up to some place are already too large. -/

namespace Aftermath

/-! ### Trimming -/

namespace Text

variable {cs t : List Char}

structure Trims (cs t : List Char) : Prop where
  around : ∃ before behind, cs = before ++ t ++ behind ∧ before.all isBlank ∧ behind.all isBlank
  first : ∀ c ∈ t.head?, isBlank c = false
  last : ∀ c ∈ t.getLast?, isBlank c = false

theorem head?_trimStart : ∀ c ∈ (trimStart cs).head?, isBlank c = false := by
  intro c hc
  have h := List.head?_dropWhile_not isBlank cs
  rw [trimStart] at hc
  rw [Option.mem_def.1 hc] at h
  simpa using h

theorem trimStart_append {before : List Char} (hb : before.all isBlank) :
    trimStart (before ++ t) = trimStart t := by
  rw [trimStart, List.dropWhile_append_of_pos (by simpa using hb)]
  rfl

theorem trimStart_of_head? (h : ∀ c ∈ t.head?, isBlank c = false) : trimStart t = t := by
  cases t with
  | nil => rfl
  | cons c t => exact trimStart_eq_self (h c rfl)

theorem exists_trimStart (cs : List Char) :
    ∃ before, cs = before ++ trimStart cs ∧ before.all isBlank :=
  ⟨cs.takeWhile isBlank, List.takeWhile_append_dropWhile.symm, by simp⟩

/-- Trimming takes white space from both ends and leaves none there. -/
theorem trims_trim (cs : List Char) : Trims cs (trim cs) := by
  obtain ⟨before, hbefore, hb⟩ := exists_trimStart cs
  obtain ⟨behind, hbehind, he⟩ := exists_trimStart (trimStart cs).reverse
  have hmid : trimStart cs = trim cs ++ behind.reverse := by
    rw [trim, ← List.reverse_append, ← hbehind, List.reverse_reverse]
  refine ⟨⟨before, behind.reverse, ?_, hb, by simpa using he⟩, ?_, ?_⟩
  · rw [List.append_assoc, ← hmid, ← hbefore]
  · intro c hc
    have hhead : c ∈ (trimStart cs).head? := by
      rw [hmid, List.head?_append, Option.mem_def.1 hc]
      rfl
    exact head?_trimStart c hhead
  · intro c hc
    rw [trim, List.getLast?_reverse] at hc
    exact head?_trimStart c hc

/-- There is only one way to trim a text. -/
theorem Trims.eq_trim (h : Trims cs t) : t = trim cs := by
  obtain ⟨before, behind, rfl, hb, he⟩ := h.around
  have hfirst : trimStart (t ++ behind) = trimStart t ++ behind ∨ t = [] := by
    cases t with
    | nil => exact .inr rfl
    | cons c t =>
      have hc := h.first c rfl
      rw [List.cons_append, trimStart_eq_self hc, trimStart_eq_self hc]
      exact .inl rfl
  have hlast : trimStart t.reverse = t.reverse :=
    trimStart_of_head? fun c hc => h.last c (by simpa using hc)
  rw [trim, List.append_assoc, trimStart_append hb]
  rcases hfirst with hf | rfl
  · rw [hf, trimStart_of_head? h.first, List.reverse_append, trimStart_append (by simpa using he),
      hlast, List.reverse_reverse]
  · rw [List.nil_append, ← List.append_nil behind, trimStart_append he]
    rfl

end Text

/-! ### Numerals -/

namespace Numeral

open Nat (ofDigitChars)

variable {n m : Nat} {c : Char} {cs t : List Char}

/-- One digit or more behind an optional plus sign, and the number they denote. -/
def Denotes (t : List Char) (n : Nat) : Prop :=
  ∃ ds : List Char, (t = ds ∨ t = '+' :: ds) ∧ ds ≠ [] ∧ ds.all Char.isDigit ∧ ofDigitChars 10 ds 0 = n

/-- Behind an optional plus sign the digits up to some place denote too large a number already,
whatever stands behind them. -/
def Overflows (t : List Char) : Prop :=
  ∃ ds r : List Char, (t = ds ++ r ∨ t = '+' :: (ds ++ r)) ∧ ds.all Char.isDigit ∧
    UInt64.size ≤ ofDigitChars 10 ds 0

theorem lt_size_iff : n < UInt64.size ↔ n ≤ limit := by
  unfold limit
  have : 0 < UInt64.size := by decide
  omega

/-- More digits never make a number smaller. -/
theorem le_ofDigitChars (cs : List Char) (n : Nat) : n ≤ ofDigitChars 10 cs n := by
  induction cs generalizing n with
  | nil => exact Nat.le_of_eq Nat.ofDigitChars_nil.symm
  | cons c cs ih =>
    rw [Nat.ofDigitChars_cons]
    exact Nat.le_trans (by omega) (ih _)

theorem readDigits_cons_of_digit (hc : c.isDigit) : readDigits n (c :: cs) =
    if 10 * n + (c.toNat - '0'.toNat) ≤ limit then readDigits (10 * n + (c.toNat - '0'.toNat)) cs
    else .error .tooLarge := by
  rw [readDigits, digit?, if_pos hc, Nat.mul_comm 10]

theorem readDigits_cons_of_other (hc : c.isDigit = false) :
    readDigits n (c :: cs) = .error .invalidDigit := by
  rw [readDigits, digit?, if_neg (by simp [hc])]

/-- Digits are read to the end if the number they denote is not too large. -/
theorem readDigits_eq_ok_iff (hn : n ≤ limit) :
    readDigits n cs = .ok m ↔ cs.all Char.isDigit ∧ ofDigitChars 10 cs n = m ∧ m ≤ limit := by
  induction cs generalizing n with
  | nil =>
    rw [readDigits, Nat.ofDigitChars_nil]
    constructor
    · rintro ⟨⟩
      exact ⟨rfl, rfl, hn⟩
    · rintro ⟨-, rfl, -⟩
      rfl
  | cons c cs ih =>
    cases hc : c.isDigit with
    | false => simp [readDigits_cons_of_other hc, hc]
    | true =>
      rw [readDigits_cons_of_digit hc, Nat.ofDigitChars_cons, List.all_cons, hc, Bool.true_and]
      split
      · next hle => exact ih hle
      · have hge := le_ofDigitChars cs (10 * n + (c.toNat - '0'.toNat))
        simp only [reduceCtorEq, false_iff, not_and]
        omega

/-- Reading stops at the first digit with which the number is too large. -/
theorem readDigits_eq_tooLarge_iff (hn : n ≤ limit) : readDigits n cs = .error .tooLarge ↔
    ∃ ds r, cs = ds ++ r ∧ ds.all Char.isDigit ∧ limit < ofDigitChars 10 ds n := by
  induction cs generalizing n with
  | nil =>
    constructor
    · rintro ⟨⟩
    · rintro ⟨ds, r, he, -, hl⟩
      obtain ⟨rfl, rfl⟩ := List.append_eq_nil_iff.1 he.symm
      rw [Nat.ofDigitChars_nil] at hl
      omega
  | cons c cs ih =>
    -- digits that denote too large a number are not none, so they begin with the first character
    have hsplit : (∃ ds r, c :: cs = ds ++ r ∧ ds.all Char.isDigit ∧ limit < ofDigitChars 10 ds n) ↔
        c.isDigit ∧ ∃ ds r, cs = ds ++ r ∧ ds.all Char.isDigit ∧
          limit < ofDigitChars 10 ds (10 * n + (c.toNat - '0'.toNat)) := by
      constructor
      · rintro ⟨ds, r, he, hds, hl⟩
        cases ds with
        | nil =>
          rw [Nat.ofDigitChars_nil] at hl
          omega
        | cons d ds =>
          obtain ⟨rfl, rfl⟩ := List.cons.inj he
          rw [List.all_cons, Bool.and_eq_true] at hds
          rw [Nat.ofDigitChars_cons] at hl
          exact ⟨hds.1, ds, r, rfl, hds.2, hl⟩
      · rintro ⟨hc, ds, r, rfl, hds, hl⟩
        exact ⟨c :: ds, r, rfl, by rw [List.all_cons, hc, hds]; rfl, Nat.ofDigitChars_cons ▸ hl⟩
    rw [hsplit]
    cases hc : c.isDigit with
    | false => simp [readDigits_cons_of_other hc]
    | true =>
      rw [readDigits_cons_of_digit hc]
      split
      · next hle => simpa using ih hle
      · next hgt =>
        refine ⟨fun _ => ⟨rfl, [], cs, rfl, rfl, ?_⟩, fun _ => rfl⟩
        rw [Nat.ofDigitChars_nil]
        exact Nat.lt_of_not_le hgt

theorem readDigits_ne_empty : readDigits n cs ≠ .error .empty := by
  induction cs generalizing n with
  | nil => simp [readDigits]
  | cons c cs ih =>
    cases hc : c.isDigit with
    | false => simp [readDigits_cons_of_other hc]
    | true =>
      rw [readDigits_cons_of_digit hc]
      split
      · exact ih
      · simp

/-- What is read behind the optional plus sign; behind a plus sign at least one character has to
stand. -/
theorem read_cases (t : List Char) : t = [] ∧ read t = .error .empty ∨
    t = ['+'] ∧ read t = .error .invalidDigit ∨
    ∃ c cs, (t = '+' :: c :: cs ∨ t = c :: cs ∧ c ≠ '+') ∧ read t = readDigits 0 (c :: cs) := by
  cases t with
  | nil => exact .inl ⟨rfl, rfl⟩
  | cons c cs =>
    right
    by_cases hc : c = '+'
    · subst hc
      cases cs with
      | nil => exact .inl ⟨rfl, rfl⟩
      | cons d cs => exact .inr ⟨d, cs, .inl rfl, rfl⟩
    · refine .inr ⟨c, cs, .inr ⟨rfl, hc⟩, ?_⟩
      rw [read.eq_def]
      split
      · next he => cases he
      · next he => cases he; exact absurd rfl hc
      · next he => cases he; exact absurd rfl hc
      · rfl

/-- The plus sign is no digit, so digits with an optional plus sign in front of them are what is behind
the plus sign of a text that has one. -/
theorem signed_iff {ds r : List Char} (ht : t = '+' :: c :: cs ∨ t = c :: cs ∧ c ≠ '+')
    (hne : ds ≠ []) (hds : ds.all Char.isDigit) :
    (t = ds ++ r ∨ t = '+' :: (ds ++ r)) ↔ c :: cs = ds ++ r := by
  obtain ⟨d, ds, rfl⟩ := List.exists_cons_of_ne_nil hne
  have hd : d ≠ '+' := by
    rintro rfl
    exact absurd hds (by simp)
  rcases ht with rfl | ⟨rfl, hc⟩
  · constructor
    · rintro (he | he)
      · exact absurd (List.cons.inj he).1.symm hd
      · exact (List.cons.inj he).2
    · rintro he
      exact .inr (by rw [he])
  · constructor
    · rintro (he | he)
      · exact he
      · exact absurd (List.cons.inj he).1 hc
    · exact .inl

theorem denotes_iff (ht : t = '+' :: c :: cs ∨ t = c :: cs ∧ c ≠ '+') :
    Denotes t n ↔ (c :: cs).all Char.isDigit ∧ ofDigitChars 10 (c :: cs) 0 = n := by
  constructor
  · rintro ⟨ds, he, hne, hds, hn⟩
    rw [← List.append_nil ds, signed_iff ht hne hds, List.append_nil] at he
    exact he ▸ ⟨hds, hn⟩
  · rintro ⟨hds, hn⟩
    exact ⟨c :: cs, ht.symm.imp And.left id, List.cons_ne_nil c cs, hds, hn⟩

theorem overflows_iff (ht : t = '+' :: c :: cs ∨ t = c :: cs ∧ c ≠ '+') :
    Overflows t ↔ ∃ ds r, c :: cs = ds ++ r ∧ ds.all Char.isDigit ∧ limit < ofDigitChars 10 ds 0 := by
  refine exists_congr fun ds => exists_congr fun r => ?_
  rw [← Nat.not_lt, lt_size_iff, Nat.not_le]
  by_cases hne : ds = []
  · subst hne
    simp
  · by_cases hds : ds.all Char.isDigit
    · rw [signed_iff ht hne hds]
    · simp [hds]

/-- A text of no more than a plus sign denotes nothing. -/
theorem not_denotes_of_blank (ht : t = [] ∨ t = ['+']) : ¬ Denotes t n ∧ ¬ Overflows t := by
  have hds : ∀ ds r : List Char, (t = ds ++ r ∨ t = '+' :: (ds ++ r)) → ds.all Char.isDigit →
      ds = [] := by
    intro ds r he hds
    rcases ht with rfl | rfl
    · exact (show ds = [] ∧ r = [] by simpa using he).1
    · cases ds with
      | nil => rfl
      | cons d ds =>
        rcases he with he | he
        · obtain ⟨rfl, -⟩ := List.cons.inj he
          exact absurd hds (by simp)
        · simp at he
  constructor
  · rintro ⟨ds, he, hne, hall, -⟩
    exact hne (hds ds [] (by simpa using he) hall)
  · rintro ⟨ds, r, he, hall, hl⟩
    rw [hds ds r he hall, Nat.ofDigitChars_nil] at hl
    exact absurd hl (by decide)

theorem read_eq_ok_iff : read t = .ok n ↔ Denotes t n ∧ n < UInt64.size := by
  rcases read_cases t with ⟨ht, hr⟩ | ⟨ht, hr⟩ | ⟨c, cs, ht, hr⟩
  · simp [hr, (not_denotes_of_blank (.inl ht)).1]
  · simp [hr, (not_denotes_of_blank (.inr ht)).1]
  · rw [hr, readDigits_eq_ok_iff (Nat.zero_le _), denotes_iff ht, lt_size_iff, and_assoc]

theorem read_eq_tooLarge_iff : read t = .error .tooLarge ↔ Overflows t := by
  rcases read_cases t with ⟨ht, hr⟩ | ⟨ht, hr⟩ | ⟨c, cs, ht, hr⟩
  · simp [hr, (not_denotes_of_blank (n := 0) (.inl ht)).2]
  · simp [hr, (not_denotes_of_blank (n := 0) (.inr ht)).2]
  · rw [hr, readDigits_eq_tooLarge_iff (Nat.zero_le _), overflows_iff ht]

theorem read_eq_empty_iff : read t = .error .empty ↔ t = [] := by
  rcases read_cases t with ⟨rfl, hr⟩ | ⟨rfl, hr⟩ | ⟨c, cs, ht, hr⟩
  · simp [hr]
  · simp [hr]
  · rw [hr, iff_false_left readDigits_ne_empty]
    rintro rfl
    simp at ht

/-- The digits of too large a number are too large themselves. -/
theorem Denotes.overflows (h : Denotes t n) (hn : ¬ n < UInt64.size) : Overflows t := by
  obtain ⟨ds, he, -, hds, rfl⟩ := h
  exact ⟨ds, [], by simpa using he, hds, Nat.le_of_not_lt hn⟩

theorem read_eq_invalidDigit_iff :
    read t = .error .invalidDigit ↔ t ≠ [] ∧ ¬ Overflows t ∧ ¬ ∃ n, Denotes t n := by
  constructor
  · intro hr
    refine ⟨fun he => ?_, fun ho => ?_, fun ⟨n, hn⟩ => ?_⟩
    · cases hr.symm.trans (read_eq_empty_iff.2 he)
    · cases hr.symm.trans (read_eq_tooLarge_iff.2 ho)
    · by_cases hl : n < UInt64.size
      · cases hr.symm.trans (read_eq_ok_iff.2 ⟨hn, hl⟩)
      · cases hr.symm.trans (read_eq_tooLarge_iff.2 (hn.overflows hl))
  · rintro ⟨he, ho, hd⟩
    cases hr : read t with
    | ok n => exact absurd ⟨n, (read_eq_ok_iff.1 hr).1⟩ hd
    | error e =>
      cases e with
      | empty => exact absurd (read_eq_empty_iff.1 hr) he
      | invalidDigit => rfl
      | tooLarge => exact absurd (read_eq_tooLarge_iff.1 hr) ho

end Numeral

/-! ### The variable -/

namespace Settings

variable {v : String} {ms : Nat} {cause : NumeralError}

theorem ofVariable_eq_ok_iff :
    ofVariable (some v) = .ok ⟨ms⟩ ↔ Numeral.read (Text.trim v.toList) = .ok ms := by
  unfold ofVariable
  split
  · next h => cases h
  · next h =>
    cases h
    split
    · next hr => simp [hr]
    · next hr => simp [hr]

theorem ofVariable_eq_error_iff :
    ofVariable (some v) = .error ⟨cause⟩ ↔ Numeral.read (Text.trim v.toList) = .error cause := by
  unfold ofVariable
  split
  · next h => cases h
  · next h =>
    cases h
    split
    · next hr => simp [hr]
    · next hr => simp [hr]

/-- The bytes of a text hold the text. -/
theorem ofBytes_toByteArray (v : String) :
    ofBytes v.toByteArray.data.toList = ofVariable (some v) := by
  rw [ofBytes, Array.toArray_toList, String.fromUTF8?, dif_pos v.isValidUTF8]
  rfl

/-- Whatever text the variable holds, between the white space at its ends stands a numeral below
`2 ^ 64`, which is the default timeout then, or reading it fails: for want of any character, because the
digits up to some place denote too large a number, or, in all other cases, because of a character that
is no digit. -/
theorem default_timeout_is_numeral (v : String) :
    ∃ t, (∀ u, Text.Trims v.toList u ↔ u = t) ∧
      (∀ ms, ofVariable (some v) = .ok ⟨ms⟩ ↔ Numeral.Denotes t ms ∧ ms < UInt64.size) ∧
      (ofVariable (some v) = .error ⟨.empty⟩ ↔ t = []) ∧
      (ofVariable (some v) = .error ⟨.tooLarge⟩ ↔ Numeral.Overflows t) ∧
      (ofVariable (some v) = .error ⟨.invalidDigit⟩ ↔
        t ≠ [] ∧ ¬ Numeral.Overflows t ∧ ¬ ∃ ms, Numeral.Denotes t ms) ∧
      ofBytes v.toByteArray.data.toList = ofVariable (some v) := by
  refine ⟨Text.trim v.toList, fun u => ⟨Text.Trims.eq_trim, ?_⟩, fun ms => ?_, ?_, ?_, ?_,
    ofBytes_toByteArray v⟩
  · rintro rfl
    exact Text.trims_trim _
  · rw [ofVariable_eq_ok_iff, Numeral.read_eq_ok_iff]
  · rw [ofVariable_eq_error_iff, Numeral.read_eq_empty_iff]
  · rw [ofVariable_eq_error_iff, Numeral.read_eq_tooLarge_iff]
  · rw [ofVariable_eq_error_iff, Numeral.read_eq_invalidDigit_iff]

end Settings
end Aftermath
