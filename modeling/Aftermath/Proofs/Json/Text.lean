import Aftermath.Json.Printer
import Aftermath.Json.Reader

/-! A string that was written is read back as it was, whatever characters it holds and whatever
follows it. -/

namespace Aftermath.Json

variable {strict : Bool} {c : Char} {cs r : List Char}

theorem hexValue?_hexDigit : ∀ n < 16, hexValue? (hexDigit n) = some n := by decide

/-- Two digits are enough for the characters below the space. -/
theorem unit?_hexDigit {n : Nat} (hn : n < 32) :
    unit? '0' '0' (hexDigit (n / 16)) (hexDigit (n % 16)) = some n := by
  have h0 : hexValue? '0' = some 0 := by decide
  have hhigh := hexValue?_hexDigit (n / 16) (by omega)
  have hlow := hexValue?_hexDigit (n % 16) (by omega)
  simp only [unit?, h0, hhigh, hlow, Option.bind_eq_bind, Option.bind_some, Option.pure_def]
  exact congrArg some (by omega)

theorem text_quote : text strict ('"' :: cs) = .ok ([], cs) := by simp only [text]

/-- A backslash with one letter. -/
theorem text_short {d : Char} (hd : unescape? c = some d) :
    text strict ('\\' :: c :: cs) = (text strict cs).map fun (s, r) => (d :: s, r) := by
  have hu : c ≠ 'u' := by
    rintro rfl
    simp [unescape?] at hd
  rw [text.eq_def]
  split
  · next he => cases he
  · next he => cases he
  · next he => cases he
  · next he => cases he; exact absurd rfl hu
  · next he => cases he; exact absurd rfl hu
  · next he => cases he; rw [hd]
  · next hletter he => cases he; exact (hletter _ _ rfl rfl).elim

/-- An escape of four digits, which stands alone. -/
theorem text_unit {n : Nat} {w x y z : Char} (hn : unit? w x y z = some n)
    (hs : strict → isLeading n = false ∧ isTrailing n = false) :
    text strict ('\\' :: 'u' :: w :: x :: y :: z :: cs) =
      (text strict cs).map fun (s, r) => (Char.ofNat n :: s, r) := by
  rw [text, hn]
  cases strict with
  | false => simp
  | true => simp [hs rfl]

/-- The characters below the surrogates. -/
theorem not_surrogate {n : Nat} (hl : n < 0xD800) : isLeading n = false ∧ isTrailing n = false := by
  simp only [isLeading, isTrailing, Bool.and_eq_false_iff, decide_eq_false_iff_not]
  omega

/-- A character that stands for itself. -/
theorem text_raw (hq : c ≠ '"') (hb : c ≠ '\\') (hl : 32 ≤ c.toNat) :
    text strict (c :: cs) = (text strict cs).map fun (s, r) => (c :: s, r) := by
  rw [text.eq_def]
  split
  · next he => cases he
  · next he => cases he; exact absurd rfl hq
  · next he => cases he; exact absurd rfl hb
  · next he => cases he; exact absurd rfl hb
  · next he => cases he; exact absurd rfl hb
  · next he => cases he; exact absurd rfl hb
  · next he => cases he; rw [if_neg (Nat.not_lt.2 hl)]

/-- Whatever the escape of a character is, it is read as that character. -/
theorem text_escape (c : Char) :
    text strict (escape c ++ cs) = (text strict cs).map fun (s, r) => (c :: s, r) := by
  unfold escape
  split
  · next he => subst he; exact text_short rfl
  split
  · next he => subst he; exact text_short rfl
  split
  · next he => subst he; exact text_short rfl
  split
  · next he => subst he; exact text_short rfl
  split
  · next he => subst he; exact text_short rfl
  split
  · next he => subst he; exact text_short rfl
  split
  · next he => subst he; exact text_short rfl
  split
  · next hlow =>
    have hread := @text_unit strict cs _ _ _ _ _ (unit?_hexDigit hlow)
      fun _ => not_surrogate (by omega)
    rw [Char.ofNat_toNat] at hread
    exact hread
  · next hq hb _ _ _ _ _ hlow => exact text_raw hq hb (Nat.not_lt.1 hlow)

/-- A string that was written is read back, up to its closing quote. -/
theorem text_quoted (l : List Char) (r : List Char) :
    text strict (l.flatMap escape ++ '"' :: r) = .ok (l, r) := by
  induction l with
  | nil => exact text_quote
  | cons c l ih =>
    rw [List.flatMap_cons, List.append_assoc, text_escape, ih]
    rfl

end Aftermath.Json
