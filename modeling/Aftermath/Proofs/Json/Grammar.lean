import Aftermath.Json.Reader

/-! The grammar of JSON, apart from any reader: what may stand at the front of a text, what it stands
for, and what is left of the text behind it. A strict text pairs its surrogates and holds no number
that is too large. A lax one need only be well-formed; its numbers and its surrogates are not worked
out. -/

namespace Aftermath.Json

def Spaced (cs r : List Char) : Prop := ∃ w : List Char, cs = w ++ r ∧ w.all isSpace

/-- A string from behind its opening quote: its characters, and what is left behind its closing
quote. -/
inductive Spells (strict : Bool) : List Char → List Char → List Char → Prop where
  | close {r} : Spells strict ('"' :: r) [] r
  | raw {c cs s r} : c ≠ '"' → c ≠ '\\' → 32 ≤ c.toNat → Spells strict cs s r →
      Spells strict (c :: cs) (c :: s) r
  | short {c d cs s r} : unescape? c = some d → Spells strict cs s r →
      Spells strict ('\\' :: c :: cs) (d :: s) r
  | unit {a b c d n cs s r} : unit? a b c d = some n →
      (strict → isLeading n = false ∧ isTrailing n = false) → Spells strict cs s r →
      Spells strict ('\\' :: 'u' :: a :: b :: c :: d :: cs) (Char.ofNat n :: s) r
  | pair {a b c d n e f g h m cs s r} : strict → unit? a b c d = some n → isLeading n →
      unit? e f g h = some m → isTrailing m → Spells strict cs s r →
      Spells strict ('\\' :: 'u' :: a :: b :: c :: d :: '\\' :: 'u' :: e :: f :: g :: h :: cs)
        (paired n m :: s) r

structure Digits (cs ds r : List Char) : Prop where
  eq : cs = ds ++ r
  ne_nil : ds ≠ []
  digit : ds.all Char.isDigit

/-- The digits before the point; a leading zero stands alone. -/
structure Whole (cs ds r : List Char) : Prop extends Digits cs ds r where
  zero : ds.head? = some '0' → ds = ['0']

inductive Fraction : List Char → Option (List Char) → List Char → Prop where
  | absent {r} : Fraction r none r
  | present {cs ds r} : Digits cs ds r → Fraction ('.' :: cs) (some ds) r

inductive Exponent : List Char → Option (Bool × List Char) → List Char → Prop where
  | absent {r} : Exponent r none r
  | unsigned {e cs ds r} : e = 'e' ∨ e = 'E' → Digits cs ds r → Exponent (e :: cs) (some (false, ds)) r
  | positive {e cs ds r} : e = 'e' ∨ e = 'E' → Digits cs ds r →
      Exponent (e :: '+' :: cs) (some (false, ds)) r
  | negative {e cs ds r} : e = 'e' ∨ e = 'E' → Digits cs ds r →
      Exponent (e :: '-' :: cs) (some (true, ds)) r

inductive Numbers : List Char → Numeral → List Char → Prop where
  | positive {cs w cs₁ f cs₂ e r} : Whole cs w cs₁ → Fraction cs₁ f cs₂ → Exponent cs₂ e r →
      Numbers cs ⟨false, w, f, e⟩ r
  | negative {cs w cs₁ f cs₂ e r} : Whole cs w cs₁ → Fraction cs₁ f cs₂ → Exponent cs₂ e r →
      Numbers ('-' :: cs) ⟨true, w, f, e⟩ r

/-- What a part of a text stands for: a value, or what is between the brackets of an array or an
object that is not empty, with the closing bracket. -/
inductive Part where
  | value (v : Json)
  | items (vs : List Json)
  | members (ms : List (String × Json))

inductive Stands (strict : Bool) : List Char → Part → List Char → Prop where
  | nullWord {r} : Stands strict ('n' :: 'u' :: 'l' :: 'l' :: r) (.value .null) r
  | trueWord {r} : Stands strict ('t' :: 'r' :: 'u' :: 'e' :: r) (.value (.bool true)) r
  | falseWord {r} : Stands strict ('f' :: 'a' :: 'l' :: 's' :: 'e' :: r) (.value (.bool false)) r
  | number {cs n r v} : Numbers cs n r → (if strict then n.value? = some v else v = .null) →
      Stands strict cs (.value v) r
  | text {cs s r} : Spells strict cs s r → Stands strict ('"' :: cs) (.value (.str (.ofList s))) r
  | noItems {cs r} : Spaced cs (']' :: r) → Stands strict ('[' :: cs) (.value (.arr [])) r
  | array {cs vs r} : Stands strict cs (.items vs) r → Stands strict ('[' :: cs) (.value (.arr vs)) r
  | noMembers {cs r} : Spaced cs ('\x7d' :: r) → Stands strict ('\x7b' :: cs) (.value (.obj [])) r
  | object {cs ms r} : Stands strict cs (.members ms) r →
      Stands strict ('\x7b' :: cs) (.value (ofMembers ms)) r
  | lastItem {cs cs₁ v cs₂ r} : Spaced cs cs₁ → Stands strict cs₁ (.value v) cs₂ →
      Spaced cs₂ (']' :: r) → Stands strict cs (.items [v]) r
  | item {cs cs₁ v cs₂ cs₃ vs r} : Spaced cs cs₁ → Stands strict cs₁ (.value v) cs₂ →
      Spaced cs₂ (',' :: cs₃) → Stands strict cs₃ (.items vs) r → Stands strict cs (.items (v :: vs)) r
  | lastMember {cs cs₁ s cs₂ cs₃ cs₄ v cs₅ r} : Spaced cs ('"' :: cs₁) → Spells strict cs₁ s cs₂ →
      Spaced cs₂ (':' :: cs₃) → Spaced cs₃ cs₄ → Stands strict cs₄ (.value v) cs₅ →
      Spaced cs₅ ('\x7d' :: r) → Stands strict cs (.members [(.ofList s, v)]) r
  | member {cs cs₁ s cs₂ cs₃ cs₄ v cs₅ cs₆ ms r} : Spaced cs ('"' :: cs₁) → Spells strict cs₁ s cs₂ →
      Spaced cs₂ (':' :: cs₃) → Spaced cs₃ cs₄ → Stands strict cs₄ (.value v) cs₅ →
      Spaced cs₅ (',' :: cs₆) → Stands strict cs₆ (.members ms) r →
      Stands strict cs (.members ((.ofList s, v) :: ms)) r

def WellFormed (cs r : List Char) : Prop := ∃ v, Stands false cs (.value v) r

end Aftermath.Json
