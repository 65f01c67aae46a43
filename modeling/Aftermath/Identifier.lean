/-! Identifiers of subscriptions: 128-bit numbers, written as thirty-two hexadecimal digits in
groups of 8, 4, 4, 4 and 12. Since every identifier has as many digits, the order of the numbers is
the order of the texts. -/

namespace Aftermath

structure Identifier where
  number : BitVec 128
deriving DecidableEq, Repr

namespace Identifier

def hexDigits : Nat → Nat → List Char
  | 0, _ => []
  | n + 1, x => hexDigits n (x / 16) ++ [Nat.digitChar (x % 16)]

/-- Cuts a list into groups of the given sizes. -/
def groups : List Nat → List Char → List (List Char)
  | [], _ => []
  | n :: ns, cs => cs.take n :: groups ns (cs.drop n)

def text (i : Identifier) : String :=
  String.ofList (['-'].intercalate (groups [8, 4, 4, 4, 12] (hexDigits 32 i.number.toNat)))

def sort (is : List Identifier) : List Identifier := is.mergeSort fun a b => a.number ≤ b.number

def distinct (is : List Identifier) : Nat := is.eraseDups.length

end Identifier

end Aftermath
