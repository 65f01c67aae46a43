import Aftermath.Json.Value
import Aftermath.Decimal.Shortest

/-! Compact JSON text: no spaces, and in strings only quotes, backslashes and the characters below
the space are escaped. -/

namespace Aftermath.Json

def hexDigit (n : Nat) : Char :=
  if n < 10 then Char.ofNat (48 + n) else Char.ofNat (87 + n)

def escape (c : Char) : List Char :=
  if c = '"' then ['\\', '"']
  else if c = '\\' then ['\\', '\\']
  else if c = '\x08' then ['\\', 'b']
  else if c = '\x0c' then ['\\', 'f']
  else if c = '\n' then ['\\', 'n']
  else if c = '\r' then ['\\', 'r']
  else if c = '\t' then ['\\', 't']
  else if c.toNat < 32 then
    ['\\', 'u', '0', '0', hexDigit (c.toNat / 16), hexDigit (c.toNat % 16)]
  else [c]

def quoted (s : String) : List Char := '"' :: s.toList.flatMap escape ++ ['"']

def intChars (n : Int) : List Char :=
  if n < 0 then '-' :: Nat.toDigits 10 n.natAbs else Nat.toDigits 10 n.natAbs

def floatChars (x : Float) : List Char := (Decimal.floatChars? x).getD ['n', 'u', 'l', 'l']

mutual

def chars : Json → List Char
  | .null => ['n', 'u', 'l', 'l']
  | .bool true => ['t', 'r', 'u', 'e']
  | .bool false => ['f', 'a', 'l', 's', 'e']
  | .int n => intChars n
  | .float x => floatChars x
  | .str s => quoted s
  | .arr items => '[' :: itemChars items ++ [']']
  | .obj members => '\x7b' :: memberChars members ++ ['\x7d']

def itemChars : List Json → List Char
  | [] => []
  | [v] => v.chars
  | v :: w :: r => v.chars ++ ',' :: itemChars (w :: r)

def memberChars : List (String × Json) → List Char
  | [] => []
  | [(n, v)] => quoted n ++ ':' :: v.chars
  | (n, v) :: m :: r => quoted n ++ ':' :: v.chars ++ ',' :: memberChars (m :: r)

end

def render (v : Json) : String := String.ofList v.chars

end Aftermath.Json
