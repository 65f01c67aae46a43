import Aftermath.Json.Value

/-! Reading JSON text, from left to right and with the first fault winning. One reader serves two
readings: the strict one, for values that are kept, and the lax one, for values that are only
passed over; the lax reading does not pair surrogates and puts no bound on numbers. -/

namespace Aftermath.Json

/-- Why a text is not JSON: it stops too soon, or something stands in it that does not belong. -/
inductive Fault where
  | ended
  | malformed
deriving DecidableEq, Repr

def isSpace (c : Char) : Bool := c = ' ' || c = '\n' || c = '\t' || c = '\r'

def skipSpace (cs : List Char) : List Char := cs.dropWhile isSpace

def literal : List Char → List Char → Except Fault (List Char)
  | [], cs => .ok cs
  | _ :: _, [] => .error .ended
  | w :: ws, c :: cs => if w = c then literal ws cs else .error .malformed

/-! Strings, from behind the opening quote. -/

def hexValue? (c : Char) : Option Nat :=
  if c.isDigit then some (c.toNat - 48)
  else if 'a' ≤ c ∧ c ≤ 'f' then some (c.toNat - 87)
  else if 'A' ≤ c ∧ c ≤ 'F' then some (c.toNat - 55)
  else none

def unit? (a b c d : Char) : Option Nat := do
  let a ← hexValue? a
  let b ← hexValue? b
  let c ← hexValue? c
  let d ← hexValue? d
  return ((a * 16 + b) * 16 + c) * 16 + d

def unescape? : Char → Option Char
  | '"' => some '"'
  | '\\' => some '\\'
  | '/' => some '/'
  | 'b' => some '\x08'
  | 'f' => some '\x0c'
  | 'n' => some '\n'
  | 'r' => some '\r'
  | 't' => some '\t'
  | _ => none

def isLeading (n : Nat) : Bool := 0xD800 ≤ n && n ≤ 0xDBFF

def isTrailing (n : Nat) : Bool := 0xDC00 ≤ n && n ≤ 0xDFFF

def paired (lead trail : Nat) : Char :=
  Char.ofNat (0x10000 + (lead - 0xD800) * 1024 + (trail - 0xDC00))

/-- An escape needs four more bytes; a text with fewer ends too soon. -/
def unitFault (cs : List Char) : Fault :=
  if (String.ofList cs).utf8ByteSize < 4 then .ended else .malformed

/-- The fault of a leading surrogate that no `\u` and four digits follow. -/
def pairFault : List Char → Fault
  | [] => .ended
  | ['\\'] => .ended
  | '\\' :: 'u' :: cs => unitFault cs
  | _ => .malformed

def text (strict : Bool) : List Char → Except Fault (List Char × List Char)
  | [] => .error .ended
  | '"' :: cs => .ok ([], cs)
  | ['\\'] => .error .ended
  | '\\' :: 'u' :: a :: b :: c :: d :: cs =>
    match unit? a b c d with
    | none => .error .malformed
    | some n =>
      if strict && isTrailing n then .error .malformed
      else if strict && isLeading n then
        match cs with
        | '\\' :: 'u' :: a' :: b' :: c' :: d' :: cs' =>
          match unit? a' b' c' d' with
          | none => .error .malformed
          | some m =>
            if isTrailing m then (text strict cs').map fun (s, r) => (paired n m :: s, r)
            else .error .malformed
        | cs => .error (pairFault cs)
      else (text strict cs).map fun (s, r) => (Char.ofNat n :: s, r)
  | '\\' :: 'u' :: cs => .error (unitFault cs)
  | '\\' :: c :: cs =>
    match unescape? c with
    | none => .error .malformed
    | some d => (text strict cs).map fun (s, r) => (d :: s, r)
  | c :: cs =>
    if c.toNat < 32 then .error .malformed
    else (text strict cs).map fun (s, r) => (c :: s, r)

/-! Numbers. -/

structure Numeral where
  negative : Bool
  whole : List Char
  fraction : Option (List Char) := none
  /-- Whether the exponent is negative, and its digits. -/
  exponent : Option (Bool × List Char) := none
deriving DecidableEq, Repr

def digits (strict : Bool) (cs : List Char) : Except Fault (List Char × List Char) :=
  match cs.takeWhile Char.isDigit with
  | [] => .error (if strict && cs.isEmpty then .ended else .malformed)
  | d :: ds => .ok (d :: ds, cs.dropWhile Char.isDigit)

/-- The digits before the point; a leading zero stands alone. -/
def wholeDigits (strict : Bool) (cs : List Char) : Except Fault (List Char × List Char) :=
  match digits strict cs with
  | .ok ('0' :: _ :: _, _) => .error .malformed
  | r => r

def fractionDigits (strict : Bool) :
    List Char → Except Fault (Option (List Char) × List Char)
  | '.' :: cs => (digits strict cs).map fun (ds, r) => (some ds, r)
  | cs => .ok (none, cs)

def exponentSign : List Char → Bool × List Char
  | '+' :: cs => (false, cs)
  | '-' :: cs => (true, cs)
  | cs => (false, cs)

def exponentDigits (strict : Bool) :
    List Char → Except Fault (Option (Bool × List Char) × List Char)
  | [] => .ok (none, [])
  | c :: cs =>
    if c = 'e' ∨ c = 'E' then
      let (negative, cs) := exponentSign cs
      (digits strict cs).map fun (ds, r) => (some (negative, ds), r)
    else .ok (none, c :: cs)

def numeral (strict : Bool) (cs : List Char) : Except Fault (Numeral × List Char) := do
  let (negative, cs) := match cs with
    | '-' :: cs => (true, cs)
    | cs => (false, cs)
  let (whole, cs) ← wholeDigits strict cs
  let (fraction, cs) ← fractionDigits strict cs
  let (exponent, cs) ← exponentDigits strict cs
  return (⟨negative, whole, fraction, exponent⟩, cs)

def decimal (ds : List Char) : Nat := ds.foldl (fun n d => n * 10 + (d.toNat - 48)) 0

/-- Takes digits into a significand as long as it fits in sixty-four bits, and returns those left
over. -/
def accumulate (n : Nat) : List Char → Nat × List Char
  | [] => (n, [])
  | d :: ds =>
    let n' := n * 10 + (d.toNat - 48)
    if n' < UInt64.size then accumulate n' ds else (n, d :: ds)

/-- Scales a significand by a power of ten, one rounded step for every 308 decimal places; none if
the result is too large. -/
def scale? : Nat → Float → Int → Option Float
  | 0, f, _ => some f
  | fuel + 1, f, e =>
    if e.natAbs ≤ 308 then
      let power := Float.ofScientific 1 false e.natAbs
      if 0 ≤ e then
        let f := f * power
        if f.isInf then none else some f
      else some (f / power)
    else if f == 0.0 then some f
    else if 0 ≤ e then none
    else scale? fuel (f / 1e308) (e + 308)

def Numeral.float? (n : Numeral) : Option Float :=
  let (s, late) := accumulate 0 n.whole
  let fraction := n.fraction.getD []
  let (s, lost) := accumulate s fraction
  let places : Int := late.length - (fraction.length - lost.length : Nat)
  let magnitude := (s.toUInt64).toFloat
  let size := match n.exponent with
    | none => scale? 4 magnitude places
    | some (negative, ds) =>
      let e := decimal ds
      if e < 0x80000000 then scale? 4 magnitude (if negative then places - e else places + e)
      else if s ≠ 0 ∧ !negative then none
      else some 0.0
  size.map fun f => if n.negative then -f else f

def Numeral.int (n : Numeral) : Int :=
  if n.negative then -(decimal n.whole : Int) else decimal n.whole

/-- A numeral without point and exponent is a whole number as long as it fits in sixty-four bits,
signed or unsigned; minus zero is not one. -/
def Numeral.isInt (n : Numeral) : Bool :=
  n.fraction.isNone && n.exponent.isNone &&
    (if n.negative then n.int < 0 && Int64.minValue.toInt ≤ n.int else n.int < UInt64.size)

def Numeral.value? (n : Numeral) : Option Json :=
  if n.isInt then some (.int n.int) else n.float?.map .float

/-- Reads a number; the lax reading does not work out its value. -/
def number (strict : Bool) (cs : List Char) : Except Fault (Json × List Char) := do
  let (n, r) ← numeral strict cs
  if strict then
    match n.value? with
    | some v => return (v, r)
    | none => throw .malformed
  else return (.null, r)

/-! Values. The fuel bounds the nesting; `fuelFor` is enough for any text. -/

def fuelFor (cs : List Char) : Nat := 2 * cs.length + 1

mutual

def value (strict : Bool) : Nat → List Char → Except Fault (Json × List Char)
  | 0, _ => .error .malformed
  | fuel + 1, cs =>
    match skipSpace cs with
    | [] => .error .ended
    | '"' :: cs => (text strict cs).map fun (s, r) => (.str (String.ofList s), r)
    | '[' :: cs =>
      match skipSpace cs with
      | ']' :: cs => .ok (.arr [], cs)
      | cs => (items strict fuel cs).map fun (vs, r) => (.arr vs, r)
    | '\x7b' :: cs =>
      match skipSpace cs with
      | '\x7d' :: cs => .ok (.obj [], cs)
      | cs => (members strict fuel cs).map fun (ms, r) => (ofMembers ms, r)
    | 'n' :: cs => (literal ['u', 'l', 'l'] cs).map fun r => (.null, r)
    | 't' :: cs => (literal ['r', 'u', 'e'] cs).map fun r => (.bool true, r)
    | 'f' :: cs => (literal ['a', 'l', 's', 'e'] cs).map fun r => (.bool false, r)
    | c :: cs => if c = '-' ∨ c.isDigit then number strict (c :: cs) else .error .malformed

def items (strict : Bool) : Nat → List Char → Except Fault (List Json × List Char)
  | 0, _ => .error .malformed
  | fuel + 1, cs => do
    let (v, cs) ← value strict fuel cs
    match skipSpace cs with
    | [] => .error .ended
    | ',' :: cs =>
      let (vs, cs) ← items strict fuel cs
      return (v :: vs, cs)
    | ']' :: cs => return ([v], cs)
    | _ => .error .malformed

def members (strict : Bool) : Nat → List Char → Except Fault (List (String × Json) × List Char)
  | 0, _ => .error .malformed
  | fuel + 1, cs =>
    match skipSpace cs with
    | [] => .error .ended
    | '"' :: cs => do
      let (name, cs) ← text strict cs
      match skipSpace cs with
      | [] => .error .ended
      | ':' :: cs =>
        let (v, cs) ← value strict fuel cs
        match skipSpace cs with
        | [] => .error .ended
        | ',' :: cs =>
          let (ms, cs) ← members strict fuel cs
          return ((String.ofList name, v) :: ms, cs)
        | '\x7d' :: cs => return ([(String.ofList name, v)], cs)
        | _ => .error .malformed
      | _ => .error .malformed
    | _ => .error .malformed

end

def skipValue (cs : List Char) : Except Fault (List Char) :=
  (value false (fuelFor cs) cs).map Prod.snd

def finish (a : α) (cs : List Char) : Except Fault α :=
  if (skipSpace cs).isEmpty then .ok a else .error .malformed

def read (s : String) : Except Fault Json := do
  let (v, cs) ← value true (fuelFor s.toList) s.toList
  finish v cs

end Aftermath.Json
