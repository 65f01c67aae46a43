/-! The shortest decimal that reads back as a given binary number. A positive binary number
`m * 2 ^ q` stands for all reals that round to it; among the decimal grids `10 ^ k`, from coarse to
fine, the first with a point in that interval gives the fewest digits, and of two points the nearer
one is taken, on a tie the even one. -/

namespace Aftermath.Decimal

/-- The interval of reals around `m * 2 ^ q` as fractions over one denominator. The ends belong to
it exactly if `m` is even, since ties round to even. -/
structure Interval where
  low : Nat
  mid : Nat
  high : Nat
  den : Nat
  closed : Bool
deriving DecidableEq, Repr

/-- `narrow` holds where the numbers below `m * 2 ^ q` lie twice as dense as those above. -/
def Interval.around (m : Nat) (q : Int) (narrow : Bool) : Interval :=
  let up := Nat.pow 2 (q - 2).toNat
  let den := Nat.pow 2 (2 - q).toNat
  { low := (if narrow then 4 * m - 1 else 4 * m - 2) * up
    mid := 4 * m * up
    high := (4 * m + 2) * up
    den
    closed := m % 2 == 0 }

def Interval.holds (i : Interval) (c : Nat) (k : Int) : Bool :=
  let num := c * Nat.pow 10 k.toNat * i.den
  let scale := Nat.pow 10 (-k).toNat
  if i.closed then i.low * scale ≤ num && num ≤ i.high * scale
  else i.low * scale < num && num < i.high * scale

def Interval.floor (i : Interval) (k : Int) : Nat :=
  i.mid * Nat.pow 10 (-k).toNat / (i.den * Nat.pow 10 k.toNat)

def Interval.half (i : Interval) (c : Nat) (k : Int) : Ordering :=
  compare (2 * i.mid * Nat.pow 10 (-k).toNat) ((2 * c + 1) * Nat.pow 10 k.toNat * i.den)

def Interval.pick? (i : Interval) (k : Int) : Option Nat :=
  let c := i.floor k
  match i.holds c k && c != 0, i.holds (c + 1) k with
  | false, false => none
  | true, false => some c
  | false, true => some (c + 1)
  | true, true =>
    match i.half c k with
    | .lt => some c
    | .gt => some (c + 1)
    | .eq => if c % 2 == 0 then some c else some (c + 1)

def Interval.search (i : Interval) : Nat → Int → Nat × Int
  | 0, k => (i.floor k, k)
  | n + 1, k =>
    match i.pick? k with
    | some c => (c, k)
    | none => i.search n (k - 1)

/-- `(c, k)` with `c * 10 ^ k` the shortest decimal for `m * 2 ^ q`; `10 ^ k` starts above it, since
`m` has at most 53 bits and `30103 / 100000` is more than the decimal logarithm of two. -/
def shortest (m : Nat) (q : Int) (narrow : Bool) : Nat × Int :=
  (Interval.around m q narrow).search 40 ((q + 53) * 30103 / 100000 + 1)

/-- The digits of `0.d₁d₂… * 10 ^ exponent`, with the sign in front. -/
structure Digits where
  negative : Bool
  digits : List Char
  exponent : Int
deriving DecidableEq, Repr

structure Format where
  fractionBits : Nat
  exponentBits : Nat
deriving DecidableEq, Repr

def double : Format := ⟨52, 11⟩

def single : Format := ⟨23, 8⟩

/-- The number whose bits in a format are these; zero has no digits, an infinity or a NaN is
none. -/
def Format.digits? (format : Format) (bits : Nat) : Option Digits :=
  let top := Nat.pow 2 format.exponentBits - 1
  let sign := bits >>> (format.fractionBits + format.exponentBits) % 2 == 1
  let e := (bits >>> format.fractionBits) &&& top
  let f := bits % Nat.pow 2 format.fractionBits
  let least : Int := 2 - Nat.pow 2 (format.exponentBits - 1) - format.fractionBits
  if e == top then none
  else if e == 0 && f == 0 then some ⟨sign, [], 0⟩
  else
    let (c, k) :=
      if e == 0 then shortest f least false
      else shortest (Nat.pow 2 format.fractionBits + f) (least + e - 1) (f == 0 && e != 1)
    let ds := Nat.toDigits 10 c
    some ⟨sign, ds, k + ds.length⟩

def zeros (n : Nat) : List Char := List.replicate n '0'

/-- Exponents from -4 to 16 are written out; a whole number keeps `.0`. -/
def Digits.positional (ds : List Char) (e : Int) : List Char :=
  if e ≤ 0 then '0' :: '.' :: zeros (-e).toNat ++ ds
  else if ds.length ≤ e.toNat then ds ++ zeros (e.toNat - ds.length) ++ ['.', '0']
  else ds.take e.toNat ++ '.' :: ds.drop e.toNat

/-- Elsewhere one digit stands before the point and the exponent always shows its sign. -/
def Digits.scientific (ds : List Char) (e : Int) : List Char :=
  let x := e - 1
  ds.take 1 ++ (if ds.length ≤ 1 then [] else '.' :: ds.drop 1) ++
    'e' :: (if x < 0 then '-' else '+') :: Nat.toDigits 10 x.natAbs

def Digits.chars (d : Digits) : List Char :=
  let body :=
    if d.digits.isEmpty then ['0', '.', '0']
    else if -4 ≤ d.exponent && d.exponent ≤ 16 then positional d.digits d.exponent
    else scientific d.digits d.exponent
  if d.negative then '-' :: body else body

def floatChars? (x : Float) : Option (List Char) := (double.digits? x.toBits.toNat).map Digits.chars

def singleChars? (x : Float32) : Option (List Char) :=
  (single.digits? x.toBits.toNat).map Digits.chars

end Aftermath.Decimal
