import Aftermath.Text.Blank

/-! The configured default timeout, read from a variable that holds a number of milliseconds. The
numeral is read from left to right: at each character a non-digit is noticed before an overflow. -/

namespace Aftermath

inductive NumeralError where
  | empty
  | invalidDigit
  | tooLarge
deriving DecidableEq, Repr

def NumeralError.text : NumeralError → String
  | .empty => "cannot parse integer from empty string"
  | .invalidDigit => "invalid digit found in string"
  | .tooLarge => "number too large to fit in target type"

namespace Numeral

def limit : Nat := UInt64.size - 1

def digit? (c : Char) : Option Nat := if c.isDigit then some (c.toNat - '0'.toNat) else none

def readDigits (n : Nat) : List Char → Except NumeralError Nat
  | [] => .ok n
  | c :: cs =>
    match digit? c with
    | none => .error .invalidDigit
    | some d => if n * 10 + d ≤ limit then readDigits (n * 10 + d) cs else .error .tooLarge

/-- A numeral is one or more digits after an optional plus sign. -/
def read : List Char → Except NumeralError Nat
  | [] => .error .empty
  | ['+'] => .error .invalidDigit
  | '+' :: cs => readDigits 0 cs
  | cs => readDigits 0 cs

end Numeral

structure Settings where
  defaultTimeout : Nat := 30000
deriving DecidableEq, Repr

namespace Settings

def variableName : String := "CONSEQUENCE_DEFAULT_TIMEOUT_MS"

structure Error where
  cause : NumeralError
deriving DecidableEq, Repr

def Error.text (_ : Error) : String := variableName ++ " must be a number of milliseconds"

def Error.chain (e : Error) : List String := [e.text, e.cause.text]

/-- Reads the variable's value, if it is set; white space around the numeral does not count. -/
def ofVariable : Option String → Except Error Settings
  | none => .ok {}
  | some v =>
    match Numeral.read (Text.trim v.toList) with
    | .ok ms => .ok ⟨ms⟩
    | .error e => .error ⟨e⟩

/-- Reads the variable's value as bytes; what is not UTF-8 counts as not set. -/
def ofBytes (bytes : List UInt8) : Except Error Settings :=
  ofVariable (String.fromUTF8? ⟨bytes.toArray⟩)

end Settings

end Aftermath
