import Aftermath.Json.Reader
import Aftermath.Json.Printer
import Aftermath.Text.Quoted

/-! What a reader found where it expected something else. A scalar is read to the end, so that its
own faults come first; of an array or an object the opening bracket tells enough. -/

namespace Aftermath.Json

inductive Found where
  | null
  | bool (b : Bool)
  | number (v : Json)
  | text (s : List Char)
  | sequence
  | map
deriving Repr

def Found.label : Found → String
  | .null => "null"
  | .bool true => "boolean `true`"
  | .bool false => "boolean `false`"
  | .number (.int n) => "integer `" ++ String.ofList (intChars n) ++ "`"
  | .number v => "floating point `" ++ v.render ++ "`"
  | .text s => "string " ++ Text.quoted (String.ofList s)
  | .sequence => "sequence"
  | .map => "map"

def found : List Char → Except Fault Found
  | [] => .error .ended
  | 'n' :: cs => (literal ['u', 'l', 'l'] cs).map fun _ => .null
  | 't' :: cs => (literal ['r', 'u', 'e'] cs).map fun _ => .bool true
  | 'f' :: cs => (literal ['a', 'l', 's', 'e'] cs).map fun _ => .bool false
  | '"' :: cs => (Json.text true cs).map fun (s, _) => .text s
  | '[' :: _ => .ok .sequence
  | '\x7b' :: _ => .ok .map
  | c :: cs =>
    if c = '-' ∨ c.isDigit then (number true (c :: cs)).map fun (v, _) => .number v
    else .error .malformed

end Aftermath.Json
