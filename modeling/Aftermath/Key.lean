/-! Event keys and the events published under them. A key is three strings compared exactly;
its label `type[field=value]` escapes nothing, so different keys may share a label. -/

namespace Aftermath

/-- Which event a subscription waits for: the event's type, a field of it, and the field's value. -/
structure Key where
  type : String
  field : String
  value : String
deriving DecidableEq, Repr, Inhabited

def Key.label (k : Key) : String :=
  k.type ++ "[" ++ k.field ++ "=" ++ k.value ++ "]"

inductive Kind where
  | event
  | rejection
deriving DecidableEq, Repr

def Kind.label : Kind → String
  | .event => "event"
  | .rejection => "rejection"

def Kind.name : Kind → String
  | .event => "Event"
  | .rejection => "Rejection"

def Kind.isRejection : Kind → Bool
  | .event => false
  | .rejection => true

inductive Payload where
  | text (s : String)
  | number (n : Int)
  | blank
deriving DecidableEq, Repr

def Payload.text? : Payload → Option String
  | .text s => some s
  | _ => none

def Payload.number? : Payload → Option Int
  | .number n => some n
  | _ => none

def Payload.isBlank : Payload → Bool
  | .blank => true
  | _ => false

structure Envelope where
  key : Key
  payload : Payload
deriving DecidableEq, Repr

/-- Row `i` of the equality table holds, for each key of the list, whether it equals key `i`. -/
def Key.equalityTable (ks : List Key) : List (List Bool) :=
  ks.map fun k => ks.map fun k' => k == k'

end Aftermath
