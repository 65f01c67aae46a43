import Aftermath.Key
import Aftermath.Json.Found

/-! Keys and kinds as JSON. A key is written as an object of three members and read from such an
object, in any order and with unknown members passed over, or from an array of the three strings.
A kind is written as its name and read from it, or from an object that maps it to `null`. -/

namespace Aftermath

inductive Key.Member where
  | type
  | field
  | value
deriving DecidableEq, Repr

def Key.Member.name : Key.Member → String
  | .type => "event_type"
  | .field => "field"
  | .value => "value"

def Key.Member.all : List Key.Member := [.type, .field, .value]

def Key.Member.ofName? (name : String) : Option Key.Member := all.find? fun m => m.name == name

inductive Misfit where
  | missing (m : Key.Member)
  | duplicate (m : Key.Member)
  | type (found : Json.Found) (expected : String)
  | length (n : Nat)
  | unknownKind (name : String)
deriving Repr

def Misfit.text : Misfit → String
  | .missing m => "missing field `" ++ m.name ++ "`"
  | .duplicate m => "duplicate field `" ++ m.name ++ "`"
  | .type found expected => "invalid type: " ++ found.label ++ ", expected " ++ expected
  | .length n =>
    "invalid length " ++ toString n ++ ", expected struct EventKey with 3 elements"
  | .unknownKind name => "unknown variant `" ++ name ++ "`, expected `Event` or `Rejection`"

inductive ReadError where
  | fault (f : Json.Fault)
  | misfit (m : Misfit)
deriving Repr

def ReadError.lift : Except Json.Fault α → Except ReadError α
  | .ok a => .ok a
  | .error f => .error (.fault f)

open Json (skipSpace)

def readText (expected : String) (cs : List Char) : Except ReadError (String × List Char) :=
  match skipSpace cs with
  | '"' :: cs => (ReadError.lift (Json.text true cs)).map fun (s, r) => (String.ofList s, r)
  | cs =>
    match Json.found cs with
    | .ok found => .error (.misfit (.type found expected))
    | .error f => .error (.fault f)

def readColon (cs : List Char) : Except ReadError (List Char) :=
  match skipSpace cs with
  | [] => .error (.fault .ended)
  | ':' :: cs => .ok cs
  | _ => .error (.fault .malformed)

namespace Key

def toJson (k : Key) : Json :=
  .obj [("event_type", .str k.type), ("field", .str k.field), ("value", .str k.value)]

def render (k : Key) : String := k.toJson.render

structure Draft where
  type : Option String := none
  field : Option String := none
  value : Option String := none
deriving DecidableEq, Repr

def Draft.get? (d : Draft) : Member → Option String
  | .type => d.type
  | .field => d.field
  | .value => d.value

def Draft.set (d : Draft) (m : Member) (s : String) : Draft :=
  match m with
  | .type => { d with type := some s }
  | .field => { d with field := some s }
  | .value => { d with value := some s }

/-- The key, if no member is missing; else the first one that is. -/
def Draft.key (d : Draft) : Except ReadError Key :=
  match d.type, d.field, d.value with
  | none, _, _ => .error (.misfit (.missing .type))
  | _, none, _ => .error (.misfit (.missing .field))
  | _, _, none => .error (.misfit (.missing .value))
  | some t, some f, some v => .ok ⟨t, f, v⟩

/-- One member, from behind the quote that opens its name. A member that comes again is noticed
before its value is looked at. -/
def readMember (d : Draft) (cs : List Char) : Except ReadError (Draft × List Char) := do
  let (name, cs) ← ReadError.lift (Json.text true cs)
  match Member.ofName? (String.ofList name) with
  | some m =>
    if (d.get? m).isSome then throw (.misfit (.duplicate m))
    let cs ← readColon cs
    let (s, cs) ← readText "a string" cs
    return (d.set m s, cs)
  | none =>
    let cs ← readColon cs
    return (d, ← ReadError.lift (Json.skipValue cs))

def readMembers : Nat → Draft → List Char → Except ReadError (Draft × List Char)
  | 0, _, _ => .error (.fault .malformed)
  | fuel + 1, d, cs => do
    let (d, cs) ← readMember d cs
    match skipSpace cs with
    | [] => throw (.fault .ended)
    | '\x7d' :: cs => return (d, cs)
    | ',' :: cs =>
      match skipSpace cs with
      | [] => throw (.fault .ended)
      | '"' :: cs => readMembers fuel d cs
      | _ => throw (.fault .malformed)
    | _ => throw (.fault .malformed)

def readObject (cs : List Char) : Except ReadError (Key × List Char) := do
  let (d, cs) ← match skipSpace cs with
    | [] => throw (.fault .ended)
    | '\x7d' :: cs => pure (({} : Draft), cs)
    | '"' :: cs => readMembers (cs.length + 1) {} cs
    | _ => throw (.fault .malformed)
  return (← d.key, cs)

/-- Element `n` of an array, counted from zero; one that is not there makes the array too short. -/
def readElement (n : Nat) (cs : List Char) : Except ReadError (String × List Char) :=
  match skipSpace cs with
  | [] => .error (.fault .ended)
  | ']' :: _ => .error (.misfit (.length n))
  | c :: cs =>
    if n = 0 then readText "a string" (c :: cs)
    else if c = ',' then
      match skipSpace cs with
      | ']' :: _ => .error (.fault .malformed)
      | cs => readText "a string" cs
    else .error (.fault .malformed)

def readArray (cs : List Char) : Except ReadError (Key × List Char) := do
  let (t, cs) ← readElement 0 cs
  let (f, cs) ← readElement 1 cs
  let (v, cs) ← readElement 2 cs
  match skipSpace cs with
  | [] => throw (.fault .ended)
  | ']' :: cs => return (⟨t, f, v⟩, cs)
  | _ => throw (.fault .malformed)

def read (s : String) : Except ReadError Key := do
  let (k, cs) ← match skipSpace s.toList with
    | '\x7b' :: cs => readObject cs
    | '[' :: cs => readArray cs
    | cs =>
      match Json.found cs with
      | .ok found => throw (.misfit (.type found "struct EventKey"))
      | .error f => throw (.fault f)
  ReadError.lift (Json.finish k cs)

end Key

namespace Kind

def toJson (k : Kind) : Json := .str k.name

def render (k : Kind) : String := k.toJson.render

def ofName? (name : String) : Option Kind := [Kind.event, .rejection].find? fun k => k.name == name

def readName (cs : List Char) : Except ReadError (Kind × List Char) := do
  let (name, cs) ← ReadError.lift (Json.text true cs)
  match ofName? (String.ofList name) with
  | some k => return (k, cs)
  | none => throw (.misfit (.unknownKind (String.ofList name)))

/-- The `null` that may stand for a kind's empty content. -/
def readUnit (cs : List Char) : Except ReadError (List Char) :=
  match skipSpace cs with
  | 'n' :: cs => ReadError.lift (Json.literal ['u', 'l', 'l'] cs)
  | cs =>
    match Json.found cs with
    | .ok found => .error (.misfit (.type found "unit"))
    | .error f => .error (.fault f)

def readObject (cs : List Char) : Except ReadError (Kind × List Char) := do
  let (k, cs) ← match skipSpace cs with
    | [] => throw (.fault .ended)
    | '"' :: cs => readName cs
    | cs =>
      match Json.found cs with
      | .ok found => throw (.misfit (.type found "variant identifier"))
      | .error f => throw (.fault f)
  let cs ← readColon cs
  let cs ← readUnit cs
  match skipSpace cs with
  | [] => throw (.fault .ended)
  | '\x7d' :: cs => return (k, cs)
  | _ => throw (.fault .malformed)

def read (s : String) : Except ReadError Kind := do
  let (k, cs) ← match skipSpace s.toList with
    | [] => throw (.fault .ended)
    | '"' :: cs => readName cs
    | '\x7b' :: cs => readObject cs
    | _ => throw (.fault .malformed)
  ReadError.lift (Json.finish k cs)

end Kind

end Aftermath
