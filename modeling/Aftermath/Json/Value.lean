/-! JSON values. Whole numbers and floating-point numbers are kept apart; the members of an object
are sorted by name, and a name that comes again replaces what it held. -/

namespace Aftermath

inductive Json where
  | null
  | bool (b : Bool)
  | int (n : Int)
  | float (x : Float)
  | str (s : String)
  | arr (items : List Json)
  | obj (members : List (String × Json))
deriving Repr, Inhabited

namespace Json

def insert (name : String) (v : Json) : List (String × Json) → List (String × Json)
  | [] => [(name, v)]
  | (n, w) :: ms =>
    if name < n then (name, v) :: (n, w) :: ms
    else if name = n then (name, v) :: ms
    else (n, w) :: insert name v ms

/-- The object with these members, the last of each name. -/
def ofMembers (ms : List (String × Json)) : Json :=
  .obj (ms.foldl (fun acc m => insert m.1 m.2 acc) [])

def get? (name : String) : Json → Option Json
  | .obj ms => ms.lookup name
  | _ => none

/-- A float where it is finite; the others have no JSON form. -/
def ofFloat (x : Float) : Json := if x.isFinite then .float x else .null

def texts (ss : List String) : Json := .arr (ss.map .str)

def ofOption (f : α → Json) : Option α → Json
  | none => .null
  | some a => f a

end Json

end Aftermath
