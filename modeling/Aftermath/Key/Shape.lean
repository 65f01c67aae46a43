import Aftermath.Key
import Aftermath.Json.Printer

/-! Keys for structured values. A value is given by its shape; a shape has at most one JSON form,
and the value of the key is the JSON form's text, or the string itself where the form is a string. -/

namespace Aftermath

/-- What a value consists of. Optional values that are there are `optional`, values with a name of
their own around another are `wrapped`, and the alternatives of a choice are `choice`, or
`tagged` where they hold something. -/
inductive Shape where
  | null
  | bool (b : Bool)
  | int (n : Int)
  | float (x : Float)
  | single (x : Float32)
  | char (c : Char)
  | text (s : String)
  | json (v : Json)
  | optional (s : Shape)
  | wrapped (s : Shape)
  | choice (name : String)
  | tagged (name : String) (s : Shape)
  | list (items : List Shape)
  | record (fields : List (String × Shape))
  | map (entries : List (Shape × Shape))
  | unwritable (message : String)
deriving Repr, Inhabited

inductive ShapeError where
  | outOfRange
  | keyNotText
  | keyNotFinite
  | refused (message : String)
deriving DecidableEq, Repr

def ShapeError.text : ShapeError → String
  | .outOfRange => "number out of range"
  | .keyNotText => "key must be a string"
  | .keyNotFinite => "float key must be finite (got NaN or +/-inf)"
  | .refused message => message

namespace Shape

/-- The name under which a value stands as the key of a map. -/
def name? : Shape → Except ShapeError String
  | .text s => .ok s
  | .char c => .ok (String.singleton c)
  | .choice name => .ok name
  | .int n => .ok (String.ofList (Json.intChars n))
  | .bool true => .ok "true"
  | .bool false => .ok "false"
  | .float x =>
    match Decimal.floatChars? x with
    | some cs => .ok (String.ofList cs)
    | none => .error .keyNotFinite
  | .single x =>
    match Decimal.singleChars? x with
    | some cs => .ok (String.ofList cs)
    | none => .error .keyNotFinite
  | .wrapped s => s.name?
  | .unwritable message => .error (.refused message)
  | _ => .error .keyNotText

/-- Whole numbers are written if they fit in sixty-four bits, signed or unsigned. -/
def fits (n : Int) : Bool := Int64.minValue.toInt ≤ n && n < UInt64.size

mutual

/-- The JSON form; of two faults the first from left to right counts, and of an entry the key comes
before the value. -/
def toJson? : Shape → Except ShapeError Json
  | .null => .ok .null
  | .bool b => .ok (.bool b)
  | .int n => if fits n then .ok (.int n) else .error .outOfRange
  | .float x => .ok (.ofFloat x)
  | .single x => .ok (.ofFloat x.toFloat)
  | .char c => .ok (.str (String.singleton c))
  | .text s => .ok (.str s)
  | .json v => .ok v
  | .optional s => s.toJson?
  | .wrapped s => s.toJson?
  | .choice name => .ok (.str name)
  | .tagged name s =>
    match s.toJson? with
    | .ok v => .ok (.obj [(name, v)])
    | .error e => .error e
  | .list items =>
    match itemsToJson? items with
    | .ok vs => .ok (.arr vs)
    | .error e => .error e
  | .record fields =>
    match fieldsToJson? fields with
    | .ok ms => .ok (.ofMembers ms)
    | .error e => .error e
  | .map entries =>
    match entriesToJson? entries with
    | .ok ms => .ok (.ofMembers ms)
    | .error e => .error e
  | .unwritable message => .error (.refused message)

def itemsToJson? : List Shape → Except ShapeError (List Json)
  | [] => .ok []
  | s :: ss =>
    match s.toJson?, itemsToJson? ss with
    | .error e, _ => .error e
    | _, .error e => .error e
    | .ok v, .ok vs => .ok (v :: vs)

def fieldsToJson? : List (String × Shape) → Except ShapeError (List (String × Json))
  | [] => .ok []
  | (name, s) :: fields =>
    match s.toJson?, fieldsToJson? fields with
    | .error e, _ => .error e
    | _, .error e => .error e
    | .ok v, .ok ms => .ok ((name, v) :: ms)

def entriesToJson? : List (Shape × Shape) → Except ShapeError (List (String × Json))
  | [] => .ok []
  | (key, s) :: entries =>
    match key.name?, s.toJson?, entriesToJson? entries with
    | .error e, _, _ => .error e
    | _, .error e, _ => .error e
    | _, _, .error e => .error e
    | .ok name, .ok v, .ok ms => .ok ((name, v) :: ms)

end

end Shape

/-- A string counts as it is, all else as its compact text. -/
def Json.keyValue : Json → String
  | .str s => s
  | v => v.render

def Key.ofShape (type field : String) (s : Shape) : Except ShapeError Key :=
  s.toJson?.map fun v => ⟨type, field, v.keyValue⟩

end Aftermath
