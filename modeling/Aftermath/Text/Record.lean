/-! Descriptions of values as records: a name and fields in braces; a record that keeps some of its
fields to itself ends in two dots. -/

namespace Aftermath.Text

def fields : List (String × String) → String
  | [] => ""
  | [(name, v)] => name ++ ": " ++ v
  | (name, v) :: f :: r => name ++ ": " ++ v ++ ", " ++ fields (f :: r)

def record (name : String) (fs : List (String × String)) : String :=
  name ++ " \x7b " ++ fields fs ++ " \x7d"

def openRecord (name : String) (fs : List (String × String)) : String :=
  name ++ " \x7b " ++ fields fs ++ ", .. \x7d"

def yesNo (b : Bool) : String := if b then "true" else "false"

end Aftermath.Text
