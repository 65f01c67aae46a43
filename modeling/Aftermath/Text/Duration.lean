/-! Durations in words: seconds, or milliseconds below one second, with as many decimal places as
they need. -/

namespace Aftermath.Text

def places (ms : Nat) : List Char :=
  let ds := [ms / 100, ms / 10 % 10, ms % 10].map Nat.digitChar
  (ds.reverse.dropWhile (· == '0')).reverse

def duration (ms : Nat) : String :=
  if ms = 0 then "0ns"
  else if ms < 1000 then toString ms ++ "ms"
  else
    match places (ms % 1000) with
    | [] => toString (ms / 1000) ++ "s"
    | ds => toString (ms / 1000) ++ "." ++ String.ofList ds ++ "s"

end Aftermath.Text
