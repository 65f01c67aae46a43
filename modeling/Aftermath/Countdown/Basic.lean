/-! A countdown that can be armed again. Arming and cancelling both start a new generation; an
alarm carries the generation it was armed in and rings only while that generation is pending. -/

namespace Aftermath

structure Countdown where
  generation : Nat := 0
  /-- When the pending alarm rings. -/
  due : Option Nat := none
deriving DecidableEq, Repr

namespace Countdown

def isArmed (c : Countdown) : Bool := c.due.isSome

def arm (c : Countdown) (due : Nat) : Countdown := ⟨c.generation + 1, some due⟩

def cancel (c : Countdown) : Countdown := ⟨c.generation + 1, none⟩

def isPending (c : Countdown) (generation : Nat) : Bool :=
  c.due.isSome && c.generation == generation

/-- The countdown after the alarm of a generation rang; none if it is not pending. -/
def ring? (c : Countdown) (generation : Nat) : Option Countdown :=
  if c.isPending generation then some ⟨generation + 1, none⟩ else none

end Countdown

end Aftermath
