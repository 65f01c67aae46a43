/-! Virtual time. Tasks that can run wait in a queue, first come, first served; tasks that wait for
a moment lie in a list ordered by it, and those of one moment in the order in which they lay
down. Time moves only from one such moment to the next. -/

namespace Aftermath

structure Agenda (τ : Type) where
  now : Nat := 0
  ready : List τ := []
  timers : List (Nat × τ) := []
deriving Repr

namespace Agenda

/-- Puts a task behind those that can run. -/
def spawn (a : Agenda τ) (t : τ) : Agenda τ := { a with ready := a.ready ++ [t] }

def insertTimer (due : Nat) (t : τ) : List (Nat × τ) → List (Nat × τ)
  | [] => [(due, t)]
  | (d, u) :: r => if due < d then (due, t) :: (d, u) :: r else (d, u) :: insertTimer due t r

def sleep (a : Agenda τ) (due : Nat) (t : τ) : Agenda τ :=
  { a with timers := insertTimer due t a.timers }

def forget (a : Agenda τ) (p : τ → Bool) : Agenda τ :=
  { a with timers := a.timers.filter fun t => !p t.2 }

def next? (a : Agenda τ) : Option (τ × Agenda τ) :=
  match a.ready with
  | [] => none
  | t :: r => some (t, { a with ready := r })

/-- Moves on to the first moment for which a task waits and wakes the tasks of that moment; none if
no task waits for a moment up to `target`. -/
def elapse? (a : Agenda τ) (target : Nat) : Option (Agenda τ) :=
  match a.timers with
  | [] => none
  | (due, _) :: _ =>
    if due ≤ target then
      some { now := due
             ready := a.ready ++ (a.timers.takeWhile fun t => t.1 ≤ due).map Prod.snd
             timers := a.timers.dropWhile fun t => t.1 ≤ due }
    else none

end Agenda

end Aftermath
