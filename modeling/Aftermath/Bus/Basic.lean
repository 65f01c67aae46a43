import Aftermath.Text.Record

/-! A broadcast bus that keeps its latest events. Every receiver reads on from the event at which
it subscribed; one that has fallen behind the events kept is told how many it lost. -/

namespace Aftermath

structure Bus (α : Type) where
  capacity : Nat
  sent : Nat := 0
  /-- The latest events, the newest first. -/
  kept : List α := []
  handles : Nat := 1
  /-- For each receiver the number of the event it reads next; none once it is dropped. -/
  receivers : List (Option Nat) := []
deriving DecidableEq, Repr

inductive Received (α : Type) where
  | event (a : α)
  | empty
  | closed
  | lagged (n : Nat)
deriving DecidableEq, Repr

namespace Bus

def defaultCapacity : Nat := 1024

/-- A bus for at least so many events; their number is rounded up to a power of two. A bus that
keeps nothing does not exist. -/
def new? (capacity : Nat) : Option (Bus α) :=
  if capacity = 0 then none else some { capacity := capacity.nextPowerOfTwo }

def subscriberCount (b : Bus α) : Nat := b.receivers.countP Option.isSome

/-- Takes an event in, unless nobody listens. -/
def emit (b : Bus α) (a : α) : Bus α :=
  if b.subscriberCount = 0 then b
  else { b with sent := b.sent + 1, kept := (a :: b.kept).take b.capacity }

def send (b : Bus α) (a : α) : Nat × Bus α := (b.subscriberCount, b.emit a)

/-- The new receiver's number is the number of receivers so far. -/
def subscribe (b : Bus α) : Bus α := { b with receivers := b.receivers ++ [some b.sent] }

def dropReceiver (b : Bus α) (r : Nat) : Bus α := { b with receivers := b.receivers.set r none }

def clone (b : Bus α) : Bus α := { b with handles := b.handles + 1 }

def dropHandle (b : Bus α) : Bus α := { b with handles := b.handles - 1 }

def event? (b : Bus α) (n : Nat) : Option α :=
  if n < b.sent then b.kept[b.sent - 1 - n]? else none

/-- What a receiver at event `n` reads, and the event it reads next. -/
def read (b : Bus α) (n : Nat) : Received α × Nat :=
  if b.capacity < b.sent - n then (.lagged (b.sent - b.capacity - n), b.sent - b.capacity)
  else
    match b.event? n with
    | some a => (.event a, n + 1)
    | none => (if b.handles = 0 then .closed else .empty, n)

def receive (b : Bus α) (r : Nat) : Received α × Bus α :=
  match b.receivers[r]?.join with
  | none => (.closed, b)
  | some n =>
    let (x, n) := b.read n
    (x, { b with receivers := b.receivers.set r (some n) })

def describe (b : Bus α) : String :=
  Text.record "EventBus" [("subscriber_count", toString b.subscriberCount)]

end Bus

end Aftermath
