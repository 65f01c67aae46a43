import Aftermath.Bus.Basic
import Aftermath.Key

/-! Buses tried out step by step. Handles and receivers go by name; a name given again replaces
what it stood for. -/

namespace Aftermath.Bus

inductive Step where
  | new (bus : String) (capacity : Option Nat)
  | clone (bus copy : String)
  | dropBus (bus : String)
  | subscribe (bus receiver : String)
  | dropReceiver (receiver : String)
  | emit (bus : String) (e : Envelope)
  | emitMany (bus : String) (key : Key) (times : Nat)
  | receive (receiver : String) (times : Nat)
  | count (bus : String)
  | describe (bus : String)
deriving Repr

inductive Reply where
  | nothing
  | bool (b : Bool)
  | count (n : Nat)
  | text (s : String)
  | received (xs : List (Received Envelope))
  | refused (message : String)
  | gone
deriving Repr

structure Trial where
  channels : List (Bus Envelope) := []
  handles : List (String × Nat) := []
  receivers : List (String × Nat × Nat) := []
deriving Repr

namespace Trial

def without (name : String) (names : List (String × α)) : List (String × α) :=
  names.filter fun n => n.1 != name

def update (t : Trial) (c : Nat) (f : Bus Envelope → Bus Envelope) : Trial :=
  { t with channels := t.channels.modify c f }

def channel? (t : Trial) (bus : String) : Option (Nat × Bus Envelope) := do
  let c ← t.handles.lookup bus
  return (c, ← t.channels[c]?)

def dropHandle (t : Trial) (bus : String) : Trial :=
  match t.handles.lookup bus with
  | none => t
  | some c => { t.update c Bus.dropHandle with handles := without bus t.handles }

def dropReceiver (t : Trial) (receiver : String) : Trial :=
  match t.receivers.lookup receiver with
  | none => t
  | some (c, r) =>
    { t.update c (Bus.dropReceiver · r) with receivers := without receiver t.receivers }

def read (c r : Nat) : Nat → Trial → List (Received Envelope) × Trial
  | 0, t => ([], t)
  | n + 1, t =>
    match t.channels[c]? with
    | none => ([], t)
    | some b =>
      let (x, b) := b.receive r
      let (xs, t) := read c r n (t.update c fun _ => b)
      (x :: xs, t)

def step (t : Trial) : Step → Reply × Trial
  | .new bus capacity =>
    match Bus.new? (capacity.getD defaultCapacity) with
    | none => (.refused "broadcast channel capacity cannot be zero", t)
    | some b =>
      let t := t.dropHandle bus
      (.nothing, { t with channels := t.channels ++ [b],
                          handles := (bus, t.channels.length) :: t.handles })
  | .clone bus copy =>
    match t.channel? bus with
    | none => (.gone, t)
    | some (c, _) =>
      let t := (t.update c Bus.clone).dropHandle copy
      (.nothing, { t with handles := (copy, c) :: t.handles })
  | .dropBus bus => (.bool (t.handles.lookup bus).isSome, t.dropHandle bus)
  | .subscribe bus receiver =>
    match t.channel? bus with
    | none => (.gone, t)
    | some (c, b) =>
      let t := (t.update c Bus.subscribe).dropReceiver receiver
      let t := { t with receivers := (receiver, c, b.receivers.length) :: t.receivers }
      (match t.channels[c]? with
        | some b => .count b.subscriberCount
        | none => .gone, t)
  | .dropReceiver receiver => (.bool (t.receivers.lookup receiver).isSome, t.dropReceiver receiver)
  | .emit bus e =>
    match t.channel? bus with
    | none => (.gone, t)
    | some (c, b) =>
      let (n, b) := b.send e
      (.count n, t.update c fun _ => b)
  | .emitMany bus key times =>
    match t.channel? bus with
    | none => (.gone, t)
    | some (c, b) =>
      (if times = 0 then .nothing else .count b.subscriberCount,
        t.update c fun b => (List.range times).foldl (fun b (n : Nat) => b.emit ⟨key, .number n⟩) b)
  | .receive receiver times =>
    match t.receivers.lookup receiver with
    | none => (.gone, t)
    | some (c, r) =>
      let (xs, t) := read c r times t
      (.received xs, t)
  | .count bus =>
    match t.channel? bus with
    | none => (.gone, t)
    | some (_, b) => (.count b.subscriberCount, t)
  | .describe bus =>
    match t.channel? bus with
    | none => (.gone, t)
    | some (_, b) => (.text b.describe, t)

def run : Trial → List Step → List Reply
  | _, [] => []
  | t, s :: ss =>
    let (r, t) := t.step s
    r :: run t ss

end Trial

end Aftermath.Bus
