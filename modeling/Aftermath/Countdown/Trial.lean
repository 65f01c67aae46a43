import Aftermath.Agenda
import Aftermath.Countdown.Basic
import Aftermath.Text.Record

/-! Countdowns tried out in virtual time. They go by name; an alarm may carry steps that are taken
at the moment it rings. -/

namespace Aftermath.Countdown

inductive Step where
  | new (name : String)
  | arm (name : String) (ms : Nat) (label : String) (whenRung : Option (List Step))
  | cancel (name : String)
  | armed (name : String)
  | drop (name : String)
  | describe (name : String)
  | advance (ms : Nat)
  /-- Steps between which no time passes and no alarm rings. -/
  | batch (steps : List Step)
deriving Repr

inductive Reply where
  | nothing
  | bool (b : Bool)
  | text (s : String)
  | gone
  | list (rs : List Reply)
deriving Repr

mutual

/-- How many steps there are in all, those of alarms included. -/
def Step.size : Step → Nat
  | .arm _ _ _ (some steps) => 1 + sizes steps
  | .batch steps => 1 + sizes steps
  | _ => 1

def sizes : List Step → Nat
  | [] => 0
  | s :: ss => s.size + sizes ss

end

structure Alarm where
  name : String
  countdown : Nat
  generation : Nat
  due : Nat
  label : String
  whenRung : Option (List Step)
deriving Repr

structure Ring where
  time : Nat
  label : String
  armed : Option Bool
  replies : Option (List Reply)
deriving Repr

structure Trial where
  agenda : Agenda Alarm := {}
  countdowns : List Countdown := []
  names : List (String × Nat) := []
  rings : List Ring := []
deriving Repr

namespace Trial

def find? (t : Trial) (name : String) : Option (Nat × Countdown) := do
  let i ← t.names.lookup name
  return (i, ← t.countdowns[i]?)

def put (t : Trial) (i : Nat) (c : Countdown) : Trial :=
  { t with countdowns := t.countdowns.set i c }

/-- Dropping a countdown cancels it. -/
def drop (t : Trial) (name : String) : Trial :=
  match t.find? name with
  | none => t
  | some (i, c) => { t.put i c.cancel with names := t.names.filter fun n => n.1 != name }

mutual

/-- What a step does at its moment; to advance time is left to `Trial.run`. -/
def step (t : Trial) : Step → Reply × Trial
  | .new name =>
    let t := t.drop name
    (.nothing, { t with countdowns := t.countdowns ++ [{}],
                        names := (name, t.countdowns.length) :: t.names })
  | .arm name ms label whenRung =>
    match t.find? name with
    | none => (.gone, t)
    | some (i, c) =>
      let due := t.agenda.now + ms
      let c := c.arm due
      let t := t.put i c
      (.nothing, { t with agenda := t.agenda.spawn ⟨name, i, c.generation, due, label, whenRung⟩ })
  | .cancel name =>
    match t.find? name with
    | none => (.gone, t)
    | some (i, c) => (.bool c.isArmed, t.put i c.cancel)
  | .armed name =>
    match t.find? name with
    | none => (.gone, t)
    | some (_, c) => (.bool c.isArmed, t)
  | .drop name => (.bool (t.find? name).isSome, t.drop name)
  | .describe name =>
    match t.find? name with
    | none => (.gone, t)
    | some (_, c) =>
      (.text (Text.record "TimeoutRacer" [("armed", Text.yesNo c.isArmed)]), t)
  | .advance _ => (.nothing, t)
  | .batch steps =>
    let (rs, t) := takeSteps t steps
    (.list rs, t)

def takeSteps (t : Trial) : List Step → List Reply × Trial
  | [] => ([], t)
  | s :: ss =>
    let (r, t) := step t s
    let (rs, t) := takeSteps t ss
    (r :: rs, t)

end

/-- Runs an alarm: it waits for its moment, rings, or was given up meanwhile. -/
def runAlarm (t : Trial) (a : Alarm) : Trial :=
  match t.countdowns[a.countdown]? with
  | none => t
  | some c =>
    match c.ring? a.generation with
    | none => t
    | some c =>
      if t.agenda.now < a.due then { t with agenda := t.agenda.sleep a.due a }
      else
        let t := t.put a.countdown c
        let armed := (t.find? a.name).map fun c => c.2.isArmed
        let time := t.agenda.now
        let (replies, t) := match a.whenRung with
          | none => (none, t)
          | some steps =>
            let (rs, t) := takeSteps t steps
            (some rs, t)
        { t with rings := ⟨time, a.label, armed, replies⟩ :: t.rings }

def settle : Nat → Trial → Trial
  | 0, t => t
  | fuel + 1, t =>
    match t.agenda.next? with
    | none => t
    | some (a, agenda) => settle fuel (runAlarm { t with agenda } a)

def advance (fuel : Nat) (target : Nat) : Nat → Trial → Trial
  | 0, t => t
  | n + 1, t =>
    match t.agenda.elapse? target with
    | none => { t with agenda := { t.agenda with now := target } }
    | some agenda => advance fuel target n (settle fuel { t with agenda })

structure Shown where
  time : Nat
  reply : Reply
  rings : List Ring
deriving Repr

def runStep (fuel : Nat) (t : Trial) (s : Step) : Shown × Trial :=
  let (r, t) := match s with
    | .advance ms => (Reply.nothing, advance fuel (t.agenda.now + ms) fuel t)
    | s => step t s
  let t := settle fuel t
  (⟨t.agenda.now, r, t.rings.reverse⟩, { t with rings := [] })

def runSteps (fuel : Nat) : Trial → List Step → List Shown
  | _, [] => []
  | t, s :: ss =>
    let (x, t) := runStep fuel t s
    x :: runSteps fuel t ss

/-- Takes all steps in order. An alarm runs at most twice, once when it is armed and once when its
moment has come, so twice the number of steps bounds every loop. -/
def run (steps : List Step) : List Shown := runSteps (2 * sizes steps + 2) {} steps

end Trial

end Aftermath.Countdown
