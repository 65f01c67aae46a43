import Aftermath.Json.Printer
import Aftermath.Log

/-! What a rehearsal shows: the replies to its actions, what hooks and the transport noted down,
and how sessions ended. -/

namespace Aftermath.Rehearsal

/-- How a session ended, or only whether it ended positively. -/
inductive Result where
  | whole (e : Ending)
  | positive (b : Bool)
deriving DecidableEq, Repr

def Result.form : Result → Json
  | .whole e => e.form
  | .positive b => .ofMembers [("bool", .bool b)]

/-- What a registry holds; `subs` are the states of the subscriptions by number, each with whether
the registry knows it. -/
structure Inspection where
  states : List (Key × SubState)
  cancelled : Bool
  subs : List (SubState × Bool)
deriving DecidableEq, Repr

/-- Texts in the order of their bytes. -/
def sortByText (vs : List Json) : List Json :=
  ((vs.map fun v => (v.render, v)).mergeSort fun a b => !(b.1 < a.1)).map Prod.snd

def Inspection.form (i : Inspection) : Json :=
  let active := i.states.countP fun s => s.2 == .active
  .ofMembers [
    ("len", .int i.states.length), ("empty", .bool i.states.isEmpty), ("active", .int active),
    ("all_active", .bool (active == i.states.length)), ("cancelled", .bool i.cancelled),
    ("subs", .texts (i.subs.map fun s => s.1.name)), ("found", .arr (i.subs.map fun s => .bool s.2)),
    ("registry", .arr (sortByText (i.states.map fun s => .arr [s.1.form, .str s.2.name])))]

inductive Reply where
  | nothing
  | absent
  | bool (b : Bool)
  | count (n : Nat)
  | text (s : String)
  | list (rs : List Reply)
  | pending
  | result (r : Result)
  | connection (connected : Bool) (live : Nat) (posted : List String)
  | sink (key : Key) (active : Bool)
  | session (finished : Bool) (members : Nat)
  | inspection (i : Inspection)
  | sub (s : Subscription)
  | seen (changed busy : Bool)
  | coordinator (ms : Nat)
deriving Repr

mutual

def Reply.form : Reply → Json
  | .nothing => .null
  | .absent => .str "none"
  | .bool b => .bool b
  | .count n => .int n
  | .text s => .str s
  | .list rs => .arr (formAll rs)
  | .pending => .str "pending"
  | .result r => r.form
  | .connection connected live posted =>
    .ofMembers [("connected", .bool connected), ("live", .int live), ("posts", .int posted.length),
      ("posted", .texts posted)]
  | .sink key active => .ofMembers [("key", key.form), ("active", .bool active)]
  | .session finished members =>
    .ofMembers [("finished", .bool finished), ("len", .int members), ("same", .bool true)]
  | .inspection i => i.form
  | .sub s =>
    .ofMembers [("key", s.key.form), ("kind", .str s.kind.label), ("state", .str s.state.name),
      ("active", .bool s.isActive), ("terminal", .bool s.state.isTerminal),
      ("failure", .ofOption SubscribeError.form s.error)]
  | .seen changed busy => .ofMembers [("changed", .bool changed), ("busy", .bool busy)]
  | .coordinator ms => .ofMembers [("ms", .int ms), ("same", .bool true)]

def formAll : List Reply → List Json
  | [] => []
  | r :: rs => r.form :: formAll rs

end

inductive HookNote where
  | began (arg : Argument)
  | did (action : String) (r : Reply)
  | failed
  | ended
  | closed
deriving Repr

structure Noted where
  label : String
  note : HookNote
  time : Nat
deriving Repr

def argumentForm : Argument → List (String × Json)
  | .nothing => []
  | .server e => [("arg", e.form)]
  | .network e => [("arg", e.form)]
  | .event e => [("arg", e.form)]
  | .timeout key => [("arg", key.form)]

def HookNote.members : HookNote → List (String × Json)
  | .began arg => ("at", .str "begin") :: argumentForm arg
  | .did action r => [("at", .str "did"), ("do", .str action), ("r", r.form)]
  | .failed => [("at", .str "fail")]
  | .ended => [("at", .str "end")]
  | .closed => []

def Noted.form (n : Noted) : Json :=
  .ofMembers (("h", .str n.label) :: ("t", .int n.time) :: n.note.members)

inductive WireNote where
  | subscribe (n : Nat) (key : Key)
  | unsubscribe (n : Nat)
  | post (n : Nat) (command : String)
  | did (action : String) (r : Reply)
deriving Repr

def WireNote.members : WireNote → List (String × Json)
  | .subscribe n key => [("ev", .str "subscribe"), ("n", .int n), ("key", key.form)]
  | .unsubscribe n => [("ev", .str "unsubscribe"), ("n", .int n)]
  | .post n command => [("ev", .str "post"), ("n", .int n), ("command", .str command)]
  | .did action r => [("ev", .str "did"), ("do", .str action), ("r", r.form)]

structure Wired where
  note : WireNote
  time : Nat
deriving Repr

def Wired.form (w : Wired) : Json := .ofMembers (("t", .int w.time) :: w.note.members)

/-- The number of a subscription that was given back. -/
def Wired.given? (w : Wired) : Option Nat :=
  match w.note with
  | .unsubscribe n => some n
  | _ => none

/-- Puts a note among its neighbours: subscriptions given back at one moment stand in the order of
their numbers. -/
def insertWired (w : Wired) : List Wired → List Wired
  | [] => [w]
  | v :: r =>
    match w.given?, v.given? with
    | some n, some k => if w.time = v.time ∧ k < n then v :: insertWired w r else w :: v :: r
    | _, _ => w :: v :: r

def sortWire (ws : List Wired) : List Wired := ws.foldr insertWired []

structure Shown where
  time : Nat
  reply : Reply
  log : List (String × List Noted)
  wire : List Wired
  done : List (String × Result)
  lines : Option (List Json)

def Shown.form (s : Shown) : Json :=
  let log := s.log.map fun l => (l.1, Json.arr (l.2.map Noted.form))
  let done := s.done.map fun d => (d.1, d.2.form)
  let lines := match s.lines with
    | none => []
    | some ls => [("logs", Json.arr ls)]
  .ofMembers ([("t", .int s.time), ("r", s.reply.form)] ++
    (if log.isEmpty then [] else [("log", .ofMembers log)]) ++
    (if s.wire.isEmpty then [] else [("wire", .arr (s.wire.map Wired.form))]) ++
    (if done.isEmpty then [] else [("done", .ofMembers done)]) ++ lines)

end Aftermath.Rehearsal
