import Aftermath.Loopback

/-! A hub whose connection reacts. A post may be held up on its way to the server, and what the
server does after an acknowledged command becomes a duty of its own, due some time after the
acknowledgement. Time does not pass a duty that is due, and each duty is done once. -/

namespace Aftermath

/-- Something the server does of its own accord at a moment. -/
structure Duty where
  due : Nat
  reaction : Reaction
  done : Bool := false
deriving DecidableEq, Repr

structure Backend where
  loop : Loopback
  /-- The posts that were held up, each with its session and the moment it is through. -/
  mails : List (SessionId × Nat) := []
  /-- Those that are done included, in the order in which they were taken on. -/
  duties : List Duty := []
deriving DecidableEq, Repr

inductive Occasion where
  | act (a : Act)
  | due (n : Nat)
deriving DecidableEq, Repr

def Reaction.act : Reaction → Act
  | .emit _ e => .publish e
  | .disconnect _ e => .disconnect e

def Hub.posting? (h : Hub) : Option SessionId :=
  match h.stack with
  | .posting sid :: _ => some sid
  | _ => none

namespace Backend

/-- Whether the post of a session is through. It is held up for as long as the latency says when the
post is made. -/
def isThrough (x : Backend) (sid : SessionId) : Bool :=
  match x.mails.lookup sid with
  | some moment => moment ≤ x.loop.hub.clock
  | none => x.loop.memory.latency.getD 0 = 0

/-- Time does not pass a duty that is not done, and a post arrives as soon as it is through. -/
def mayAct (x : Backend) : Act → Bool
  | .move (.pass moment) => x.duties.all fun d => d.done || moment ≤ d.due
  | .move (.postReplied _) => x.loop.hub.posting?.all fun sid => !x.isThrough sid
  | .receive _ => x.loop.hub.posting?.all x.isThrough
  | _ => true

/-- The post that an act begins to hold up. -/
def delayed (x : Backend) : Act → List (SessionId × Nat)
  | .move (.postReplied _) =>
    match x.loop.hub.posting? with
    | none => []
    | some sid =>
      if (x.mails.lookup sid).isSome then []
      else [(sid, x.loop.hub.clock + x.loop.memory.latency.getD 0)]
  | _ => []

def taken (x : Backend) : Act → List Duty
  | .receive command =>
    match (x.loop.memory.receivePost command).1 with
    | .error _ => []
    | .ok reactions =>
      reactions.map fun r => { due := x.loop.hub.clock + r.delay, reaction := r }
  | _ => []

def occur? (x : Backend) : Occasion → Option Backend
  | .act a =>
    if x.mayAct a then
      (x.loop.act? a).map fun loop =>
        { loop, mails := x.mails ++ x.delayed a, duties := x.duties ++ x.taken a }
    else none
  | .due n =>
    match x.duties[n]? with
    | none => none
    | some d =>
      if !d.done && d.due ≤ x.loop.hub.clock then
        (x.loop.act? d.reaction.act).map fun loop =>
          { x with loop, duties := x.duties.set n { d with done := true } }
      else none

end Backend

end Aftermath
