import Aftermath.Hub.Move
import Aftermath.Memory

/-! A hub whose transport is a connection in memory. The connection answers what the hub asks of it,
its listeners deliver to the hub what they hear, and when it breaks it tells the hub so. -/

namespace Aftermath

structure Loopback where
  hub : Hub
  memory : Memory
deriving DecidableEq, Repr

inductive Act where
  /-- A move of the hub in which the connection has no part. -/
  | move (m : Move)
  /-- The connection answers the frame on top, a request for a subscription or a lease that comes
  back. -/
  | serve
  | receive (command : String)
  | listen (l : LeaseId)
  | publish (e : Envelope)
  | disconnect (e : NetworkError)
  | reconnect
  | arrange (a : Arrangement)
deriving DecidableEq, Repr

def Move.isOwn : Move → Bool
  | .deliver _ _ | .fail _ _ | .granted _ | .declined _ | .unsubscribed => false
  | .postReplied r => r == .suspended
  | _ => true

/-- Tells subscriptions one after the other that the transport has failed; the number is that of the
sessions this decides. -/
def Hub.failAll (e : NetworkError) : Hub → List SubId → Nat × Hub
  | h, [] => (0, h)
  | h, s :: l =>
    let h := h.fail s e
    let (n, k) := Hub.failAll e h l
    (if h.answer = .bool true then n + 1 else n, k)

namespace Loopback

def serve? (x : Loopback) : Option Loopback :=
  match x.hub.stack with
  | .subscribing s :: _ =>
    match x.memory.subscribe (x.hub.sub s).key s with
    | .error e => (x.hub.move? (.declined e)).map fun hub => { x with hub }
    | .ok (l, memory) => (x.hub.move? (.granted l)).map fun hub => { hub, memory }
  | .unsubscribing l :: _ =>
    (x.hub.move? .unsubscribed).map fun hub => { hub, memory := x.memory.unsubscribe l }
  | _ => none

def postReply : Except PostError (List Reaction) → Hub.PostReply
  | .error e => .failed e
  | .ok _ => .acknowledged

def receive? (x : Loopback) (command : String) : Option Loopback :=
  let (result, memory) := x.memory.receivePost command
  (x.hub.move? (.postReplied (postReply result))).map fun hub => { hub, memory }

def listen? (x : Loopback) (l : LeaseId) : Option Loopback :=
  match x.memory.listeners[l]? with
  | none => none
  | some r =>
    let (heard, memory) := x.memory.listen l
    match heard.result with
    | .nothing | .stop => some { x with memory }
    | .event e => (x.hub.move? (.deliver r.sub e)).map fun hub => { hub, memory }
    | .closed => (x.hub.move? (.fail r.sub Memory.busClosed)).map fun hub => { hub, memory }

/-- The connection breaks: every live subscription is told. The number is that of the sessions this
decides. -/
def disconnect (x : Loopback) (e : NetworkError) : Nat × Loopback :=
  let (decided, hub) := x.hub.failAll e x.memory.live
  (decided, { hub, memory := { x.memory with connected := false } })

def act? (x : Loopback) (a : Act) : Option Loopback :=
  if x.hub.isBusy then
    match a with
    | .move .step => some { x with hub := x.hub.step }
    | _ => none
  else
    match a with
    | .move m => if m.isOwn then (x.hub.move? m).map fun hub => { x with hub } else none
    | .serve => x.serve?
    | .receive command => x.receive? command
    | .listen l => x.listen? l
    | .publish e => some { x with memory := x.memory.publish e }
    | .disconnect e => some (x.disconnect e).2
    | .reconnect => some { x with memory := { x.memory with connected := true } }
    | .arrange a => some { x with memory := x.memory.arrange a }

end Loopback

end Aftermath
