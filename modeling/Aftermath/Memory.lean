import Aftermath.Bus.Basic
import Aftermath.Failure
import Aftermath.Subscription

/-! A connection to a server that lives in memory. Events are published on a bus; every granted
subscription has a listener that reads the bus up to the first event of its key. What posts come
to, and what the server does after the next acknowledged one, can be laid out beforehand. -/

namespace Aftermath

inductive Reaction where
  | emit (after : Nat) (e : Envelope)
  | disconnect (after : Nat) (e : NetworkError)
deriving DecidableEq, Repr

def Reaction.delay : Reaction → Nat
  | .emit after _ => after
  | .disconnect after _ => after

inductive Arrangement where
  | failPost (e : PostError)
  | react (r : Reaction)
  | refuse (key : Key) (reason : String)
  | delayPosts (ms : Nat)
deriving DecidableEq, Repr

structure Listener where
  key : Key
  sub : SubId
  receiver : Nat
  /-- Whether the connection counts it among the live subscriptions. -/
  live : Bool := true
  stopped : Bool := false
  retired : Bool := false
deriving DecidableEq, Repr

structure Memory where
  bus : Bus Envelope
  /-- By lease. -/
  listeners : List Listener := []
  connected : Bool := true
  posted : List String := []
  failures : List PostError := []
  reactions : List Reaction := []
  refused : List (Key × String) := []
  latency : Option Nat := none
deriving DecidableEq, Repr

inductive Hearing where
  | nothing
  | event (e : Envelope)
  | stop
  | closed
deriving DecidableEq, Repr

structure Heard where
  result : Hearing
  lags : List Nat := []
deriving DecidableEq, Repr

namespace Memory

def down : NetworkError := ⟨"in-memory connection is down"⟩

def busClosed : NetworkError := ⟨"event bus closed"⟩

/-- The subscriptions that are live on the connection, here the oldest first. Nobody is promised an
order: a loss reaches them in any. -/
def live (m : Memory) : List SubId := (m.listeners.filter Listener.live).map Listener.sub

def arrange (m : Memory) : Arrangement → Memory
  | .failPost e => { m with failures := m.failures ++ [e] }
  | .react r => { m with reactions := m.reactions ++ [r] }
  | .refuse key reason => { m with refused := (key, reason) :: m.refused }
  | .delayPosts ms => { m with latency := some ms }

def onListener (m : Memory) (l : LeaseId) (f : Listener → Listener) : Memory :=
  { m with listeners := m.listeners.modify l f }

def subscribe (m : Memory) (key : Key) (s : SubId) : Except SubscribeError (LeaseId × Memory) :=
  match m.refused.lookup key with
  | some reason => .error (.refused key reason)
  | none =>
    if m.connected then
      .ok (m.listeners.length,
        { m with bus := m.bus.subscribe,
                 listeners := m.listeners ++ [{ key, sub := s, receiver := m.bus.receivers.length }] })
    else .error (.disconnected key down)

/-- Takes a lease back: the listener stops when it runs next. -/
def unsubscribe (m : Memory) (l : LeaseId) : Memory :=
  m.onListener l fun x => { x with live := false, stopped := true }

def retire (m : Memory) (l : LeaseId) : Memory :=
  match m.listeners[l]? with
  | none => m
  | some x =>
    { m.onListener l fun x => { x with live := false, retired := true } with
      bus := m.bus.dropReceiver x.receiver }

def publish (m : Memory) (e : Envelope) : Memory := { m with bus := m.bus.emit e }

def listens (m : Memory) (l : LeaseId) : Bool := m.listeners[l]?.any fun x => !x.retired

/-- Reads the bus up to the first event of a key, at most `n` times. -/
def hear (key : Key) (r : Nat) : Nat → Bus Envelope → Heard × Bus Envelope
  | 0, b => (⟨.nothing, []⟩, b)
  | n + 1, b =>
    match b.receive r with
    | (.event e, b) => if e.key = key then (⟨.event e, []⟩, b) else hear key r n b
    | (.lagged k, b) =>
      let (x, b) := hear key r n b
      (⟨x.result, k :: x.lags⟩, b)
    | (.closed, b) => (⟨.closed, []⟩, b)
    | (.empty, b) => (⟨.nothing, []⟩, b)

/-- One run of a listener. It looks first whether it is to stop. The bus keeps `capacity` events,
so that many reads, one for a loss and one that finds nothing more are enough. Whatever it hears is
the end of it. -/
def listen (m : Memory) (l : LeaseId) : Heard × Memory :=
  match m.listeners[l]? with
  | none => (⟨.nothing, []⟩, m)
  | some x =>
    if x.retired then (⟨.nothing, []⟩, m)
    else if x.stopped then (⟨.stop, []⟩, m.retire l)
    else
      let (heard, bus) := hear x.key x.receiver (m.bus.capacity + 2) m.bus
      (heard, if heard.result = .nothing then { m with bus } else { m with bus }.retire l)

/-- A post arrives at the server: it is refused, or it is acknowledged and what was laid out for
this moment is due. -/
def receivePost (m : Memory) (command : String) : Except PostError (List Reaction) × Memory :=
  let m := { m with posted := m.posted ++ [command] }
  if m.connected then
    match m.failures with
    | e :: es => (.error e, { m with failures := es })
    | [] => (.ok m.reactions, { m with reactions := [] })
  else (.error (.network down), m)

def describe (m : Memory) : String :=
  Text.openRecord "InMemoryConnection"
    [("connected", Text.yesNo m.connected), ("live_subscriptions", toString m.live.length)]

end Memory

end Aftermath
