import Aftermath.Failure
import Aftermath.Session
import Aftermath.Settings

/-! Scripts for rehearsals: sessions with their hooks, the doings of a server and the passing of
time, written down step by step. Sessions, tokens and modal surfaces go by name. -/

namespace Aftermath.Rehearsal

inductive Mode where
  | run
  /-- Only whether the outcome is positive counts. -/
  | post
  | token (name : String)
  | modalRun (modal : String)
  | modalPost (modal : String)
  /-- Configured at once and then run on its own; `positive` asks for the outcome as in `post`. -/
  | start (positive : Bool)
deriving DecidableEq, Repr

mutual

inductive Action where
  | publish (e : Envelope) (times : Nat)
  | failNextPost (e : PostError)
  | reactEmit (after : Nat) (e : Envelope)
  | reactDisconnect (after : Nat) (e : NetworkError)
  | refuse (key : Key) (reason : String)
  | latency (ms : Nat)
  | disconnect (e : NetworkError)
  | reconnect
  | connection
  | describeConnection
  /-- What call `n` to subscribe does before it is granted, refused or found disconnected. -/
  | onSubscribe (n : Nat) (actions : List Action) (refusal down : Option String)
  | onUnsubscribe (n : Nat) (actions : List Action)
  /-- What post `n` does at once, how long it waits, what it does then, and what it comes to. -/
  | onPost (n : Nat) (actions : List Action) (latency : Option Nat) (later : List Action)
      (error : Option PostError)
  | deliver (sink : Nat) (e : Envelope)
  | fail (sink : Nat) (e : NetworkError)
  | deliverAll (e : Envelope)
  | failAll (e : NetworkError)
  | sink (sink : Nat)
  | describeSink (sink : Nat)
  | start (session : String) (mode : Mode) (command : String) (polled : Bool)
      (scope : List ScopeItem)
  | poll (session : String)
  | drop (session : String)
  | cancel (session : String)
  | session (session : String)
  | inspect (session : String)
  | sub (session : String) (sub : Nat)
  | cancelSub (session : String) (sub : Nat)
  | chainSub (session : String) (sub : Nat) (link : Link)
  | describeSub (session : String) (sub : Nat)
  | register (session : String) (sub : Nat) (into : String)
  | describeRegistry (session : String)
  | scopeLength
  | describeScope
  | cancelToken (token : String)
  | token (token : String)
  | busy (modal : String)
  | busySeen (modal : String)
  | describeModal (modal : String)
  | coordinator
  | describeCoordinator
  /-- Actions between which nothing else runs. -/
  | batch (actions : List Action)

inductive Entry where
  | sleep (ms : Nat)
  | fail (e : HookError)
  | panic (text : String)
  | act (a : Action)

inductive ScopeItem where
  | hook (slot : Slot) (body : List Entry)
  | defaultTimeout (ms : Nat)
  | subscribe (kind : Kind) (key : Key) (chain : List Link)
  | act (a : Action)

inductive Link where
  | handler (body : List Entry) (tag : Option String)
  | timeoutHandler (ms : Nat) (body : List Entry) (tag : Option String)
  | timeout (ms : Nat)

end

inductive Step where
  | advance (ms : Nat)
  | act (a : Action)

inductive Logs where
  | none
  | loud
  | all
deriving DecidableEq, Repr

structure Script where
  manual : Bool := false
  busCapacity : Option Nat := none
  settings : Settings := {}
  logs : Logs := .none
  steps : List Step

def Action.name : Action → String
  | .publish .. => "publish"
  | .failNextPost .. => "fail_next_post"
  | .reactEmit .. => "react_emit"
  | .reactDisconnect .. => "react_disconnect"
  | .refuse .. => "refuse"
  | .latency .. => "latency"
  | .disconnect .. => "disconnect"
  | .reconnect => "reconnect"
  | .connection => "conn"
  | .describeConnection => "conn_debug"
  | .onSubscribe .. => "on_subscribe"
  | .onUnsubscribe .. => "on_unsubscribe"
  | .onPost .. => "on_post"
  | .deliver .. => "deliver"
  | .fail .. => "fail"
  | .deliverAll .. => "deliver_all"
  | .failAll .. => "fail_all"
  | .sink .. => "sink"
  | .describeSink .. => "sink_debug"
  | .start .. => "start"
  | .poll .. => "poll"
  | .drop .. => "drop"
  | .cancel .. => "cancel"
  | .session .. => "session"
  | .inspect .. => "inspect"
  | .sub .. => "sub"
  | .cancelSub .. => "sub_cancel"
  | .chainSub .. => "sub_chain"
  | .describeSub .. => "sub_debug"
  | .register .. => "register"
  | .describeRegistry .. => "registry_debug"
  | .scopeLength => "scope_len"
  | .describeScope => "scope_debug"
  | .cancelToken .. => "token_cancel"
  | .token .. => "token"
  | .busy .. => "busy"
  | .busySeen .. => "busy_seen"
  | .describeModal .. => "modal_debug"
  | .coordinator => "coordinator"
  | .describeCoordinator => "coordinator_debug"
  | .batch .. => "batch"

mutual

/-- How much an action holds, itself included. -/
def Action.size : Action → Nat
  | .onSubscribe _ actions _ _ => 1 + actionsSize actions
  | .onUnsubscribe _ actions => 1 + actionsSize actions
  | .onPost _ actions _ later _ => 1 + actionsSize actions + actionsSize later
  | .start _ _ _ _ scope => 1 + scopeSize scope
  | .chainSub _ _ link => 1 + link.size
  | .batch actions => 1 + actionsSize actions
  | _ => 1

def Entry.size : Entry → Nat
  | .act a => 1 + a.size
  | _ => 1

def ScopeItem.size : ScopeItem → Nat
  | .hook _ body => 1 + bodySize body
  | .subscribe _ _ chain => 1 + chainSize chain
  | .act a => 1 + a.size
  | .defaultTimeout _ => 1

def Link.size : Link → Nat
  | .handler body _ => 1 + bodySize body
  | .timeoutHandler _ body _ => 1 + bodySize body
  | .timeout _ => 1

def actionsSize : List Action → Nat
  | [] => 0
  | a :: as => a.size + actionsSize as

def bodySize : List Entry → Nat
  | [] => 0
  | e :: es => e.size + bodySize es

def scopeSize : List ScopeItem → Nat
  | [] => 0
  | i :: is => i.size + scopeSize is

def chainSize : List Link → Nat
  | [] => 0
  | l :: ls => l.size + chainSize ls

end

def Step.size : Step → Nat
  | .advance _ => 1
  | .act a => 1 + a.size

def stepsSize : List Step → Nat
  | [] => 0
  | s :: ss => s.size + stepsSize ss

def Script.size (s : Script) : Nat := stepsSize s.steps

/-- Steps enough for everything a script can set going: what one action does to each session,
subscription and listener is bounded, and of those there are no more than actions. -/
def Script.fuel (s : Script) : Nat := 100 * (s.size + 10) * (s.size + 10)

end Aftermath.Rehearsal
