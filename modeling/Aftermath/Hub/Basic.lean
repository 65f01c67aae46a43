import Aftermath.Session
import Aftermath.Settings

/-! The hub holds the sessions of a coordinator with their subscriptions. It is an open system:
hooks, transports and configuration are its surroundings, which it calls and which may call it
back before they answer. What is under way stands on a stack of frames; the hub works on its own
frames step by step, and a frame of the surroundings waits for their answer. All that happens is
noted in a journal. -/

namespace Aftermath

/-- What happens in a hub, for the log, for the scheduler and for theorems. -/
inductive Happening where
  | wrongKey (key got : Key)
  | tooLate (key : Key) (state : SubState)
  | fired (s : SubId) (key : Key) (kind : Kind)
  | outrun (s : SubId) (key : Key)
  | expired (s : SubId) (key : Key)
  /-- A countdown ran out after the session was decided. -/
  | lapsed (s : SubId)
  | lost (s : SubId) (key : Key) (e : NetworkError)
  | released (sid : SessionId) (count : Nat)
  | ungranted (s : SubId) (key : Key) (kind : Kind) (e : SubscribeError)
  | granted (s : SubId) (lease : LeaseId)
  | returned (s : SubId) (lease : LeaseId)
  | configured (sid : SessionId) (members : Nat)
  | unready (sid : SessionId) (e : Option SubscribeError)
  | decidedEarly (sid : SessionId)
  | posting (sid : SessionId)
  | acknowledged (sid : SessionId)
  | postFailed (sid : SessionId) (e : PostError)
  | unheard (sid : SessionId) (category : Category) (detail : String)
  | belated (sid : SessionId) (e : PostError)
  | handling (sid : SessionId) (category : Category) (detail : String) (hooks : Nat)
  | onEvent (sid : SessionId) (key : Key) (kind : Kind) (handled : Bool)
  | onTimeout (sid : SessionId) (key : Key)
  | onCancelled (sid : SessionId) (s : SubId)
  | withdrawn (sid : SessionId) (count : Nat)
  | ending (sid : SessionId) (e : Ending)
  /-- An alarm of a generation that is no longer pending came to nothing. -/
  | abandoned (s : SubId) (generation : Nat)
  | closing (m : ModalId)
  | busy (m : ModalId) (b : Bool)
  | began (sid : SessionId) (h : HookId) (arg : Argument)
  | completed (sid : SessionId) (h : HookId)
  | reported (sid : SessionId) (r : Report)
  | revoked (sid : SessionId)
  | armed (s : SubId) (generation due : Nat)
  | disarmed (s : SubId) (generation : Nat)
deriving DecidableEq, Repr

/-- What is under way. The first frames are the hub's own, the others wait for its surroundings. -/
inductive Frame where
  | settlingEvent (s : SubId) (e : Envelope)
  | settlingTimeout (s : SubId)
  | reportingCancel (s : SubId)
  | releasing (sid : SessionId) (rest : List SubId) (count : Nat)
  | entering (sid : SessionId)
  | driving (sid : SessionId)
  | configuring (sid : SessionId)
  | subscribing (s : SubId)
  | unsubscribing (lease : LeaseId)
  | hook (sid : SessionId) (h : HookId) (arg : Argument)
  | posting (sid : SessionId)
deriving DecidableEq, Repr

def Frame.isInternal : Frame → Bool
  | .settlingEvent _ _ | .settlingTimeout _ | .reportingCancel _ | .releasing _ _ _
  | .entering _ | .driving _ => true
  | _ => false

inductive Answer where
  | nothing
  | bool (b : Bool)
  | count (n : Nat)
  | pending
  | finished
deriving DecidableEq, Repr

structure Token where
  cancelled : Bool := false
  sessions : List SessionId := []
deriving DecidableEq, Repr, Inhabited

/-- A modal surface: whether it is busy, and how often that was written. -/
structure Modal where
  busy : Bool := false
  version : Nat := 0
deriving DecidableEq, Repr, Inhabited

structure Hub where
  settings : Settings := {}
  clock : Nat := 0
  subs : List Subscription := []
  sessions : List Session := []
  tokens : List Token := []
  modals : List Modal := []
  stack : List Frame := []
  answer : Answer := .nothing
  /-- The newest first. -/
  journal : List Happening := []
deriving DecidableEq, Repr

namespace Hub

def sub (h : Hub) (s : SubId) : Subscription := h.subs.getD s default

def session (h : Hub) (sid : SessionId) : Session := h.sessions.getD sid default

def modal (h : Hub) (m : ModalId) : Modal := h.modals.getD m default

def token (h : Hub) (t : TokenId) : Token := h.tokens.getD t default

def onSub (h : Hub) (s : SubId) (f : Subscription → Subscription) : Hub :=
  { h with subs := h.subs.modify s f }

def onSession (h : Hub) (sid : SessionId) (f : Session → Session) : Hub :=
  { h with sessions := h.sessions.modify sid f }

def note (h : Hub) (x : Happening) : Hub := { h with journal := x :: h.journal }

def push (h : Hub) (f : Frame) : Hub := { h with stack := f :: h.stack }

def pop (h : Hub) : Hub := { h with stack := h.stack.tail }

def reply (h : Hub) (a : Answer) : Hub := { h with answer := a }

def setState (h : Hub) (s : SubId) (state : SubState) : Hub :=
  h.onSub s fun sub => { sub with state }

def setPhase (h : Hub) (sid : SessionId) (phase : Phase) : Hub :=
  h.onSession sid fun x => { x with phase }

def isBusy (h : Hub) : Bool :=
  match h.stack with
  | [] => false
  | f :: _ => f.isInternal

def isRunning (h : Hub) (sid : SessionId) : Bool :=
  h.stack.any fun f => f == .entering sid || f == .driving sid || f == .configuring sid

def members (h : Hub) (sid : SessionId) : List Subscription := (h.session sid).members.map h.sub

def activeCount (h : Hub) (sid : SessionId) : Nat :=
  (h.members sid).countP Subscription.isActive

def allActive (h : Hub) (sid : SessionId) : Bool := (h.members sid).all Subscription.isActive

def allCancelled (h : Hub) (sid : SessionId) : Bool :=
  (h.members sid).all fun s => s.state == .cancelled

/-- The error of the first subscription that was not granted, in the order of registration. Nobody is
promised that order: with several errors it could be any of them. -/
def firstError? (h : Hub) (sid : SessionId) : Option SubscribeError :=
  (h.members sid).findSome? Subscription.error

def report (h : Hub) (sid : SessionId) (r : Report) : Hub :=
  (h.onSession sid fun x => { x with reports := x.reports ++ [r] }).note (.reported sid r)

def setBusy (h : Hub) (m : ModalId) (b : Bool) : Hub :=
  { h with modals := h.modals.modify m fun x => ⟨b, x.version + 1⟩ }.note (.busy m b)

end Hub

end Aftermath
