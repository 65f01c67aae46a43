import Aftermath.Hub.Drive

/-! The moves of a hub. While it has work of its own, the only move is a step of that work; else its
surroundings may call it in any way, and the frame on top waits for their answer. -/

namespace Aftermath

inductive Move where
  | step
  | pass (moment : Nat)
  | newToken
  | newModal
  | openSession (token : Option TokenId) (modal : Option ModalId)
  /-- Configures a session ahead of its first run. -/
  | configure (sid : SessionId)
  | run (sid : SessionId)
  | drop (sid : SessionId)
  | deliver (s : SubId) (e : Envelope)
  | fail (s : SubId) (e : NetworkError)
  | cancel (s : SubId)
  | ring (s : SubId) (generation : Nat)
  | cancelAll (sid : SessionId)
  | cancelToken (t : TokenId)
  | register (sid : SessionId) (s : SubId)
  | handleWith (s : SubId) (k : HookId)
  | timeoutAfter (s : SubId) (ms : Nat)
  | timeoutWith (s : SubId) (ms : Nat) (k : HookId)
  -- While a session is configured.
  | subscribe (key : Key) (kind : Kind)
  | addHook (slot : Slot) (k : HookId)
  | defaultTimeout (ms : Nat)
  | configured
  -- Answers to the frame on top.
  | granted (lease : LeaseId)
  | declined (e : SubscribeError)
  | unsubscribed
  | hookReplied (r : Hub.HookReply)
  | postReplied (r : Hub.PostReply)
deriving DecidableEq, Repr

namespace Hub

def step (h : Hub) : Hub :=
  match h.stack with
  | .settlingEvent s e :: _ => h.pop.settleEvent s e
  | .settlingTimeout s :: _ => h.pop.settleTimeout s
  | .reportingCancel s :: _ => h.pop.reportCancel s
  | .releasing sid rest count :: _ => h.pop.releaseStep sid rest count
  | .entering sid :: _ => h.enter sid
  | .driving sid :: _ => h.drive sid
  | _ => h

/-- Time passes only while nothing is under way, never backwards and never beyond a pending
alarm. -/
def mayPass (h : Hub) (moment : Nat) : Bool :=
  h.stack.isEmpty && h.clock ≤ moment &&
    h.subs.all fun s => s.countdown.due.all fun due => moment ≤ due

/-- An alarm rings at its moment or later; one that is no longer pending may be given up at any
time. -/
def mayRing (h : Hub) (s : SubId) (generation : Nat) : Bool :=
  !(h.sub s).countdown.isPending generation || (h.sub s).countdown.due.all fun due => due ≤ h.clock

def mayRun (h : Hub) (sid : SessionId) : Bool :=
  sid < h.sessions.length && !h.isRunning sid && !(h.session sid).isOver

def isReachable (h : Hub) (sid : SessionId) : Bool :=
  sid < h.sessions.length && (h.session sid).phase != .unopened &&
    (h.session sid).phase != .forgone

def call? (h : Hub) : Move → Option Hub
  | .step => none
  | .pass moment => if h.mayPass moment then some { h with clock := moment } else none
  | .newToken => some { h with tokens := h.tokens ++ [{}] }
  | .newModal => some { h with modals := h.modals ++ [{}] }
  | .openSession token modal => some { h with sessions := h.sessions ++ [{ token, modal }] }
  | .configure sid =>
    if sid < h.sessions.length && (h.session sid).phase == .unopened && !h.isRunning sid then
      some (h.prepare sid)
    else none
  | .run sid => if h.mayRun sid then some (h.push (.entering sid)) else none
  | .drop sid => if h.mayRun sid then some (h.drop sid) else none
  | .deliver s e => if s < h.subs.length then some (h.deliver s e) else none
  | .fail s e => if s < h.subs.length then some (h.fail s e) else none
  | .cancel s => if s < h.subs.length then some (h.cancel s) else none
  | .ring s generation =>
    if s < h.subs.length && h.mayRing s generation then some (h.ring s generation) else none
  | .cancelAll sid => if h.isReachable sid then some (h.cancelAll sid) else none
  | .cancelToken t => if t < h.tokens.length then some (h.cancelToken t) else none
  | .register sid s =>
    if h.isReachable sid && s < h.subs.length then some (h.register sid s) else none
  | .handleWith s k =>
    if s < h.subs.length then some (h.onSub s fun sub => { sub with handler := some k }) else none
  | .timeoutAfter s ms => if s < h.subs.length then some (h.setTimeout s ms) else none
  | .timeoutWith s ms k =>
    if s < h.subs.length then
      some ((h.onSub s fun sub => { sub with timeoutHandler := some k }).setTimeout s ms)
    else none
  | .subscribe key kind =>
    match h.stack with
    | .configuring sid :: _ => some (h.subscribe sid key kind)
    | _ => none
  | .addHook slot k =>
    match h.stack with
    | .configuring sid :: _ => some (h.onSession sid fun x => { x with hooks := x.hooks.add k slot })
    | _ => none
  | .defaultTimeout ms =>
    match h.stack with
    | .configuring sid :: _ => some (h.onSession sid fun x => { x with timeout := some ms })
    | _ => none
  | .configured =>
    match h.stack with
    | .configuring sid :: _ => some (h.pop.configured sid)
    | _ => none
  | .granted lease =>
    match h.stack with
    | .subscribing s :: _ => some (h.pop.grant s lease)
    | _ => none
  | .declined e =>
    match h.stack with
    | .subscribing s :: _ => some (h.pop.decline s e)
    | _ => none
  | .unsubscribed =>
    match h.stack with
    | .unsubscribing _ :: _ => some h.pop
    | _ => none
  | .hookReplied r =>
    match h.stack with
    | .hook sid k _ :: _ => some (h.pop.hookReplied sid k r)
    | _ => none
  | .postReplied r =>
    match h.stack with
    | .posting sid :: _ => some (h.pop.postReplied sid r)
    | _ => none

/-- The hub after a move; none if the move is not possible now. -/
def move? (h : Hub) (m : Move) : Option Hub :=
  if h.isBusy then
    match m with
    | .step => some h.step
    | _ => none
  else h.call? m

end Hub

end Aftermath
