import Aftermath.Hub.Basic

/-! How subscriptions leave `active` and how sessions are decided. A subscription first takes its
new state, then gives back its countdown and its lease, and only then claims its session; whoever
loses the claim ends cancelled. -/

namespace Aftermath.Hub

def settle (h : Hub) (sid : SessionId) (c : Claim) : Hub :=
  h.onSession sid fun x => if x.isSettled then x else { x with claim := some c }

def disarm (h : Hub) (s : SubId) : Hub :=
  let c := (h.sub s).countdown
  let h := h.onSub s fun sub => { sub with countdown := c.cancel }
  if c.isArmed then h.note (.disarmed s c.generation) else h

def startCountdown (h : Hub) (s : SubId) (ms : Nat) : Hub :=
  let sub := h.sub s
  if sub.isActive then
    let c := sub.countdown
    let h := if c.isArmed then h.note (.disarmed s c.generation) else h
    let c := c.arm (h.clock + ms)
    (h.onSub s fun sub => { sub with countdown := c }).note (.armed s c.generation (h.clock + ms))
  else h

/-- Arms a subscription: its countdown runs from now on. -/
def arm (fallback : Nat) (h : Hub) (s : SubId) : Hub :=
  let h := h.onSub s fun sub => { sub with armed := true }
  h.startCountdown s ((h.sub s).timeout.getD fallback)

def armAll (h : Hub) (sid : SessionId) : Hub :=
  let x := h.session sid
  x.members.foldl (arm (x.timeout.getD h.settings.defaultTimeout)) h

def giveBack (h : Hub) (s : SubId) (l : LeaseId) : Hub :=
  (h.note (.returned s l)).push (.unsubscribing l)

/-- Gives back the countdown and the lease of a subscription that has left `active`; `after` is
what remains to be done then. -/
def finish (h : Hub) (s : SubId) (after : Frame) : Hub :=
  let h := (h.disarm s).push after
  match (h.sub s).lease with
  | none => h
  | some l => (h.onSub s fun sub => { sub with lease := none }).giveBack s l

def deliver (h : Hub) (s : SubId) (e : Envelope) : Hub :=
  let sub := h.sub s
  if e.key ≠ sub.key then (h.note (.wrongKey sub.key e.key)).reply (.bool false)
  else if sub.isActive then (h.setState s .fired).finish s (.settlingEvent s e)
  else (h.note (.tooLate sub.key sub.state)).reply (.bool false)

def settleEvent (h : Hub) (s : SubId) (e : Envelope) : Hub :=
  let sub := h.sub s
  if (h.session sub.home).isSettled then
    ((h.setState s .cancelled).note (.outrun s sub.key)).reply (.bool false)
  else
    (((h.settle sub.home (.fired s e)).note (.fired s sub.key sub.kind)).report sub.home
      (.fired s e)).reply (.bool true)

def ring (h : Hub) (s : SubId) (generation : Nat) : Hub :=
  let sub := h.sub s
  match sub.countdown.ring? generation with
  | none => (h.note (.abandoned s generation)).reply .nothing
  | some c =>
    let h := h.onSub s fun sub => { sub with countdown := c }
    if sub.isActive then (h.setState s .timedOut).finish s (.settlingTimeout s)
    else h.reply .nothing

def settleTimeout (h : Hub) (s : SubId) : Hub :=
  let sub := h.sub s
  if (h.session sub.home).isSettled then
    ((h.setState s .cancelled).note (.lapsed s)).reply .nothing
  else
    (((h.settle sub.home (.timedOut s)).note (.expired s sub.key)).report sub.home
      (.timedOut s)).reply .nothing

def cancel (h : Hub) (s : SubId) : Hub :=
  if (h.sub s).isActive then (h.setState s .cancelled).finish s (.reportingCancel s)
  else h.reply (.bool false)

def reportCancel (h : Hub) (s : SubId) : Hub :=
  (h.report (h.sub s).home (.cancelled s)).reply (.bool true)

/-- Tells a subscription that the transport has failed: this may decide the session and leaves the
subscription as it is. -/
def fail (h : Hub) (s : SubId) (e : NetworkError) : Hub :=
  let sub := h.sub s
  if sub.isActive && !(h.session sub.home).isSettled then
    (((h.settle sub.home (.lost e)).note (.lost s sub.key e)).report sub.home (.lost e)).reply
      (.bool true)
  else h.reply (.bool false)

/-- Decides a session that is still undecided and cancels its subscriptions, here in the order in which
they were registered. Nobody is promised an order: a release keeps its subscriptions by name, and goes
through them in any. -/
def release (h : Hub) (sid : SessionId) (c : Claim) : Hub :=
  (h.settle sid c).push (.releasing sid (h.session sid).members 0)

/-- One step of a release; the answer is the number of subscriptions cancelled. -/
def releaseStep (h : Hub) (sid : SessionId) (rest : List SubId) (count : Nat) : Hub :=
  match rest with
  | [] => (if count = 0 then h else h.note (.released sid count)).reply (.count count)
  | s :: rest =>
    if (h.sub s).isActive then (h.push (.releasing sid rest (count + 1))).cancel s
    else h.push (.releasing sid rest count)

/-- Cancels a session as a whole; it takes notice when it runs next. -/
def cancelAll (h : Hub) (sid : SessionId) : Hub :=
  let h :=
    if (h.session sid).cancelled then h
    else (h.onSession sid fun x => { x with cancelled := true }).note (.revoked sid)
  h.release sid .cancelled

/-- Cancels the sessions of a token, without touching their subscriptions yet. -/
def cancelToken (h : Hub) (t : TokenId) : Hub :=
  let token := h.token t
  if token.cancelled then h
  else
    let h := { h with tokens := h.tokens.set t { token with cancelled := true } }
    token.sessions.foldl (fun h sid =>
      if (h.session sid).cancelled then h
      else (h.onSession sid fun x => { x with cancelled := true }).note (.revoked sid)) h

/-- Makes a subscription a member of a session; one that is decided already cancels it. -/
def register (h : Hub) (sid : SessionId) (s : SubId) : Hub :=
  let x := h.session sid
  let h := h.onSession sid fun x =>
    if x.members.contains s then x else { x with members := x.members ++ [s] }
  if x.isSettled then h.cancel s else h

def subscribe (h : Hub) (sid : SessionId) (key : Key) (kind : Kind) : Hub :=
  let s := h.subs.length
  let sub : Subscription := { key, kind, home := sid }
  let h := { h with subs := h.subs ++ [sub] }
  let h := h.onSession sid fun x => { x with holders := x.holders + 1 }
  (h.push (.subscribing s)).register sid s

/-- The transport granted a subscription. One that has ended meanwhile gives the lease back. -/
def grant (h : Hub) (s : SubId) (lease : LeaseId) : Hub :=
  let h := h.note (.granted s lease)
  if (h.sub s).isActive then h.onSub s fun sub => { sub with lease := some lease }
  else h.giveBack s lease

def decline (h : Hub) (s : SubId) (e : SubscribeError) : Hub :=
  let sub := h.sub s
  let h := (h.note (.ungranted s sub.key sub.kind e)).onSub s fun sub => { sub with error := some e }
  if sub.isActive then (h.setState s .cancelled).disarm s else h

def setTimeout (h : Hub) (s : SubId) (ms : Nat) : Hub :=
  let h := h.onSub s fun sub => { sub with timeout := some ms }
  if (h.sub s).armed then h.startCountdown s ms else h

end Aftermath.Hub
