import Aftermath.Hub.Decide

/-! How a session moves on. Each step looks at the phase, does one thing and sets the next phase;
what a release or a hook has to do first stands above the session on the stack. -/

namespace Aftermath.Hub

/-- Begins to configure a session; from here on it has a registry that others can reach. -/
def prepare (h : Hub) (sid : SessionId) : Hub :=
  let x := h.session sid
  let cancelled := x.token.any fun t => (h.token t).cancelled
  let h := match x.token with
    | none => h
    | some t => { h with tokens := h.tokens.modify t fun k =>
        { k with sessions := sid :: k.sessions } }
  (h.onSession sid fun x => { x with cancelled, holders := 1, phase := .configuring }).push
    (.configuring sid)

def configured (h : Hub) (sid : SessionId) : Hub :=
  (h.setPhase sid .prepared).note (.configured sid (h.session sid).members.length)

def writeBusy (h : Hub) (sid : SessionId) (b : Bool) : Hub :=
  match (h.session sid).modal with
  | none => h
  | some m => h.setBusy m b

/-- The session's ending is certain: whatever is left is cancelled. -/
def close (h : Hub) (sid : SessionId) (e : Ending) : Hub :=
  (h.setPhase sid (.closing e)).release sid .ended

def conclude (h : Hub) (sid : SessionId) (e : Ending) : Hub := (h.note (.ending sid e)).close sid e

def begin (h : Hub) (sid : SessionId) (k : HookId) (arg : Argument) : Hub :=
  ((h.onSession sid fun x => { x with running := some (k, arg) }).note (.began sid k arg)).push
    (.hook sid k arg)

def handleFailure (h : Hub) (sid : SessionId) (e : PostError) : Hub :=
  match (h.session sid).hooks.forError e with
  | ([], _) =>
    (h.note (.unheard sid e.category e.text)).conclude sid (.failed (.unhandled e.category e.text))
  | (k :: ks, arg) =>
    (h.note (.handling sid e.category e.text (ks.length + 1))).setPhase sid
      (.handling (k :: ks) arg (.resolved (.errored e)))

/-- The failure of a session that hears of a subscription it does not hold. -/
def unknownSubscription : Failure := .aborted "resolution reported for unknown subscription"

/-- A report that decides the session has been taken and all other subscriptions are cancelled. -/
def resolve (h : Hub) (sid : SessionId) (r : Report) : Hub :=
  let x := h.session sid
  match r with
  | .fired s e =>
    if x.members.contains s then
      let sub := h.sub s
      let handler := sub.handler.or (x.hooks.forKind sub.kind)
      let outcome :=
        if sub.kind.isRejection then Outcome.negative (.rejected e.key)
        else .positive (some e.key)
      (h.note (.onEvent sid e.key sub.kind handler.isSome)).setPhase sid
        (.handling handler.toList (.event e) (.resolved outcome))
    else h.conclude sid (.failed unknownSubscription)
  | .timedOut s =>
    if x.members.contains s then
      let sub := h.sub s
      let handler := sub.timeoutHandler.or x.hooks.anyTimeout
      (h.note (.onTimeout sid sub.key)).setPhase sid
        (.handling handler.toList (.timeout sub.key) (.resolved (.negative (.timedOut sub.key))))
    else h.conclude sid (.failed unknownSubscription)
  | .lost e => h.handleFailure sid (.network e)
  | .cancelled _ => h.setPhase sid .awaiting

def await (h : Hub) (sid : SessionId) : Hub :=
  let x := h.session sid
  match x.reports with
  | [] =>
    if x.holders = 0 then h.conclude sid (.resolved (.negative .cancelled))
    else h.pop.reply .pending
  | .cancelled s :: rs =>
    let h := (h.onSession sid fun x => { x with reports := rs }).note (.onCancelled sid s)
    if h.allCancelled sid && !x.isSettled then (h.setPhase sid .deserted).release sid .deserted
    else h
  | r :: rs =>
    (h.onSession sid fun x => { x with reports := rs, phase := .resolving r }).release sid .ended

/-- The last step: the modal surface is free again and closes after a positive outcome. -/
def leave (h : Hub) (sid : SessionId) (e : Ending) : Hub :=
  let h := match (h.session sid).modal, e with
    | none, _ => h
    | some m, .panicked _ => h.setBusy m false
    | some m, e =>
      let h := h.setBusy m false
      (if e.isPositive then h.note (.closing m) else h).setBusy m false
  ((h.onSession sid fun x => { x with phase := .ended e, holders := x.holders - 1 }).pop).reply .finished

def drive (h : Hub) (sid : SessionId) : Hub :=
  let x := h.session sid
  match x.running with
  | some (k, arg) => h.push (.hook sid k arg)
  | none =>
    match x.phase with
    | .checking =>
      if !h.allActive sid && !x.isSettled then (h.setPhase sid .unready).release sid .unready
      else if x.isSettled then h.setPhase sid (.preparing [])
      else (h.writeBusy sid true).setPhase sid (.preparing x.hooks.beforePost)
    | .unready =>
      let e := h.firstError? sid
      let reason := match e with
        | some e => Reason.subscribeFailed e
        | none => .cancelled
      (h.note (.unready sid e)).conclude sid (.resolved (.negative reason))
    | .preparing (k :: ks) => (h.setPhase sid (.preparing ks)).begin sid k .nothing
    | .preparing [] =>
      if x.isSettled then (h.note (.decidedEarly sid)).setPhase sid .awaiting
      else ((h.note (.posting sid)).setPhase sid .posting).push (.posting sid)
    | .posting => h.push (.posting sid)
    | .acknowledging (k :: ks) => (h.setPhase sid (.acknowledging ks)).begin sid k .nothing
    | .acknowledging [] =>
      if x.members.isEmpty then h.conclude sid (.resolved (.positive none))
      else (if x.isSettled then h else h.armAll sid).setPhase sid .awaiting
    | .awaiting => h.await sid
    | .resolving r => h.resolve sid r
    | .refused e => h.handleFailure sid e
    | .unheard e =>
      (h.note (.unheard sid e.category e.text)).conclude sid
        (.failed (.unhandled e.category e.text))
    | .deserted => h.conclude sid (.resolved (.negative .cancelled))
    | .handling (k :: ks) arg e => (h.setPhase sid (.handling ks arg e)).begin sid k arg
    | .handling [] _ e => h.conclude sid e
    | .cancelling =>
      let count := match h.answer with
        | .count n => n
        | _ => 0
      (h.note (.withdrawn sid count)).conclude sid (.resolved (.negative .cancelled))
    | .closing e => h.leave sid e
    | .dropping =>
      (((h.writeBusy sid false).onSession sid fun x =>
        { x with phase := .dropped, holders := x.holders - 1 }).pop).reply .nothing
    | .unopened | .configuring | .prepared | .ended _ | .dropped | .forgone => h.pop.reply .finished

/-- A session begins to run: first it is configured, if it is new, and a cancellation goes before
everything else. -/
def enter (h : Hub) (sid : SessionId) : Hub :=
  let x := h.session sid
  if x.phase = .unopened then h.prepare sid
  else if x.cancelled then
    (((h.pop.push (.driving sid)).onSession sid fun x =>
      { x with running := none, phase := .cancelling })).release sid .cancelled
  else
    let h := h.pop.push (.driving sid)
    if x.phase = .prepared then h.setPhase sid .checking else h

/-- Gives a session up. One that has not begun to run only vanishes. -/
def drop (h : Hub) (sid : SessionId) : Hub :=
  let x := h.session sid
  if x.isUnderWay then
    ((h.push (.driving sid)).onSession sid fun x =>
      { x with running := none, phase := .dropping }).release sid .ended
  else h.setPhase sid (if x.phase = .unopened then .forgone else .dropped)

inductive HookReply where
  | done
  | failed (e : HookError)
  | panicked (text : String)
  | suspended
deriving DecidableEq, Repr

def hookReplied (h : Hub) (sid : SessionId) (k : HookId) (r : HookReply) : Hub :=
  let rest := h.onSession sid fun x => { x with running := none }
  match r with
  | .done => rest.note (.completed sid k)
  | .failed e => rest.conclude sid (.failed (.hook e))
  | .panicked text => rest.close sid (.panicked text)
  | .suspended => h.pop.reply .pending

inductive PostReply where
  | acknowledged
  | failed (e : PostError)
  | suspended
deriving DecidableEq, Repr

/-- Takes the reply to a post. A failure that comes after the session was decided is told to nobody,
unless nobody would hear of such failures at all. -/
def postReplied (h : Hub) (sid : SessionId) (r : PostReply) : Hub :=
  let x := h.session sid
  match r with
  | .acknowledged =>
    (h.note (.acknowledged sid)).setPhase sid (.acknowledging x.hooks.acknowledge)
  | .failed e =>
    let h := h.note (.postFailed sid e)
    if !x.isSettled then (h.setPhase sid (.refused e)).release sid (.refused e)
    else if (x.hooks.forError e).1.isEmpty then (h.setPhase sid (.unheard e)).release sid .ended
    else (h.note (.belated sid e)).setPhase sid .awaiting
  | .suspended => h.pop.reply .pending

end Aftermath.Hub
