import Aftermath.Rehearsal.Describe

/-! What the actions of a script do. An action replies at once, or puts a call or a batch on the
contexts, whose reply comes later. -/

namespace Aftermath.Rehearsal.Stage

/-- Whether the innermost script is one whose publishing is not answered. -/
def isQuiet : List Context → Bool
  | [] => false
  | .scope _ _ :: _ | .body _ _ _ :: _ => true
  | .top :: _ | .script _ _ :: _ => false
  | _ :: cs => isQuiet cs

def configuring? (st : Stage) : Option SessionId :=
  st.contexts.findSome? fun c => match c with
    | .scope sid _ => some sid
    | _ => none

def registry? (st : Stage) (name : String) : Option (SessionId × Player) := do
  let (sid, p) ← st.find? name
  if st.hub.isReachable sid then some (sid, p) else none

def sub? (st : Stage) (name : String) (n : Nat) : Option (SessionId × SubId) := do
  let (sid, p) ← st.find? name
  return (sid, ← p.subs[n]?)

def inspect (st : Stage) (sid : SessionId) (p : Player) : Inspection :=
  let x := st.hub.session sid
  { states := (st.hub.members sid).map fun s => (s.key, s.state)
    cancelled := x.cancelled
    subs := p.subs.map fun s => ((st.hub.sub s).state, x.members.contains s) }

def onMemory (st : Stage) (f : Memory → Stage) : Stage :=
  match st.transport with
  | .memory m => f m
  | .manual _ => st.answer .absent

def onManual (st : Stage) (f : Manual → Stage) : Stage :=
  match st.transport with
  | .manual m => f m
  | .memory _ => st.answer .absent

def setManual (st : Stage) (m : Manual) : Stage := { st with transport := .manual m }

def onSink (st : Stage) (n : Nat) (f : SubId → Stage) : Stage :=
  st.onManual fun m =>
    match m.sinks[n]? with
    | some s => f s
    | none => st.answer .absent

def hearken (st : Stage) (m : Memory) : Stage :=
  (List.range m.listeners.length).foldl
    (fun st l => if m.listens l then Stage.wake st (.listener l) else st) st

def emit (st : Stage) (m : Memory) (e : Envelope) (times : Nat) : Stage :=
  let st := times.repeat (fun st => st.onMemory fun m => st.act m (.publish e)) st
  if times = 0 then st else st.hearken m

def deciding (st : Stage) (m : Memory) (e : NetworkError) : Nat :=
  ({ hub := st.hub, memory := m : Loopback }.disconnect e).1

def disconnect (st : Stage) (m : Memory) (o : Occasion) (e : NetworkError) (decided : Nat) : Stage :=
  (st.occur m o).line ⟨.warn, "in-memory connection dropped", [("live", toString m.live.length),
    ("decided", toString decided), ("error", e.text)]⟩

/-- A new session waits for its first run, unless it runs only when it is polled. -/
def enqueue (st : Stage) (sid : SessionId) (polled : Bool) : Stage :=
  (if polled then st else st.spawn (.session sid)).answer .nothing

def start (st : Stage) (name : String) (mode : Mode) (command : String) (polled : Bool)
    (scope : List ScopeItem) : Stage :=
  let sid := st.players.length
  let player : Player := { name, mode, command, polled, scope }
  let st := { st with players := st.players ++ [player] }
  match mode with
  | .start _ => (st.move (.openSession none none)).call (.configure sid) (.started sid)
  | .token t =>
    let (t, st) := st.token t
    (st.move (.openSession (some t) none)).enqueue sid polled
  | .modalRun m | .modalPost m =>
    let (m, st) := st.modal m
    (st.move (.openSession none (some m))).enqueue sid polled
  | .run | .post => (st.move (.openSession none none)).enqueue sid polled

/-- Lets go of a session: its future vanishes, its task is given up, or its handle is lost. -/
def drop (st : Stage) (sid : SessionId) (p : Player) : Stage :=
  match p.mode with
  | .start _ => (st.onPlayer sid fun p => { p with held := false }).answer (.bool p.held)
  | _ =>
    if p.dropped || (p.polled && !st.hub.mayRun sid) then st.answer (.bool false)
    else
      let st := st.onPlayer sid fun p => { p with dropped := true }
      if p.polled then (st.unpark sid).call (.drop sid) .dropped
      else if (st.hub.session sid).isOver then st.answer (.bool true)
      else
        let st := st.onPlayer sid fun p => { p with aborting := true }
        (if st.hub.isRunning sid then st else st.wake (.session sid)).answer (.bool true)

def perform (st : Stage) (a : Action) : Stage :=
  match a with
  | .publish e times => st.onMemory fun m =>
    let count := if times = 0 then 0 else m.bus.subscriberCount
    let quiet := isQuiet st.contexts
    (st.emit m e times).answer (if quiet then .nothing else .count count)
  | .failNextPost e => st.onMemory fun m =>
    (st.act m (.arrange (.failPost e))).answer .nothing
  | .reactEmit after e => st.onMemory fun m =>
    (st.act m (.arrange (.react (.emit after e)))).answer .nothing
  | .reactDisconnect after e => st.onMemory fun m =>
    (st.act m (.arrange (.react (.disconnect after e)))).answer .nothing
  | .refuse key reason => st.onMemory fun m =>
    (st.act m (.arrange (.refuse key reason))).answer .nothing
  | .latency ms => st.onMemory fun m =>
    (st.act m (.arrange (.delayPosts ms))).answer .nothing
  | .disconnect e => st.onMemory fun m =>
    let decided := st.deciding m e
    (st.disconnect m (.act (.disconnect e)) e decided).answer (.count decided)
  | .reconnect => st.onMemory fun m =>
    (st.act m .reconnect).answer .nothing
  | .connection => st.onMemory fun m =>
    st.answer (.connection m.connected m.live.length m.posted)
  | .describeConnection => st.onMemory fun m => st.answer (.text m.describe)
  | .onSubscribe n actions refusal down => st.onManual fun m =>
    (st.setManual { m with onSubscribe := (n, actions, refusal, down) :: m.onSubscribe }).answer
      .nothing
  | .onUnsubscribe n actions => st.onManual fun m =>
    (st.setManual { m with onUnsubscribe := (n, actions) :: m.onUnsubscribe }).answer .nothing
  | .onPost n actions latency later error => st.onManual fun m =>
    (st.setManual { m with onPost := (n, actions, latency, later, error) :: m.onPost }).answer
      .nothing
  | .deliver n e => st.onSink n fun s => st.call (.deliver s e) .answer
  | .fail n e => st.onSink n fun s => st.call (.fail s e) .answer
  | .deliverAll e => st.onManual fun m => st.push (.sweep m.sinks (.inl e) [])
  | .failAll e => st.onManual fun m => st.push (.sweep m.sinks (.inr e) [])
  | .sink n => st.onSink n fun s =>
    st.answer (.sink (st.hub.sub s).key (st.hub.sub s).isActive)
  | .describeSink n => st.onSink n fun s => st.answer (.text (st.describeSink s))
  | .start name mode command polled scope => st.start name mode command polled scope
  | .poll name =>
    match st.find? name with
    | some (sid, p) =>
      if p.polled && !p.dropped && st.hub.mayRun sid then st.call (.run sid) (.polled sid)
      else st.answer .absent
    | none => st.answer .absent
  | .drop name =>
    match st.find? name with
    | some (sid, p) => st.drop sid p
    | none => st.answer (.bool false)
  | .cancel name =>
    match st.registry? name with
    | some (sid, _) => st.call (.cancelAll sid) .answer
    | none => st.answer .absent
  | .session name =>
    match st.find? name with
    | some (sid, p) =>
      if p.held then
        st.answer (.session (st.hub.session sid).isOver (st.hub.session sid).members.length)
      else st.answer .absent
    | none => st.answer .absent
  | .inspect name =>
    match st.registry? name with
    | some (sid, p) => st.answer (.inspection (st.inspect sid p))
    | none => st.answer .absent
  | .sub name n =>
    match st.sub? name n with
    | some (_, s) => st.answer (.sub (st.hub.sub s))
    | none => st.answer .absent
  | .cancelSub name n =>
    match st.sub? name n with
    | some (_, s) => st.call (.cancel s) .answer
    | none => st.answer .absent
  | .chainSub name n l =>
    match st.sub? name n with
    | some (sid, s) =>
      let st := st.link sid n s l
      st.answer (.text (st.hub.sub s).state.name)
    | none => st.answer .absent
  | .describeSub name n =>
    match st.sub? name n with
    | some (_, s) => st.answer (.text (st.describeSub s))
    | none => st.answer .absent
  | .register name n into =>
    match st.sub? name n, st.registry? into with
    | some (_, s), some (sid, _) => st.call (.register sid s) (.members sid)
    | _, _ => st.answer .absent
  | .describeRegistry name =>
    match st.registry? name with
    | some (sid, _) => st.answer (.text (st.describeRegistry sid))
    | none => st.answer .absent
  | .scopeLength =>
    match st.configuring? with
    | some sid => st.answer (.count (st.hub.members sid).length)
    | none => st.answer .absent
  | .describeScope =>
    match st.configuring? with
    | some sid => st.answer (.text (st.describeScope sid))
    | none => st.answer .absent
  | .cancelToken name =>
    let (t, st) := st.token name
    (st.move (.cancelToken t)).answer .nothing
  | .token name =>
    let (t, st) := st.token name
    st.answer (.bool (st.hub.token t).cancelled)
  | .busy name =>
    let (m, st) := st.modal name
    st.answer (.bool (st.hub.modal m).busy)
  | .busySeen name =>
    let (m, st) := st.modal name
    let flag := st.hub.modal m
    let changed := match st.seen.lookup name with
      | some v => v != flag.version
      | none => false
    { st with seen := (name, flag.version) :: st.seen }.answer (.seen changed flag.busy)
  | .describeModal name =>
    let (m, st) := st.modal name
    st.answer (.text (st.describeModal m))
  | .coordinator => st.answer (.coordinator st.hub.settings.defaultTimeout)
  | .describeCoordinator => st.answer (.text st.describeCoordinator)
  | .batch actions => st.push (.batch actions [])

end Aftermath.Rehearsal.Stage
