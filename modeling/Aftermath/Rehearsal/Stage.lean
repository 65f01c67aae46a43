import Aftermath.Agenda
import Aftermath.Backend
import Aftermath.Rehearsal.Reply
import Aftermath.Rehearsal.Script

/-! The stage on which a script is rehearsed: a hub, its transport, virtual time and everything the
script has going on. The hub changes by its moves only; what they note down wakes tasks and is
written into the log. -/

namespace Aftermath.Rehearsal

inductive Diary where
  | hook (session : String) (label : String)
  | wire
deriving DecidableEq, Repr

/-- What follows when a call into the hub is over. -/
inductive Return where
  | nothing
  | answer
  | members (sid : SessionId)
  | subscribed (sid : SessionId) (s : SubId) (chain : List Link)
  | started (sid : SessionId)
  | polled (sid : SessionId)
  | dropped
  | ran (sid : SessionId)

inductive Closing where
  | grant (n : Nat) (key : Key) (refusal down : Option String)
  | unsubscribed
  | sent (sid : SessionId) (latency : Option Nat) (later : List Action) (error : Option PostError)
  | posted (error : Option PostError)

/-- What is going on outside the hub; each waits for what lies above it. -/
inductive Context where
  | top
  | did (diary : Diary) (action : String)
  | batch (rest : List Action) (replies : List Reply)
  | sweep (rest : List SubId) (blow : Envelope ⊕ NetworkError) (replies : List Reply)
  /-- A call into the hub, over when the stack is down to `depth` again. -/
  | call (depth : Nat) (after : Return)
  | scope (sid : SessionId) (rest : List ScopeItem)
  | body (sid : SessionId) (label : String) (rest : List Entry)
  | script (rest : List Action) (closing : Closing)
  | mailing (sid : SessionId)

inductive Task where
  | session (sid : SessionId)
  | alarm (s : SubId) (generation : Nat)
  | listener (l : LeaseId)
  | reaction (n : Nat)
deriving DecidableEq, Repr

/-- A session of the script. It has the number of its session in the hub. -/
structure Player where
  name : String
  mode : Mode
  command : String
  polled : Bool
  scope : List ScopeItem
  subs : List SubId := []
  /-- Whether the handle of a started session is held. -/
  held : Bool := false
  dropped : Bool := false
  /-- Whether it is to be given up when it runs next. -/
  aborting : Bool := false
  /-- Whether it was cancelled while it ran. -/
  woken : Bool := false
  told : Bool := false

structure HookText where
  sid : SessionId
  slot : Option Slot
  label : String
  body : List Entry

structure Manual where
  sinks : List SubId := []
  posts : Nat := 0
  onSubscribe : List (Nat × List Action × Option String × Option String) := []
  onUnsubscribe : List (Nat × List Action) := []
  onPost : List (Nat × List Action × Option Nat × List Action × Option PostError) := []

inductive Transport where
  | memory (m : Memory)
  | manual (m : Manual)

structure Stage where
  hub : Hub
  agenda : Agenda Task := {}
  transport : Transport
  mails : List (SessionId × Nat) := []
  duties : List Duty := []
  players : List Player := []
  hooks : List HookText := []
  /-- Hooks and posts that wait, each with its session and the moment it waits for. -/
  parked : List (SessionId × Nat × Context) := []
  contexts : List Context := []
  reply : Option Reply := none
  result : Reply := .nothing
  tokens : List String := []
  modals : List String := []
  seen : List (String × Nat) := []
  log : List (String × Noted) := []
  wire : List Wired := []
  lines : List Line := []

namespace Stage

def now (st : Stage) : Nat := st.agenda.now

def push (st : Stage) (c : Context) : Stage := { st with contexts := c :: st.contexts }

def pop (st : Stage) : Stage := { st with contexts := st.contexts.tail }

def answer (st : Stage) (r : Reply) : Stage := { st with reply := some r }

def line (st : Stage) (l : Line) : Stage := { st with lines := l :: st.lines }

def noteHook (st : Stage) (session label : String) (note : HookNote) : Stage :=
  { st with log := (session, ⟨label, note, st.now⟩) :: st.log }

def noteWire (st : Stage) (note : WireNote) : Stage :=
  { st with wire := ⟨note, st.now⟩ :: st.wire }

def player? (st : Stage) (sid : SessionId) : Option Player := st.players[sid]?

def onPlayer (st : Stage) (sid : SessionId) (f : Player → Player) : Stage :=
  { st with players := st.players.modify sid f }

/-- The youngest session of a name. -/
def find? (st : Stage) (name : String) : Option (SessionId × Player) :=
  (st.players.zipIdx.reverse.find? fun p => p.1.name == name).map fun p => (p.2, p.1)

def spawn (st : Stage) (t : Task) : Stage := { st with agenda := st.agenda.spawn t }

def wake (st : Stage) (t : Task) : Stage :=
  if st.agenda.ready.contains t then st else st.spawn t

def wakeSession (st : Stage) (sid : SessionId) : Stage :=
  match st.player? sid with
  | some p => if p.polled then st else st.wake (.session sid)
  | none => st

def unpark (st : Stage) (sid : SessionId) : Stage :=
  { st with parked := st.parked.filter fun p => p.1 != sid,
            agenda := st.agenda.forget fun t => t == .session sid }

/-- What a happening in the hub sets going outside it. -/
def attend (st : Stage) (x : Happening) : Stage :=
  let st := { st with lines := (x.line? "Cmd").toList ++ st.lines }
  match x with
  | .reported sid _ =>
    if (st.hub.session sid).phase = .awaiting && !st.hub.isRunning sid then st.wakeSession sid
    else st
  | .revoked sid =>
    if st.hub.isRunning sid then st.onPlayer sid fun p => { p with woken := true }
    else if (st.hub.session sid).isUnderWay then st.wakeSession sid
    else st
  | .armed s generation _ => st.spawn (.alarm s generation)
  | .disarmed s generation =>
    let alarm := Task.alarm s generation
    if st.agenda.timers.any fun t => t.2 == alarm then
      { st with agenda := (st.agenda.forget (· == alarm)).spawn alarm }
    else st
  | .closing m =>
    match st.modals[m]? with
    | some name => st.noteHook name "close" .closed
    | none => st
  | _ => st

/-- The stage with a new hub, and what this sets going. -/
def become (st : Stage) (hub : Hub) : Stage :=
  let fresh := hub.journal.take (hub.journal.length - st.hub.journal.length)
  fresh.reverse.foldl attend { st with hub }

def setMemory (st : Stage) (m : Memory) : Stage := { st with transport := .memory m }

/-- What happens to the hub, its connection in memory, the posts on their way and the duties of the
server. -/
def occur (st : Stage) (m : Memory) (o : Occasion) : Stage :=
  match { loop := ⟨st.hub, m⟩, mails := st.mails, duties := st.duties : Backend }.occur? o with
  | none => st
  | some x =>
    { st.setMemory x.loop.memory with mails := x.mails, duties := x.duties }.become x.loop.hub

def act (st : Stage) (m : Memory) (a : Act) : Stage := st.occur m (.act a)

def move (st : Stage) (m : Move) : Stage :=
  match st.transport with
  | .memory c => st.act c (.move m)
  | .manual _ =>
    match st.hub.move? m with
    | none => st
    | some hub => st.become hub

def call (st : Stage) (m : Move) (r : Return) : Stage :=
  (st.push (.call st.hub.stack.length r)).move m

/-- The number of a token, which is made when it is first named. -/
def token (st : Stage) (name : String) : TokenId × Stage :=
  match st.tokens.idxOf? name with
  | some t => (t, st)
  | none => (st.tokens.length, { st with tokens := st.tokens ++ [name] }.move .newToken)

def modal (st : Stage) (name : String) : ModalId × Stage :=
  match st.modals.idxOf? name with
  | some m => (m, st)
  | none => (st.modals.length, { st with modals := st.modals ++ [name] }.move .newModal)

def addHook (st : Stage) (k : HookText) : Stage := { st with hooks := st.hooks ++ [k] }

def linkLabel (word : String) (n : Nat) : Option String → String
  | none => word ++ "[" ++ toString n ++ "]"
  | some tag => word ++ "[" ++ toString n ++ "]/" ++ tag

def link (st : Stage) (sid : SessionId) (n : Nat) (s : SubId) : Link → Stage
  | .handler body tag =>
    let k := st.hooks.length
    (st.addHook ⟨sid, none, linkLabel "handler" n tag, body⟩).move (.handleWith s k)
  | .timeoutHandler ms body tag =>
    let k := st.hooks.length
    (st.addHook ⟨sid, none, linkLabel "timeout" n tag, body⟩).move (.timeoutWith s ms k)
  | .timeout ms => st.move (.timeoutAfter s ms)

/-- The result of a session, as its mode shows it. -/
def result? (st : Stage) (sid : SessionId) : Option Result := do
  let p ← st.player? sid
  let e ← (st.hub.session sid).ending?
  let asked := match p.mode with
    | .post | .modalPost _ | .start true => true
    | _ => false
  return match p.mode, e with
    | .start _, .panicked text => .whole (.failed (.aborted text))
    | _, .resolved o => if asked then .positive o.isPositive else .whole (.resolved o)
    | _, e => .whole e

end Stage

end Aftermath.Rehearsal
