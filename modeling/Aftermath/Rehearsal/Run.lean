import Aftermath.Rehearsal.Context

/-! Rehearsing a script. In each small step the hub does its own work, or the innermost context goes
on, or the next task runs; when nothing is left to do, time may pass. -/

namespace Aftermath.Rehearsal

namespace Stage

/-! Tasks. -/

def runListener (st : Stage) (m : Memory) (l : LeaseId) : Stage :=
  match m.listeners[l]? with
  | none => st
  | some x =>
    let heard := (m.listen l).1
    let st := heard.lags.foldl (fun st n => Stage.line st
      ⟨.warn, "listener lagged, events may be missed",
        [("key", x.key.label), ("skipped", toString n)]⟩) st
    match heard.result with
    | .event _ =>
      ((st.line ⟨.trace, "delivering event", [("key", x.key.label)]⟩).push
        (.call st.hub.stack.length .nothing)).act m (.listen l)
    | _ => st.act m (.listen l)

def runReaction (st : Stage) (m : Memory) (n : Nat) : Stage :=
  match st.duties[n]? with
  | none => st
  | some d =>
    if st.now < d.due then { st with agenda := st.agenda.sleep d.due (.reaction n) }
    else
      match d.reaction with
      | .emit _ e =>
        ((st.occur m (.due n)).hearken m).line ⟨.debug, "in-memory server emitted event",
          [("key", e.key.label), ("receivers", toString m.bus.subscriberCount)]⟩
      | .disconnect _ e => st.disconnect m (.due n) e (st.deciding m e)

def runTask (st : Stage) (t : Task) : Stage :=
  match t, st.transport with
  | .session sid, _ =>
    if st.hub.mayRun sid then
      if (st.player? sid).any Player.aborting then (st.unpark sid).call (.drop sid) .nothing
      else st.call (.run sid) (.ran sid)
    else st
  | .alarm s generation, _ =>
    let c := (st.hub.sub s).countdown
    match c.isPending generation, c.due with
    | true, some due =>
      if st.now < due then { st with agenda := st.agenda.sleep due t }
      else st.call (.ring s generation) .nothing
    | _, _ => st.call (.ring s generation) .nothing
  | .listener l, .memory m => st.runListener m l
  | .reaction n, .memory m => st.runReaction m n
  | _, _ => st

/-! The whole. -/

/-- A small step; none if nothing is left to do at this moment. -/
def tick? (st : Stage) : Option Stage :=
  if st.hub.isBusy then some (st.move .step)
  else
    match st.reply, st.contexts with
    | some r, _ :: _ => some ({ st with reply := none }.give r)
    | some _, [] => some { st with reply := none }
    | none, _ :: _ => some st.go
    | none, [] =>
      match st.agenda.next? with
      | none => none
      | some (t, agenda) => some ({ st with agenda }.runTask t)

def settle : Nat → Stage → Stage
  | 0, st => st
  | fuel + 1, st =>
    match st.tick? with
    | none => st
    | some st => settle fuel st

def passTo (st : Stage) (moment : Nat) : Stage :=
  { st with agenda := { st.agenda with now := moment } }.move (.pass moment)

/-- Lets time pass up to `target`, with a stop at every moment a task waits for. -/
def advance (fuel target : Nat) : Nat → Stage → Stage
  | 0, st => st
  | n + 1, st =>
    match st.agenda.elapse? target with
    | none => st.passTo target
    | some agenda =>
      advance fuel target n (settle fuel ({ st with agenda }.move (.pass agenda.now)))

def finished (st : Stage) : List (SessionId × String × Result) :=
  st.players.zipIdx.filterMap fun (p, sid) =>
    let hidden := match p.mode with
      | .start _ => !p.held
      | _ => p.polled
    if p.told || hidden then none else (st.result? sid).map fun r => (sid, p.name, r)

def groupLog (log : List (String × Noted)) : List (String × List Noted) :=
  let names := (log.map Prod.fst).eraseDups
  names.map fun n => (n, (log.filter fun x => x.1 == n).map Prod.snd)

def shownLines (logs : Logs) (lines : List Line) : Option (List Json) :=
  match logs with
  | .none => none
  | .loud => some ((lines.filter fun l => l.level.isLoud).map Line.form)
  | .all => some (sortByText (lines.map Line.form))

def present (logs : Logs) (st : Stage) : Shown × Stage :=
  let done := st.finished
  let shown : Shown :=
    { time := st.now
      reply := st.result
      log := groupLog st.log.reverse
      wire := sortWire st.wire.reverse
      done := done.map Prod.snd
      lines := shownLines logs st.lines.reverse }
  let st := done.foldl (fun st d =>
    Stage.onPlayer st d.1 fun p => { p with told := true, held := false }) st
  (shown, { st with result := .nothing, log := [], wire := [], lines := [] })

def runStep (fuel : Nat) (logs : Logs) (st : Stage) (s : Step) : Shown × Stage :=
  let st := match s with
    | .advance ms => advance fuel (st.now + ms) fuel st
    | .act a => settle fuel ((st.push .top).perform a)
  st.present logs

def runSteps (fuel : Nat) (logs : Logs) : Stage → List Step → List Shown
  | _, [] => []
  | st, s :: ss =>
    let (x, st) := st.runStep fuel logs s
    x :: runSteps fuel logs st ss

def ofScript? (s : Script) : Option Stage := do
  let hub : Hub := { settings := s.settings }
  if s.manual then return { hub, transport := .manual {} }
  let bus ← Bus.new? (s.busCapacity.getD Bus.defaultCapacity)
  return { hub, transport := .memory { bus } }

end Stage

def Script.rehearse? (s : Script) : Option (List Shown) := do
  let st ← Stage.ofScript? s
  return Stage.runSteps s.fuel s.logs st s.steps

end Aftermath.Rehearsal
