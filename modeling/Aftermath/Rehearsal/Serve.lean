import Aftermath.Rehearsal.Perform

/-! What the surroundings of the hub do when it calls them: the transport is asked for
subscriptions, gets leases back and takes commands; hooks begin, or go on where they waited. -/

namespace Aftermath.Rehearsal.Stage

def subscribe (st : Stage) (s : SubId) : Stage :=
  let key := (st.hub.sub s).key
  match st.transport with
  | .memory m =>
    match m.subscribe key s with
    | .error _ => st.act m .serve
    | .ok (l, _) => (st.spawn (.listener l)).act m .serve
  | .manual m =>
    let n := m.sinks.length
    let (actions, refusal, down) := (m.onSubscribe.lookup n).getD ([], none, none)
    let st := st.setManual { m with sinks := m.sinks ++ [s],
                                    onSubscribe := m.onSubscribe.filter fun x => x.1 != n }
    (st.noteWire (.subscribe n key)).push (.script actions (.grant n key refusal down))

def unsubscribe (st : Stage) (l : LeaseId) : Stage :=
  match st.transport with
  | .memory m => (if m.listens l then st.wake (.listener l) else st).act m .serve
  | .manual m =>
    let actions := (m.onUnsubscribe.lookup l).getD []
    let st := st.setManual { m with onUnsubscribe := m.onUnsubscribe.filter fun x => x.1 != l }
    (st.noteWire (.unsubscribe l)).push (.script actions .unsubscribed)

/-- Lets a session wait for a moment; `c` goes on from there. A session that is polled has no task
that the moment could wake. -/
def park (st : Stage) (sid : SessionId) (ms : Nat) (c : Context) : Stage :=
  let due := st.now + ms
  let st := { st with parked := (sid, due, c) :: st.parked }
  if (st.player? sid).any Player.polled then st
  else { st with agenda := st.agenda.sleep due (.session sid) }

def post (st : Stage) (sid : SessionId) : Stage :=
  match st.transport with
  | .memory m =>
    match m.latency with
    | none | some 0 => st.push (.mailing sid)
    | some ms => (st.park sid ms (.mailing sid)).move (.postReplied .suspended)
  | .manual m =>
    let n := m.posts
    let (actions, latency, later, error) := (m.onPost.lookup n).getD ([], none, [], none)
    let st := st.setManual { m with posts := n + 1, onPost := m.onPost.filter fun x => x.1 != n }
    let command := (st.player? sid).map Player.command
    (st.noteWire (.post n (command.getD ""))).push
      (.script actions (.sent sid latency later error))

def postReply : Option PostError → Hub.PostReply
  | none => .acknowledged
  | some e => .failed e

def receivePost (st : Stage) (m : Memory) (sid : SessionId) : Stage :=
  let command := ((st.player? sid).map Player.command).getD ""
  let st := st.line ⟨.debug, "in-memory post", [("command", "Cmd")]⟩
  let st := match (m.receivePost command).1 with
    | .error _ => st
    | .ok reactions => (List.range reactions.length).foldl (fun (st : Stage) (i : Nat) =>
      st.spawn (.reaction (st.duties.length + i))) st
  st.act m (.receive command)

def beginHook (st : Stage) (sid : SessionId) (k : HookId) (arg : Argument) : Stage :=
  match st.hooks[k]?, st.player? sid with
  | some text, some p =>
    (st.noteHook p.name text.label (.began arg)).push (.body sid text.label text.body)
  | _, _ => st.move (.hookReplied .done)

/-- Goes on with what a session waits for, if its moment has come. -/
def resume (st : Stage) (sid : SessionId) (due : Nat) (c : Context) (suspend : Move) : Stage :=
  if due ≤ st.now then (st.unpark sid).push c else st.move suspend

def serve (st : Stage) : Stage :=
  match st.hub.stack with
  | .configuring sid :: _ => st.push (.scope sid (((st.player? sid).map Player.scope).getD []))
  | .subscribing s :: _ => st.subscribe s
  | .unsubscribing l :: _ => st.unsubscribe l
  | .hook sid k arg :: _ =>
    match st.parked.lookup sid with
    | some (due, c) => st.resume sid due c (.hookReplied .suspended)
    | none => st.beginHook sid k arg
  | .posting sid :: _ =>
    match st.parked.lookup sid with
    | some (due, c) => st.resume sid due c (.postReplied .suspended)
    | none => st.post sid
  | _ => st

end Aftermath.Rehearsal.Stage
