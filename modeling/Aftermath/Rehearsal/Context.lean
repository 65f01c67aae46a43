import Aftermath.Rehearsal.Serve

/-! How the contexts go on: the innermost one takes its next item, or hands over what it came to. -/

namespace Aftermath.Rehearsal.Stage

def slotWord : Slot → String
  | .beforePost => "before_post"
  | .acknowledge => "acknowledge"
  | .serverError => "server_error"
  | .networkError => "network_error"
  | .anyEvent => "any_event"
  | .anyRejection => "any_rejection"
  | .anyTimeout => "any_timeout"

def runScope (st : Stage) (sid : SessionId) (rest : List ScopeItem) : Stage :=
  match rest with
  | [] => st.pop.move .configured
  | item :: rest =>
    let st := st.pop.push (.scope sid rest)
    match item with
    | .hook slot body =>
      let n := st.hooks.countP fun k => k.sid == sid && k.slot == some slot
      let k := st.hooks.length
      (st.addHook ⟨sid, some slot, slotWord slot ++ "#" ++ toString n, body⟩).move (.addHook slot k)
    | .defaultTimeout ms => st.move (.defaultTimeout ms)
    | .subscribe kind key chain =>
      st.call (.subscribe key kind) (.subscribed sid st.hub.subs.length chain)
    | .act a =>
      let name := ((st.player? sid).map Player.name).getD ""
      (st.push (.did (.hook name "configure") a.name)).perform a

def runBody (st : Stage) (sid : SessionId) (label : String) (rest : List Entry) : Stage :=
  let name := ((st.player? sid).map Player.name).getD ""
  match rest with
  | [] => (st.noteHook name label .ended).pop.move (.hookReplied .done)
  | .sleep ms :: rest =>
    let st := st.pop
    if ms = 0 then st.push (.body sid label rest)
    else (st.park sid ms (.body sid label rest)).move (.hookReplied .suspended)
  | .fail e :: _ => (st.noteHook name label .failed).pop.move (.hookReplied (.failed e))
  | .panic text :: _ => st.pop.move (.hookReplied (.panicked text))
  | .act a :: rest =>
    ((st.pop.push (.body sid label rest)).push (.did (.hook name label) a.name)).perform a

def runScript (st : Stage) (rest : List Action) (closing : Closing) : Stage :=
  match rest with
  | a :: rest => ((st.pop.push (.script rest closing)).push (.did .wire a.name)).perform a
  | [] =>
    let st := st.pop
    match closing with
    | .grant _ key (some reason) _ => st.move (.declined (.refused key reason))
    | .grant _ key none (some text) => st.move (.declined (.disconnected key ⟨text⟩))
    | .grant n _ none none => st.move (.granted n)
    | .unsubscribed => st.move .unsubscribed
    | .sent _ none _ error => st.move (.postReplied (postReply error))
    | .sent _ (some 0) later error => st.push (.script later (.posted error))
    | .sent sid (some ms) later error =>
      (st.park sid ms (.script later (.posted error))).move (.postReplied .suspended)
    | .posted error => st.move (.postReplied (postReply error))

/-- A task has run its session: it is given up now if that was asked for meanwhile, and runs again
if it was cancelled while it ran. -/
def afterRun (st : Stage) (sid : SessionId) : Stage :=
  if (st.hub.session sid).isOver then st.unpark sid
  else
    match st.player? sid with
    | none => st
    | some p =>
      if p.aborting then (st.unpark sid).call (.drop sid) .nothing
      else if p.woken then
        (st.onPlayer sid fun p => { p with woken := false }).wake (.session sid)
      else st

def finishCall (st : Stage) (r : Return) : Stage :=
  match r with
  | .nothing => st
  | .answer => st.answer (match st.hub.answer with
    | .bool b => .bool b
    | .count n => .count n
    | _ => .nothing)
  | .members sid => st.answer (.count (st.hub.members sid).length)
  | .subscribed sid s chain =>
    let n := (((st.player? sid).map Player.subs).getD []).length
    let st := st.onPlayer sid fun p => { p with subs := p.subs ++ [s] }
    chain.foldl (fun st l => st.link sid n s l) st
  | .started sid =>
    ((st.onPlayer sid fun p => { p with held := true }).spawn (.session sid)).answer .nothing
  | .polled sid =>
    match st.result? sid with
    | some r => (st.unpark sid).answer (.result r)
    | none => st.answer .pending
  | .dropped => st.answer (.bool true)
  | .ran sid => st.afterRun sid

def give (st : Stage) (r : Reply) : Stage :=
  match st.contexts with
  | .top :: _ => { st.pop with result := r }
  | .did (.hook session label) action :: _ => st.pop.noteHook session label (.did action r)
  | .did .wire action :: _ => st.pop.noteWire (.did action r)
  | .batch rest replies :: _ => st.pop.push (.batch rest (r :: replies))
  | .sweep rest blow replies :: _ => st.pop.push (.sweep rest blow (r :: replies))
  | _ => st

def go (st : Stage) : Stage :=
  match st.contexts with
  | [] => st
  | .top :: _ | .did _ _ :: _ => st.pop
  | .batch [] replies :: _ => st.pop.answer (.list replies.reverse)
  | .batch (a :: rest) replies :: _ => (st.pop.push (.batch rest replies)).perform a
  | .sweep [] _ replies :: _ => st.pop.answer (.list replies.reverse)
  | .sweep (s :: rest) blow replies :: _ =>
    (st.pop.push (.sweep rest blow replies)).call
      (match blow with
        | .inl e => .deliver s e
        | .inr e => .fail s e) .answer
  | .call depth r :: _ => if st.hub.stack.length ≤ depth then st.pop.finishCall r else st.serve
  | .scope sid rest :: _ => st.runScope sid rest
  | .body sid label rest :: _ => st.runBody sid label rest
  | .script rest closing :: _ => st.runScript rest closing
  | .mailing sid :: _ =>
    match st.transport with
    | .memory m => st.pop.receivePost m sid
    | .manual _ => st.pop

end Aftermath.Rehearsal.Stage
