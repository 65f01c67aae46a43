import Aftermath.Outcome
import Aftermath.Subscription

/-! A session posts one command and waits for its consequences. The first claim decides it; what
its subscriptions come to is reported to it, and its hooks run one after another as its phase
moves on. -/

namespace Aftermath

inductive Claim where
  | fired (s : SubId) (e : Envelope)
  | timedOut (s : SubId)
  | lost (e : NetworkError)
  | refused (e : PostError)
  /-- A subscription was not active when the command was about to be posted. -/
  | unready
  /-- Every subscription was cancelled on its own. -/
  | deserted
  | cancelled
  | ended
deriving DecidableEq, Repr

inductive Report where
  | fired (s : SubId) (e : Envelope)
  | timedOut (s : SubId)
  | lost (e : NetworkError)
  | cancelled (s : SubId)
deriving DecidableEq, Repr

inductive Argument where
  | nothing
  | server (e : ServerError)
  | network (e : NetworkError)
  | event (e : Envelope)
  | timeout (key : Key)
deriving DecidableEq, Repr

inductive Slot where
  | beforePost
  | acknowledge
  | serverError
  | networkError
  | anyEvent
  | anyRejection
  | anyTimeout
deriving DecidableEq, Repr

/-- The hooks of a session. Those that come in lists all run, in order; of the others the last one
registered stands in for subscriptions without a handler. -/
structure Hooks where
  beforePost : List HookId := []
  acknowledge : List HookId := []
  serverError : List HookId := []
  networkError : List HookId := []
  anyEvent : Option HookId := none
  anyRejection : Option HookId := none
  anyTimeout : Option HookId := none
deriving DecidableEq, Repr

namespace Hooks

def add (hs : Hooks) (h : HookId) : Slot → Hooks
  | .beforePost => { hs with beforePost := hs.beforePost ++ [h] }
  | .acknowledge => { hs with acknowledge := hs.acknowledge ++ [h] }
  | .serverError => { hs with serverError := hs.serverError ++ [h] }
  | .networkError => { hs with networkError := hs.networkError ++ [h] }
  | .anyEvent => { hs with anyEvent := some h }
  | .anyRejection => { hs with anyRejection := some h }
  | .anyTimeout => { hs with anyTimeout := some h }

def forError (hs : Hooks) : PostError → List HookId × Argument
  | .server e => (hs.serverError, .server e)
  | .network e => (hs.networkError, .network e)

def forKind (hs : Hooks) : Kind → Option HookId
  | .event => hs.anyEvent
  | .rejection => hs.anyRejection

end Hooks

/-- How far a session has come. Where a phase carries hooks, they are those still to run. -/
inductive Phase where
  | unopened
  | configuring
  | prepared
  | checking
  | unready
  | preparing (rest : List HookId)
  | posting
  | acknowledging (rest : List HookId)
  | awaiting
  /-- A report decided the session and the other subscriptions have been cancelled. -/
  | resolving (r : Report)
  | refused (e : PostError)
  /-- The post failed after the session was decided, and no hook hears of it. -/
  | unheard (e : PostError)
  | deserted
  | handling (rest : List HookId) (arg : Argument) (ending : Ending)
  | cancelling
  /-- The ending is certain and the last subscriptions are being cancelled. -/
  | closing (ending : Ending)
  | ended (ending : Ending)
  | dropping
  | dropped
  /-- Given up before anything happened. -/
  | forgone
deriving DecidableEq, Repr

structure Session where
  token : Option TokenId := none
  modal : Option ModalId := none
  members : List SubId := []
  claim : Option Claim := none
  /-- Reports not yet taken, the oldest first. -/
  reports : List Report := []
  /-- How many there are who could still report: the running session and its subscriptions. -/
  holders : Nat := 0
  cancelled : Bool := false
  hooks : Hooks := {}
  timeout : Option Nat := none
  running : Option (HookId × Argument) := none
  phase : Phase := .unopened
deriving DecidableEq, Repr, Inhabited

namespace Session

def isSettled (s : Session) : Bool := s.claim.isSome

def isOver (s : Session) : Bool :=
  match s.phase with
  | .ended _ | .dropped | .forgone => true
  | _ => false

def ending? (s : Session) : Option Ending :=
  match s.phase with
  | .ended e => some e
  | _ => none

/-- Whether the session's future has begun to run and not ended. -/
def isUnderWay (s : Session) : Bool :=
  match s.phase with
  | .unopened | .configuring | .prepared | .ended _ | .dropping | .dropped | .forgone => false
  | _ => true

end Session

end Aftermath
