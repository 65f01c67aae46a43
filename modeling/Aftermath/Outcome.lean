import Aftermath.Failure

/-! How a session ends. An outcome is a result the caller can act on; the other endings are a failure
nobody registered a hook for, a hook that failed or panicked, and an abandoned task. -/

namespace Aftermath

inductive Reason where
  | rejected (key : Key)
  | timedOut (key : Key)
  | subscribeFailed (e : SubscribeError)
  | cancelled
deriving DecidableEq, Repr

/-- How a session resolved. A positive outcome without a key is an acknowledged command that
waited for nothing. -/
inductive Outcome where
  | positive (key : Option Key)
  | negative (reason : Reason)
  | errored (e : PostError)
deriving DecidableEq, Repr

def Outcome.isPositive : Outcome → Bool
  | .positive _ => true
  | _ => false

def Outcome.isNegative : Outcome → Bool
  | .negative _ => true
  | _ => false

def Outcome.isErrored : Outcome → Bool
  | .errored _ => true
  | _ => false

inductive Failure where
  | unhandled (category : Category) (detail : String)
  | hook (e : HookError)
  | aborted (message : String)
deriving DecidableEq, Repr

def Failure.text : Failure → String
  | .unhandled c detail =>
    c.label ++ " occurred but no handler was registered for it: " ++ detail
  | .hook e => "consequence hook failed: " ++ e.text
  | .aborted message => "session task ended abnormally: " ++ message

def Failure.isUnhandled : Failure → Bool
  | .unhandled _ _ => true
  | _ => false

/-- The last word of a session: an outcome, a failure, or a panic with its text. -/
inductive Ending where
  | resolved (o : Outcome)
  | failed (f : Failure)
  | panicked (text : String)
deriving DecidableEq, Repr

def Ending.isPositive : Ending → Bool
  | .resolved o => o.isPositive
  | _ => false

end Aftermath
