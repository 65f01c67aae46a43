import Aftermath.Countdown.Basic
import Aftermath.Failure

/-! A subscription waits for one event of its key. It leaves `active` once, by the event, by its
countdown or by a cancellation; one that fires or times out after its session was decided ends
cancelled as well. -/

namespace Aftermath

/-- Numbers under which subscriptions, sessions, hooks and the rest are known. -/
abbrev SubId := Nat
abbrev SessionId := Nat
abbrev HookId := Nat
abbrev TokenId := Nat
abbrev ModalId := Nat
abbrev LeaseId := Nat

inductive SubState where
  | active
  | fired
  | timedOut
  | cancelled
deriving DecidableEq, Repr

def SubState.name : SubState → String
  | .active => "Active"
  | .fired => "Fired"
  | .timedOut => "TimedOut"
  | .cancelled => "Cancelled"

def SubState.isTerminal (s : SubState) : Bool := s != .active

structure Subscription where
  key : Key
  kind : Kind
  /-- The session it was made for, which it decides when it fires or times out. -/
  home : SessionId
  state : SubState := .active
  countdown : Countdown := {}
  /-- Whether countdowns have started; from then on a new timeout takes effect at once. -/
  armed : Bool := false
  timeout : Option Nat := none
  handler : Option HookId := none
  timeoutHandler : Option HookId := none
  lease : Option LeaseId := none
  error : Option SubscribeError := none
deriving DecidableEq, Repr

namespace Subscription

def isActive (s : Subscription) : Bool := s.state == .active

instance : Inhabited Subscription := ⟨⟨default, .event, 0, .cancelled, {}, false, none, none, none,
  none, none⟩⟩

end Subscription

end Aftermath
