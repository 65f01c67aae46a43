import Aftermath.Forms
import Aftermath.Hub.Basic

/-! The log: what a hub notes down, as far as it is worth a line. -/

namespace Aftermath

inductive Level where
  | trace
  | debug
  | info
  | warn
  | error
deriving DecidableEq, Repr

def Level.name : Level → String
  | .trace => "TRACE"
  | .debug => "DEBUG"
  | .info => "INFO"
  | .warn => "WARN"
  | .error => "ERROR"

def Level.isLoud : Level → Bool
  | .trace | .debug => false
  | .info | .warn | .error => true

structure Line where
  level : Level
  message : String
  fields : List (String × String) := []
deriving DecidableEq, Repr

def Line.form (l : Line) : Json :=
  .arr [.str l.level.name, .str l.message, .ofMembers (l.fields.map fun f => (f.1, .str f.2))]

/-- The line for a happening, if it has one; `command` names the command of its session. -/
def Happening.line? (command : String) : Happening → Option Line
  | .wrongKey key got => some ⟨.trace, "ignoring event for another key",
      [("key", key.label), ("got", got.label)]⟩
  | .tooLate key state => some ⟨.trace, "ignoring event for terminal subscription",
      [("key", key.label), ("state", state.name)]⟩
  | .fired _ key kind => some ⟨.debug, "subscription fired",
      [("key", key.label), ("kind", kind.label)]⟩
  | .outrun _ key => some ⟨.debug, "event arrived after session was decided", [("key", key.label)]⟩
  | .expired _ key => some ⟨.debug, "subscription timed out", [("key", key.label)]⟩
  | .lost _ key e => some ⟨.warn, "transport failed while awaiting event",
      [("key", key.label), ("error", e.text)]⟩
  | .released _ count => some ⟨.debug, "cancelled remaining subscriptions",
      [("cancelled", toString count)]⟩
  | .ungranted _ key kind e => some ⟨.warn, "failed to subscribe",
      [("key", key.label), ("kind", kind.label), ("error", e.text)]⟩
  | .configured _ members => some ⟨.debug, "session configured",
      [("command", command), ("subscriptions", toString members)]⟩
  | .unready _ (some e) => some ⟨.warn, "subscription refused, command not posted",
      [("command", command), ("error", e.text)]⟩
  | .unready _ none =>
    some ⟨.info, "subscription cancelled before posting, command not posted",
      [("command", command)]⟩
  | .decidedEarly _ => some ⟨.debug, "session decided before posting, command not posted",
      [("command", command)]⟩
  | .posting _ => some ⟨.debug, "posting command", [("command", command)]⟩
  | .acknowledged _ => some ⟨.debug, "command acknowledged", []⟩
  | .unheard _ category detail => some ⟨.error, "no handler registered for failure",
      [("category", category.label), ("error", detail)]⟩
  | .belated _ e => some ⟨.warn, "post failed after the session was decided", [("error", e.text)]⟩
  | .handling _ category detail hooks => some ⟨.warn, "handling failure",
      [("category", category.label), ("error", detail), ("hooks", toString hooks)]⟩
  | .onEvent _ key kind handled => some ⟨.debug, "resolving on event",
      [("key", key.label), ("kind", kind.label), ("handled", if handled then "true" else "false")]⟩
  | .onTimeout _ key => some ⟨.debug, "resolving on timeout", [("key", key.label)]⟩
  | .onCancelled _ _ => some ⟨.debug, "subscription cancelled", []⟩
  | .withdrawn _ count => some ⟨.info, "session cancelled", [("cancelled", toString count)]⟩
  | .ending _ (.resolved _) => some ⟨.info, "session resolved", []⟩
  | .ending _ (.failed f) => some ⟨.warn, "session failed", [("error", f.text)]⟩
  | .ending _ (.panicked _) => none
  | .abandoned _ generation => some ⟨.trace, "countdown abandoned",
      [("generation", toString generation)]⟩
  | .closing _ => some ⟨.debug, "closing modal after positive outcome", []⟩
  | .lapsed _ | .granted _ _ | .returned _ _ | .busy _ _ | .began _ _ _ | .reported _ _
  | .completed _ _ | .postFailed _ _ | .revoked _ | .armed _ _ _ | .disarmed _ _ => none

end Aftermath
