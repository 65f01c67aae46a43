import Aftermath.Key.Describe
import Aftermath.Rehearsal.Stage
import Aftermath.Text.Duration

/-! What is on the stage, described field by field; identifiers are left out. -/

namespace Aftermath.Rehearsal.Stage

open Text

def describeRegistry (st : Stage) (sid : SessionId) : String :=
  record "SubscriptionRegistry" [("session", "SessionId(<id>)"),
    ("subscriptions", toString (st.hub.members sid).length),
    ("active", toString (st.hub.activeCount sid))]

/-- The scope of a session; a modal surface has a hook of its own before the post. -/
def describeScope (st : Stage) (sid : SessionId) : String :=
  let x := st.hub.session sid
  let own := if x.modal.isSome then 1 else 0
  openRecord "ConsequenceScope" [("registry", st.describeRegistry sid),
    ("before_post", toString (x.hooks.beforePost.length + own)),
    ("acknowledge", toString x.hooks.acknowledge.length),
    ("server_error", toString x.hooks.serverError.length),
    ("network_error", toString x.hooks.networkError.length),
    ("default_timeout", match x.timeout with
      | none => "None"
      | some ms => "Some(" ++ duration ms ++ ")")]

def describeSub (st : Stage) (s : SubId) : String :=
  let sub := st.hub.sub s
  openRecord "EventSubscription" [("id", "SubscriptionId(<id>)"), ("key", sub.key.describe),
    ("kind", sub.kind.name), ("state", sub.state.name)]

def describeSink (st : Stage) (s : SubId) : String :=
  record "EventSink" [("subscription", "SubscriptionId(<id>)"),
    ("key", (st.hub.sub s).key.describe)]

def describeCoordinator (st : Stage) : String :=
  openRecord "CommandCoordinator"
    [("config", record "CoordinatorConfig"
      [("default_timeout", duration st.hub.settings.defaultTimeout)])]

/-- A modal surface that closes, and beside it one that is never busy and does not. -/
def describeModal (st : Stage) (m : ModalId) : String :=
  let one (busy closable : Bool) :=
    record "ModalAffordances" [("busy", yesNo busy), ("closable", yesNo closable)]
  one (st.hub.modal m).busy true ++ " " ++ one false false

end Aftermath.Rehearsal.Stage
