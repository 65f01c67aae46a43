import Aftermath.Json.Value
import Aftermath.Outcome

/-! How keys, payloads, errors and endings are written in reports: a key as its three strings, an
error as an object named for its kind, an ending with what it says of itself. -/

namespace Aftermath

def Key.form (k : Key) : Json := .arr [.str k.type, .str k.field, .str k.value]

def Payload.form : Payload → Json
  | .text s => .str s
  | .number n => .int n
  | .blank => .null

def Envelope.form (e : Envelope) : Json :=
  .ofMembers [("key", e.key.form), ("payload", e.payload.form)]

def ServerError.form (e : ServerError) : Json :=
  .ofMembers [("server", .str e.message), ("code", .ofOption .str e.code)]

def NetworkError.form (e : NetworkError) : Json := .ofMembers [("network", .str e.message)]

def PostError.form : PostError → Json
  | .server e => e.form
  | .network e => e.form

def SubscribeError.form (e : SubscribeError) : Json :=
  match e with
  | .refused key reason =>
    .ofMembers [("refused", key.form), ("reason", .str reason), ("text", .str e.text)]
  | .disconnected key source =>
    .ofMembers [("disconnected", key.form), ("source", source.form), ("text", .str e.text)]

def AnyError.form : AnyError → Json
  | .server e => e.form
  | .network e => e.form
  | .post e => e.form
  | .subscribe e => e.form

def Reason.members : Reason → List (String × Json)
  | .rejected key => [("negative", .str "rejected"), ("key", key.form)]
  | .timedOut key => [("negative", .str "timed_out"), ("key", key.form)]
  | .subscribeFailed e => [("negative", .str "subscribe_failed"), ("failure", e.form)]
  | .cancelled => [("negative", .str "cancelled")]

def Outcome.form (o : Outcome) : Json :=
  let members := match o with
    | .positive key => [("positive", .ofOption Key.form key)]
    | .negative reason => reason.members
    | .errored e => [("errored", e.form)]
  .ofMembers (("is", .arr [.bool o.isPositive, .bool o.isNegative, .bool o.isErrored]) :: members)

def Failure.form (f : Failure) : Json :=
  let members := match f with
    | .unhandled category detail =>
      [("error", .str "UnhandledFailure"), ("category", .str category.label),
        ("detail", .str detail), ("message", .str f.text)]
    | .hook e => [("error", .str "Hook"), ("chain", .texts e.chain), ("message", .str f.text)]
    | .aborted _ => [("error", .str "SessionAborted")]
  .ofMembers (("unhandled", .bool f.isUnhandled) :: members)

def Ending.form : Ending → Json
  | .resolved o => o.form
  | .failed f => f.form
  | .panicked text => .ofMembers [("error", .str "panic"), ("message", .str text)]

end Aftermath
