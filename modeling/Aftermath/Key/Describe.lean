import Aftermath.Key
import Aftermath.Text.Quoted
import Aftermath.Text.Record

/-! Keys and envelopes described field by field. -/

namespace Aftermath

open Text

def Key.describe (k : Key) : String :=
  record "EventKey" [("event_type", quoted k.type), ("field", quoted k.field),
    ("value", quoted k.value)]

/-- The payload is left out; of its type only the place is shown. -/
def Envelope.describe (e : Envelope) : String :=
  openRecord "EventEnvelope" [("key", e.key.describe), ("type_id", "<type>")]

end Aftermath
