import Aftermath.Forms
import Aftermath.Key.Reader
import Aftermath.Key.Shape
import Aftermath.Outcome
import Aftermath.Settings
import Aftermath.Text.Duration
import Aftermath.Identifier
import Aftermath.Key.Describe
import Aftermath.Bus.Trial
import Aftermath.Countdown.Trial
import Aftermath.Hub.Move
import Aftermath.Rehearsal.Reply
import Aftermath.Rehearsal.Script
import Aftermath.Memory
import Aftermath.Rehearsal.Run
import Aftermath.Proofs.Waiting
import Aftermath.Proofs.Release
import Aftermath.Proofs.Order
import Aftermath.Proofs.Withdrawal
import Aftermath.Proofs.Cancellation
import Aftermath.Proofs.Gate
import Aftermath.Proofs.Failures
import Aftermath.Proofs.Handlers
import Aftermath.Proofs.Unready
import Aftermath.Proofs.Unawaited
import Aftermath.Proofs.Key.RoundTrip
import Aftermath.Proofs.Modal
import Aftermath.Proofs.Listener
import Aftermath.Proofs.Disconnect
import Aftermath.Proofs.Readiness
import Aftermath.Proofs.Ledger
import Aftermath.Proofs.Countdown
import Aftermath.Proofs.Countdown.Racer
import Aftermath.Proofs.Deadline
import Aftermath.Proofs.Channel
import Aftermath.Proofs.Surface
import Aftermath.Proofs.Bus.Receivers
import Aftermath.Proofs.Backend
import Aftermath.Proofs.Rehearsal
import Aftermath.Proofs.Settings
import Aftermath.Proofs.Key.Grammar
import Aftermath.Proofs.Key.Canonical
import Aftermath.Proofs.Tidy
import Aftermath.Proofs.Live
