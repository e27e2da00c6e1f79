import Nod.Lib.Text
import Nod.Lib.Rfc3339
import Nod.Lib.Json
import Nod.Lib.JsonRead
import Nod.Lib.Txn
import Nod.Lib.Sha256
import Nod.Proto.ReceiptPolicy
import Nod.Server.Admin
import Nod.Lib.Poll
import Nod.Lib.Machine
import Nod.Lib.Lease
import Nod.Lib.Cursor
import Nod.Server.Replay
import Nod.Client.State
import Nod.Client.Alerts
import Nod.Client.Convergence
import Nod.Server.SigningContext
import Nod.Server.Evidence
import Nod.Server.Dedupe
import Nod.Server.Rejection
import Nod.Server.CallbackQueue
import Nod.Server.PublishQueue
import Nod.Server.IntegrationEvents
import Nod.Server.History
import Nod.Server.PushOutbox
import Nod.Server.LegacyProjection
import Nod.Apple.AnswerValue
import Nod.Server.Enrollment
import Nod.Proto.ReceiptPins
import Nod.Proto.CanonicalJson
import Nod.Server.Expiry
import Nod.Server.SignedPayloads
import Nod.Server.EnrollmentData
import Nod.Server.PushTokens
import Nod.Server.Audit
import Nod.Client.Addressing
import Nod.Client.Profiles
import Nod.Proto.DecimalText
import Nod.Proto.CalendarText
import Nod.Server.PendingRecipients
import Nod.Client.StoreMerge
import Nod.Client.StoreCrash
import Nod.Server.SignedRequests
import Nod.Apple.Agreement
import Nod.Client.SubmissionSafety
import Nod.Client.BoundContent
import Nod.Server.Stamps
import Nod.Server.Clearing
import Nod.Server.Receipts
import Nod.Proto.Wire
import Nod.Server.EndToEnd
import Nod.Server.Consent
