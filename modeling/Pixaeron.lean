import Pixaeron.Transactions.Rules
import Pixaeron.Transactions.Alone
import Pixaeron.Transactions.FirstReads
import Pixaeron.Conversion.Statuses
import Pixaeron.Conversion.Results
import Pixaeron.Conversion.Deliveries
import Pixaeron.Conversion.Stranded
import Pixaeron.Conversion.Quota
import Pixaeron.Conversion.StorageCap
import Pixaeron.Conversion.Deadlines
import Pixaeron.Conversion.LeastEviction
import Pixaeron.Conversion.Idempotency
import Pixaeron.Conversion.LateUploads
import Pixaeron.Conversion.Tenants
import Pixaeron.Conversion.Listing
import Pixaeron.Conversion.AnonymousIdentity
import Pixaeron.Conversion.RequestCodec
import Pixaeron.Conversion.EventCodec
import Pixaeron.Auth.Rotation
import Pixaeron.Auth.ReuseDetection
import Pixaeron.Auth.Logout
import Pixaeron.Auth.Revocations
import Pixaeron.Auth.PasswordReset
import Pixaeron.Notifications.DeliveryConvergence
import Pixaeron.Notifications.MailboxConvergence
import Pixaeron.Notifications.RecoveryReplay
import Pixaeron.Worker.Starvation
import Pixaeron.Worker.JpegStreams
import Pixaeron.Worker.WebpChunks
import Pixaeron.Worker.PngChunks
import Pixaeron.Worker.AvifBoxes
import Pixaeron.Worker.LosslessSize
import Pixaeron.Worker.WalkersInside
import Pixaeron.Worker.CompressorOutcomes
import Pixaeron.Auth.TokenGrants
import Pixaeron.Auth.SessionOrigins
import Pixaeron.Auth.GoogleSignIn
import Pixaeron.Auth.EmailThrottle
import Pixaeron.Auth.LoginAttempts
import Pixaeron.Notifications.Submissions
import Pixaeron.Notifications.FeedbackMessages
import Pixaeron.Notifications.FeedbackIdentity
import Pixaeron.Notifications.BlockedMailboxes
import Pixaeron.Notifications.AppliedEvents
