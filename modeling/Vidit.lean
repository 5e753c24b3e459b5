import Vidit.Library.Transition
import Vidit.Library.Checks
import Vidit.Library.VersionLog
import Vidit.Library.Review
import Vidit.Library.Custody
import Vidit.Library.RowLock
import Vidit.Library.KeyLock
import Vidit.Library.Rows
import Vidit.Library.Attempt
import Vidit.Library.Window
import Vidit.Python.Str
import Vidit.Python.Uuid
import Vidit.Social.Follows
import Vidit.Python.UuidText
import Vidit.Notifications.UnsubscribeTokens
import Vidit.Notifications.Preferences
import Vidit.Python.Unicode
import Vidit.Python.Url
import Vidit.Browser.Url
import Vidit.Accounts.User
import Vidit.Accounts.Credentials
import Vidit.Accounts.Sessions
import Vidit.Accounts.Invalidation
import Vidit.Accounts.ResetTokens
import Vidit.Accounts.ResetLinks
import Vidit.Accounts.Registration
import Vidit.Accounts.SingleUse
import Vidit.Bot.CatchUp
import Vidit.Bot.Queue
import Vidit.Bot.KeepsMentions
import Vidit.Notifications.Delivery
import Vidit.Notifications.Sending
import Vidit.Notifications.DailyCap
import Vidit.Evidence.Storage
import Vidit.Evidence.Body
import Vidit.Evidence.ImageGate
import Vidit.Events.Schema
import Vidit.Events.Errors
import Vidit.Events.Versions
import Vidit.Events.Transaction
import Vidit.Events.Archive
import Vidit.Events.Sources
import Vidit.Events.Intake
import Vidit.Events.Credit
import Vidit.Events.ApprovalRequests
import Vidit.Events.Detection
import Vidit.Events.Verbs
import Vidit.Events.Uploads
import Vidit.Events.Outcomes
import Vidit.Events.SourcePlans
import Vidit.Events.Saving
import Vidit.Reviews.Asking
import Vidit.Reviews.DailyCap
import Vidit.Reports.Verdicts
import Vidit.Reports.HoldsEvidence
import Vidit.Collections.Shelving
import Vidit.Collections.Credited
import Vidit.Organizations.Members
import Vidit.Organizations.KeepsManager
import Vidit.Uploads.Taking
import Vidit.Uploads.ConsumedOnce
import Vidit.Uploads.Staging
import Vidit.Sites.Ledger
import Vidit.Sites.KeepsLedger
import Vidit.Maps.Bucket
import Vidit.Maps.Update
import Vidit.Maps.KeepsServed
import Vidit.Maps.Multipart
import Vidit.Imports.Queue
import Vidit.Imports.RunsSafely
import Vidit.World.State
import Vidit.World.Step
import Vidit.World.Identity
import Vidit.World.History
import Vidit.World.Credit
import Vidit.World.Ceiling
import Vidit.World.Requests
import Vidit.World.Custody
import Vidit.World.Sweep
import Vidit.World.Saving
import Vidit.World.NoChange
import Vidit.World.Batch
import Vidit.World.Import
import Vidit.World.OwnImages
import Vidit.World.Ready
import Vidit.Evidence.ImageRewrite
import Vidit.World.Restoration
import Vidit.Removals.Steps
import Vidit.Removals.HidesWork
import Vidit.Points.CoversScreen
import Vidit.Pagination.LosesNothing
import Vidit.Search.SectionsAgree
import Vidit.SearchPage.ReadsBack
import Vidit.Conflicts.SettlesNames
import Vidit.Imports.StaysInside
import Vidit.Imports.StripArchive
import Vidit.Imports.ZipFormat
import Vidit.Imports.StripAgrees
import Vidit.Editor.ProofNames
import Vidit.Editor.FaithfulForm
import Vidit.Sites.Zones
import Vidit.Sites.ContourCheck
import Vidit.Reviews.OffersAgree
import Vidit.Ingest.MediaFollow
import Vidit.Ingest.ScansSoundly
import Vidit.Ingest.Stitch
import Vidit.Ingest.Acquire
import Vidit.Points.Cache
import Vidit.Pagination.CursorList
import Vidit.Navigation.SafeNext
import Vidit.Navigation.BackStack
import Vidit.Points.Stacks
import Vidit.Accounts.Provider
import Vidit.World.ProofImages
