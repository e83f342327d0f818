import ForgePlane.Terminal
import ForgePlane.Lease
import ForgePlane.Exclusive
import ForgePlane.Rollback
import ForgePlane.Retry
import ForgePlane.Guard
import ForgePlane.Revoked
import ForgePlane.Undo
import ForgePlane.Resume
import ForgePlane.SecureArchive
import ForgePlane.RestoreSafe
import ForgePlane.RestoreRun
import ForgePlane.Constraints
import ForgePlane.Holders
import ForgePlane.Replace
import ForgePlane.CronFields
import ForgePlane.Fencing
import ForgePlane.Executors
import ForgePlane.Outcomes
import ForgePlane.PlanReads
import ForgePlane.RequestedStops
import ForgePlane.Cancelled
import ForgePlane.RecoveryTokens
import ForgePlane.UploadLocks
import ForgePlane.PowerPaths
import ForgePlane.SftpAccess
import ForgePlane.UserUpdates
import ForgePlane.SftpWrites
import ForgePlane.Invitations
import ForgePlane.Quotas
import ForgePlane.Heartbeats
import ForgePlane.WebhookTargets
import ForgePlane.RateLimits
import ForgePlane.SignedRequests
import ForgePlane.SecretMigration
import ForgePlane.TransferIds
import ForgePlane.Finalization
import ForgePlane.Mounts
import ForgePlane.BackupCleanup
import ForgePlane.TwoFactor
import ForgePlane.QueryIntegers
import ForgePlane.JobQueue
import ForgePlane.Failover
import ForgePlane.Outbox
import ForgePlane.Deployments
