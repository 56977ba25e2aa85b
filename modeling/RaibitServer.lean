import RaibitServer.Auth.VerificationCodes
import RaibitServer.Backup.Multipart
import RaibitServer.Builder.PreviewImage
import RaibitServer.Builder.Source
import RaibitServer.Builder.SourceRoot
import RaibitServer.Builder.Worker
import RaibitServer.Deployments.HistoryPage
import RaibitServer.Domains.Kubernetes
import RaibitServer.Domains.Registry
import RaibitServer.LogTail.Delivery
import RaibitServer.Membership.Invites
import RaibitServer.Membership.Versions
import RaibitServer.Observability.Projection
import RaibitServer.Observability.Stream
import RaibitServer.Orchestrator.Agreement
import RaibitServer.Orchestrator.DeletionLease
import RaibitServer.Preview.Address
import RaibitServer.Preview.Closing
import RaibitServer.Preview.Convergence
import RaibitServer.Preview.Separation
import RaibitServer.Reconcile.Cleanup
import RaibitServer.Recovery.Artifact
import RaibitServer.Recovery.CleanupLease
import RaibitServer.Recovery.Fencing
import RaibitServer.Recovery.Listing
import RaibitServer.Recovery.Pins
import RaibitServer.Recovery.Publication
import RaibitServer.RecoveryCache.Resp
import RaibitServer.RecoveryCache.Verify
import RaibitServer.RecoveryWire.ShortReads
import RaibitServer.RecoveryWire.Transport
import RaibitServer.Resources.Deletion
import RaibitServer.Rollout.Fencing
import RaibitServer.Tenants.Frame
