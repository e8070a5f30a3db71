import VtopEngine.Meta.ExactlyOnce
import VtopEngine.Meta.Reconfiguration
import VtopEngine.Meta.Barrier
import VtopEngine.Meta.CodecCanonical
import VtopEngine.Node.Promotion
import VtopEngine.Cli.Coverage
import VtopEngine.Broker.Watermark
import VtopEngine.Broker.LeaseView
import VtopEngine.Node.BoundaryGate
import VtopEngine.Adapters.Restart
import VtopEngine.Adapters.RetentionLoss
import VtopEngine.Cli.Windows
import VtopEngine.Cli.CommitRule
import VtopEngine.Meta.LeaderWalk
import VtopEngine.Log.RetentionPass
import VtopEngine.Core.ManifestAuth
import VtopEngine.Upload.MultipartRuns
import VtopEngine.Log.SegmentRuns
import VtopEngine.Meta.Membership
import VtopEngine.Meta.LeaseTerms
import VtopEngine.Meta.PinnedCursors
