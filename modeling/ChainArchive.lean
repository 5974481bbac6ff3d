import ChainArchive.Json.Writer
import ChainArchive.Main
import ChainArchive.Trial.Archiver
import ChainArchive.Trial.Flow
import ChainArchive.Trial.Pipeline
import ChainArchive.Trial.Pool
import ChainArchive.World.Turn
import ChainArchive.Proofs.Deployment
import ChainArchive.Proofs.Rsa.Inversion
import ChainArchive.Proofs.Pipeline.Signals
import ChainArchive.Proofs.Pipeline.Permits
import ChainArchive.Proofs.Pipeline.Causes
import ChainArchive.Proofs.Run.Causes
import ChainArchive.Proofs.World.Causes
import ChainArchive.Proofs.World.FirstFailure
import ChainArchive.Proofs.Pipeline.Progress
import ChainArchive.Proofs.World.Progress
import ChainArchive.Proofs.Pool.ExactlyOnce
import ChainArchive.Proofs.Pipeline.Announced
import ChainArchive.Proofs.World.Turns
import ChainArchive.Proofs.World.Quiet
import ChainArchive.Proofs.Run.Itinerary
import ChainArchive.Proofs.World.FailStop
import ChainArchive.Proofs.Run.Verdict
import ChainArchive.Proofs.World.Verdict
import ChainArchive.Proofs.Pipeline.Drain
import ChainArchive.Proofs.World.Rest
import ChainArchive.Proofs.World.WalkFailure
import ChainArchive.Proofs.World.Prefix
import ChainArchive.Proofs.Program
import ChainArchive.Proofs.Pool.Losses
import ChainArchive.Proofs.Pool.Isolation
import ChainArchive.Proofs.Pool.Faults
import ChainArchive.Pool.Shutdown
import ChainArchive.Proofs.Pool.Shutdown
import ChainArchive.Proofs.Json.Spelling
import ChainArchive.Proofs.Json.Numbers
import ChainArchive.Proofs.Json.Records
import ChainArchive.Proofs.Store.History
import ChainArchive.Proofs.Deployment.Admission
import ChainArchive.Proofs.Codec.Truncation
import ChainArchive.Proofs.World.Truth
import ChainArchive.Proofs.Trial.Outcome
import ChainArchive.Proofs.Trial.Timing
import ChainArchive.Proofs.Deployment.Timers
import ChainArchive.Proofs.World.Places
import ChainArchive.Proofs.Rsa.Checked
import ChainArchive.Proofs.Settings
import ChainArchive.Proofs.StatementId.Canonical
import ChainArchive.Proofs.Json.Truncation
import ChainArchive.Proofs.Json.Identifiers
import ChainArchive.Proofs.World.Audit
