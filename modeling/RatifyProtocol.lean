import RatifyProtocol.V2.Status.ForkMarks
import RatifyProtocol.V2.Status.Soundness
import RatifyProtocol.V2.Status.Recovery
import RatifyProtocol.V2.JsonNormal
import RatifyProtocol.V2.LogRuns
import RatifyProtocol.V2.Rotation.Runs
import RatifyProtocol.V2.Reference.Drain
import RatifyProtocol.V2.Reference.FrozenLog
import RatifyProtocol.V2.Reference.RateSafety
import RatifyProtocol.V2.Device.Law
import RatifyProtocol.V2.Journal.Runs
import RatifyProtocol.V2.Delegation.Bundle
import RatifyProtocol.V2.Delegation.BundleCodec
import RatifyProtocol.V2.JsonSpelling
import RatifyProtocol.V2.OperationContext
import RatifyProtocol.V1.Challenge
import RatifyProtocol.Foundation.Calendar
import RatifyProtocol.V2.CivilExact
import RatifyProtocol.V2.Footer
import RatifyProtocol.V2.Zone
import RatifyProtocol.V2.OffsetChange
import RatifyProtocol.ResourcePath
import RatifyProtocol.V2.Delegation.Evaluate
import RatifyProtocol.Foundation.Horizon
import RatifyProtocol.V2.TimeWindow
import RatifyProtocol.V2.Status.Aggregate
import RatifyProtocol.V2.Status.EvidenceOrder
import RatifyProtocol.V2.Status.AggregateOrder
import RatifyProtocol.V1.Platform
import RatifyProtocol.V1.Types
import RatifyProtocol.V1.ChallengeStore
import RatifyProtocol.V1.Credentials
import RatifyProtocol.V1.Constraints
import RatifyProtocol.V1.SignedBytes
import RatifyProtocol.V1.Verify
import RatifyProtocol.V1.SingleUse
import RatifyProtocol.V1.ScopeAttenuation
import RatifyProtocol.V1.ResourceIssuance
import RatifyProtocol.V1.PolicyContext
import RatifyProtocol.V1.StreamedAgreement
import RatifyProtocol.V2.Reference.Finalization
import RatifyProtocol.V2.Delegation.ConstraintRoundTrip
import RatifyProtocol.V2.Delegation.AudienceOrder
import RatifyProtocol.V2.Status.BatchLaw
import RatifyProtocol.V2.Status.CompactLaw
import RatifyProtocol.V2.ZoneTraps
import RatifyProtocol.V1.SignedVerdict
import RatifyProtocol.V2.Reference.ReleaseOnce
import RatifyProtocol.V2.Delegation.RoundTrip
import RatifyProtocol.V2.Reference.DualRoot
import RatifyProtocol.V2.Authorization.ContextPolicy
import RatifyProtocol.V2.Authorization.RateBatch
import RatifyProtocol.V2.Authorization.VerifyOnce
