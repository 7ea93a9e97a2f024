import RatifyProtocol.V2.Progress
set_option autoImplicit false

/-!
# Release: records, acknowledgements and the committed handoff

The data model of `v2/release.rs` and `v2/checkpoint_ack.rs` that the claim
store, the checkpoint and the release procedure share.
-/

namespace RatifyProtocol.V2

open Foundation

/-- The release outcome class. -/
inductive V2ReleaseStatus where
  | released
  | pending
  | withheld
  | rejected
  deriving DecidableEq, Repr

def V2ReleaseStatus.asStr : V2ReleaseStatus → String
  | released => "released"
  | pending => "pending"
  | withheld => "withheld"
  | rejected => "rejected"

/-- The durable release record: a release, or a withheld result. -/
structure V2ReleaseRecord where
  claimId : String
  entryHash : Bytes
  ackTimestamp : Int
  outcome : V2ReleaseStatus
  reason : String
  deriving DecidableEq, Repr

/-- Whether `outcome` and `reason` form a release record. -/
def validV2ReleaseRecordOutcome (outcome : V2ReleaseStatus) (reason : String) : Bool :=
  match outcome with
  | .released => reason == ""
  | .withheld =>
    ["clock_regressed", "challenge_expired", "allow_horizon_passed"].contains reason
  | _ => false

/-- An independent checkpoint's acknowledgement of one receipt-log entry. -/
structure V2CheckpointAcknowledgement where
  logId : String
  sequence : Int
  entryHash : Bytes
  timestamp : Int
  deriving DecidableEq, Repr

/-- What the claim store returns to release. -/
structure V2TerminalClaimRecord where
  terminal : Bool
  receiptOutboxDigest : String
  challengeExpiresAt : Int
  allowHorizon : Int
  finalizedAt : Int
  receiptAbandoned : Bool
  release : Option V2ReleaseRecord
  deriving DecidableEq, Repr

/-- The immutable handoff from a committed verification to publication and
release.  It carries no decision. -/
structure CommittedV2Outcome where
  claimId : String
  verifierId : String
  receiptBody : Bytes
  challengeExpiresAt : Int
  allowHorizon : Int
  deriving DecidableEq, Repr

/-- `CommittedV2Outcome::new`. -/
def CommittedV2Outcome.new (claim : V2ChallengeClaim) (body : Bytes) (allowHorizon : Int) :
    CommittedV2Outcome :=
  { claimId := claim.claimId, verifierId := claim.verifierId, receiptBody := body,
    challengeExpiresAt := claim.expiresAt, allowHorizon }

variable (P : Primitives)

/-- `"sha384:" + hex(SHA-384("ratify-protocol-receipt-outbox-v2" || 0x00 || body))`. -/
def receiptOutboxDigestV2 (body : Bytes) : String :=
  "sha384:" ++ hexEncode (P.sha384 (utf8 "ratify-protocol-receipt-outbox-v2\x00" ++ body))

end RatifyProtocol.V2
