import RatifyProtocol.Foundation.Binary64
import RatifyProtocol.V1.Challenge
import RatifyProtocol.V2.Delegation.Params
set_option autoImplicit false

/-!
# V1: types

The records of `types.rs` that a verification reads or returns.  An `i64` is an
`Int64` and an `i32` an `Int32`, a float is a `Binary64`, a callback is a function
and a `dyn` provider the function it provides.
-/

namespace RatifyProtocol.V1

open Foundation
open V2 (HybridPublicKey HybridSignature ParamsMap)

def protocolVersion : Int32 := 1
def maxDelegationChainDepth : Nat := 8
def challengeWindowSeconds : Int64 := 300
def maxScopesPerCert : Nat := 128
def maxConstraintsPerCert : Nat := 32
def maxScopeLengthBytes : Nat := 256
def maxIdentifierLengthBytes : Nat := 512
def ed25519PublicKeySize : Nat := 32
def mldsa65PublicKeySize : Nat := 1952

/-- A first-class bound; `kind` says which members are meant. -/
structure Constraint where
  count : Int64
  currency : String
  end_ : String
  lat : Binary64
  lon : Binary64
  maxAltM : Binary64
  maxAmount : Binary64
  maxLat : Binary64
  maxLon : Binary64
  maxMps : Binary64
  minAltM : Binary64
  minLat : Binary64
  minLon : Binary64
  params : Option ParamsMap
  pathPrefix : Option String
  points : List (Binary64 × Binary64)
  radiusM : Binary64
  resourceId : String
  start : String
  tz : String
  kind : String
  windowS : Int64

/-- `Constraint { kind, ..Constraint::default() }`. -/
def Constraint.ofKind (kind : String) : Constraint :=
  { kind, count := 0, currency := "", end_ := "", lat := .zero, lon := .zero, maxAltM := .zero
    maxAmount := .zero, maxLat := .zero, maxLon := .zero, maxMps := .zero, minAltM := .zero
    minLat := .zero, minLon := .zero, params := none, pathPrefix := none, points := []
    radiusM := .zero, resourceId := "", start := "", tz := "", windowS := 0 }

/-- A signed authorization from an issuer to a subject. -/
structure DelegationCert where
  certId : String
  version : Int32
  issuerId : String
  issuerPubKey : HybridPublicKey
  subjectId : String
  subjectPubKey : HybridPublicKey
  scope : List String
  constraints : List Constraint
  issuedAt : Int64
  expiresAt : Int64
  signature : HybridSignature

/-- What the application supplies to evaluate constraints. -/
structure VerifierContext where
  currentLat : Option Binary64
  currentLon : Option Binary64
  currentAltM : Option Binary64
  currentSpeedMps : Option Binary64
  requestedAmount : Option Binary64
  requestedCurrency : Option String
  /-- Certificate, window: the number of invocations. -/
  invocationsInWindow : Option (String → Int64 → Int64)
  requestedResourceId : Option String
  requestedPath : Option String

def VerifierContext.empty : VerifierContext :=
  ⟨none, none, none, none, none, none, none, none, none⟩

/-- What an agent presents. -/
structure ProofBundle where
  agentId : String
  agentPubKey : HybridPublicKey
  delegations : List DelegationCert
  challenge : Bytes
  challengeAt : Int64
  challengeSig : HybridSignature
  sessionContext : Bytes
  streamId : Bytes
  streamSeq : Int64

inductive IdentityStatus where
  | verifiedHuman
  | authorizedAgent
  | expired
  | revoked
  | scopeDenied
  | constraintDenied
  | constraintUnverifiable
  | constraintUnknown
  | delegationNotAuthorized
  | invalidScope
  | invalid
  | unauthorized
  deriving DecidableEq

/-- `IdentityStatus::from_wire`. -/
def IdentityStatus.fromWire : String → Option IdentityStatus
  | "verified_human" => some .verifiedHuman
  | "authorized_agent" => some .authorizedAgent
  | "expired" => some .expired
  | "revoked" => some .revoked
  | "scope_denied" => some .scopeDenied
  | "constraint_denied" => some .constraintDenied
  | "constraint_unverifiable" => some .constraintUnverifiable
  | "constraint_unknown" => some .constraintUnknown
  | "delegation_not_authorized" => some .delegationNotAuthorized
  | "invalid_scope" => some .invalidScope
  | "invalid" => some .invalid
  | "unauthorized" => some .unauthorized
  | _ => none

/-- An external binding of an identity. -/
structure Anchor where
  anchorType : String
  provider : String
  reference : String
  verifiedAt : Int64
  deriving DecidableEq

/-- The output of a verification; the agent's name and type are always empty. -/
structure VerifyResult where
  valid : Bool
  identityStatus : IdentityStatus
  humanId : String
  agentId : String
  grantedScope : List String
  errorReason : String
  anchor : Option Anchor
  deriving DecidableEq

/-- What the verifier has seen of a stream. -/
structure StreamContext where
  streamId : Bytes
  lastSeenSeq : Int64

/-- A cached policy decision. -/
structure PolicyVerdict where
  version : Int32
  verdictId : String
  agentId : String
  scope : String
  allow : Bool
  contextHash : Bytes
  issuedAt : Int64
  validUntil : Int64
  mac : Bytes

/-- A credential that caches a verified chain. -/
structure SessionToken where
  version : Int32
  sessionId : String
  agentId : String
  agentPubKey : HybridPublicKey
  humanId : String
  grantedScope : List String
  issuedAt : Int64
  validUntil : Int64
  chainHash : Bytes
  mac : Bytes

/-- Constraint, certificate, context, time. -/
abbrev ConstraintEvaluator : Type :=
  Constraint → String → VerifierContext → Int64 → Except String Unit

/-- One turn of a streamed interaction. -/
structure StreamedTurn where
  challenge : Bytes
  challengeAt : Int64
  challengeSig : HybridSignature
  sessionContext : Bytes
  streamId : Bytes
  streamSeq : Int64

end RatifyProtocol.V1
