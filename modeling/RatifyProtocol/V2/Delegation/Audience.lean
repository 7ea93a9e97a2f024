import RatifyProtocol.Foundation.SortedSet
import RatifyProtocol.V2.Delegation.Local
import RatifyProtocol.V2.Evaluators
set_option autoImplicit false

/-!
# V2: the receiver audience

`evaluate_receiver_audience_inner` of `v2/audience.rs` with `audience_params` of
`v2/constraints.rs`.  A first pass decodes the sealed constraints and finds the
smallest age limit; a second one compares each with its membership.
-/

namespace RatifyProtocol.V2

open Foundation

/-- An authenticated membership result for one constrained certificate link. -/
structure V2AudienceMembership where
  delegationIndex : Nat
  constraintIndex : Nat
  receiverId : String
  trustDomainIds : List String
  issuedAt : Int
  expiresAt : Int
  evidenceDigest : String

structure V2AudienceAssessment where
  status : ConstraintStatusV2
  evidenceDigests : List String
  freshUntil : Int
  deriving DecidableEq, Repr

/-! ## Sealed constraints -/

/-- The strings of one list of audience parameters. -/
def audienceList (c : ConstraintV2) (key : String) : List String :=
  match c.params.bind fun m => OrderedMap.find key m.entries with
  | some (.array items) => items.filterMap fun
    | .str s => some s
    | _ => none
  | _ => []

def audienceAge (c : ConstraintV2) : Int :=
  match c.params.bind fun m => OrderedMap.find "max_membership_age_seconds" m.entries with
  | some (.int n) => n
  | _ => 0

/-- `AudienceLink`, with the membership age of its constraint. -/
structure AudienceLink where
  exactReceiverIds : List String
  trustDomainIds : List String
  delegationIndex : Nat
  constraintIndex : Nat
  age : Int

def AudienceLink.position (l : AudienceLink) : Nat × Nat := (l.delegationIndex, l.constraintIndex)

def V2DeferredConstraint.position (d : V2DeferredConstraint) : Nat × Nat :=
  (d.delegationIndex, d.constraintIndex)

def V2AudienceMembership.position (m : V2AudienceMembership) : Nat × Nat :=
  (m.delegationIndex, m.constraintIndex)

/-- The body of the first loop: one sealed constraint, with the positions before it. -/
def audienceLink (seen : List (Nat × Nat)) (item : V2DeferredConstraint) :
    V2Result AudienceLink := do
  let node ← withContext (parseJson item.canonicalJson) "v2 sealed audience constraint is invalid"
  withContext (validateV2ConstraintFields node) "v2 sealed audience constraint is invalid"
  refuseIf (seen.contains item.position)
    "v2 audience constraint has duplicate or invalid position"
  let original ← withContext (ConstraintV2.fromNode node)
    "v2 audience constraint cannot be decoded"
  refuseIf (!reads original.canonicalJson fun encoded => encoded == item.canonicalJson)
    "v2 audience constraint is not canonical"
  refuseIf (original.kind != constraintReceiverAudience)
    "v2 sealed audience constraint has wrong type"
  let domains := audienceList original "trust_domain_ids"
  let age := audienceAge original
  refuseIf (!domains.isEmpty && decide (age ≤ 0 ∨ age > v2MaxAudienceMembershipAgeSeconds))
    s!"v2 audience membership age must be 1..{v2MaxAudienceMembershipAgeSeconds} seconds"
  .ok { exactReceiverIds := audienceList original "exact_receiver_ids", trustDomainIds := domains
        delegationIndex := item.delegationIndex, constraintIndex := item.constraintIndex, age }

/-- The first loop. -/
def audienceLinks : List (Nat × Nat) → List V2DeferredConstraint → V2Result (List AudienceLink)
  | _, [] => .ok []
  | seen, item :: deferred =>
    if item.kind ≠ constraintReceiverAudience then audienceLinks seen deferred
    else do
      let link ← audienceLink seen item
      let links ← audienceLinks (item.position :: seen) deferred
      .ok (link :: links)

/-- The smallest age limit of the links with trust domains. -/
def smallestAge (links : List AudienceLink) : Int :=
  links.foldl (fun maxAge link =>
    if !link.trustDomainIds.isEmpty && decide (link.age < maxAge) then link.age else maxAge) maxSafe

/-! ## Memberships -/

/-- The only membership at the position of a link, given the one found so far. -/
def membershipFor (link : AudienceLink) :
    Option V2AudienceMembership → List V2AudienceMembership → Option V2AudienceMembership
  | found, [] => found
  | found, candidate :: rest =>
    if candidate.position = link.position then
      if found.isSome then none else membershipFor link (some candidate) rest
    else membershipFor link found rest

/-- What a membership is checked against. -/
structure AudienceTime where
  receiverId : String
  now : Int
  futureSkew : Int
  maxAge : Int

/-- A membership of the receiver that is well formed and current. -/
def AudienceTime.current (s : AudienceTime) (m : V2AudienceMembership) : Bool :=
  !(m.receiverId != s.receiverId
    || !validPrefixedDigest m.evidenceDigest
    || !validV2Timestamp m.issuedAt
    || !validV2Timestamp m.expiresAt
    || decide (m.issuedAt ≥ m.expiresAt)
    || decide (s.now ≥ m.expiresAt)
    || decide (m.issuedAt > s.now ∧ m.issuedAt - s.now > s.futureSkew)
    -- The age deadline is exclusive.
    || decide (s.now ≥ m.issuedAt ∧ s.now - m.issuedAt ≥ s.maxAge))

/-- Whether some domain of a membership is one of the link's; nothing when the
domains are malformed. -/
def matchDomains (link : AudienceLink) : List String → Bool → List String → Option Bool
  | _, matched, [] => some matched
  | seen, matched, domain :: rest =>
    if domain = "" ∨ seen.contains domain then none
    else matchDomains link (domain :: seen) (matched || link.trustDomainIds.contains domain) rest

/-- What the second loop finds for one link. -/
inductive LinkAnswer where
  | exact
  | unmatchable
  | unavailable
  | mismatched (m : V2AudienceMembership)
  | matched (m : V2AudienceMembership)

def linkAnswer (s : AudienceTime) (memberships : List V2AudienceMembership)
    (link : AudienceLink) : LinkAnswer :=
  if link.exactReceiverIds.any (· == s.receiverId) then .exact
  else if link.trustDomainIds.isEmpty then .unmatchable
  else
    match membershipFor link none memberships with
    | none => .unavailable
    | some m =>
      if s.current m then
        match matchDomains link [] false m.trustDomainIds with
        | none => .unavailable
        | some false => .mismatched m
        | some true => .matched m
      else .unavailable

/-! ## The assessment -/

/-- The state of the second loop. -/
structure AudienceState where
  denied : Bool
  unavailable : Bool
  evidence : List String
  freshUntil : Int

def AudienceState.initial : AudienceState :=
  { denied := false, unavailable := false, evidence := [], freshUntil := maxSafe }

/-- The body of the second loop. -/
def AudienceState.record (s : AudienceTime) (a : AudienceState) :
    LinkAnswer → V2Result AudienceState
  | .exact => .ok a
  | .unmatchable => plain "v2 exact-only audience mismatch passed preflight"
  | .unavailable => .ok { a with unavailable := true }
  | .mismatched m => .ok { a with denied := true, evidence := a.evidence ++ [m.evidenceDigest] }
  | .matched m =>
    .ok { a with
      evidence := a.evidence ++ [m.evidenceDigest]
      freshUntil := min (min a.freshUntil m.expiresAt) (m.issuedAt + s.maxAge) }

def AudienceState.assessment (a : AudienceState) : V2AudienceAssessment :=
  let evidenceDigests := sortedUnique a.evidence
  if a.denied then { status := .denied, evidenceDigests, freshUntil := 0 }
  else if a.unavailable then { status := .unverifiable, evidenceDigests, freshUntil := 0 }
  else { status := .passed, evidenceDigests, freshUntil := a.freshUntil }

/-- `evaluate_receiver_audience_inner`. -/
def evaluateReceiverAudience (deferred : List V2DeferredConstraint) (receiverId : String)
    (memberships : List V2AudienceMembership) (now futureSkew : Int) :
    V2Result V2AudienceAssessment := do
  refuseIf (receiverId == "" || !validV2Timestamp now
      || !(0 ≤ futureSkew && futureSkew ≤ v2MaxFutureSkewSeconds))
    "v2 audience requires a sealed receiver and valid security time"
  let links ← audienceLinks [] deferred
  refuseIf links.isEmpty "v2 audience stage has no audience constraints"
  let s : AudienceTime := { receiverId, now, futureSkew, maxAge := smallestAge links }
  let a ← links.foldlM (fun (a : AudienceState) link => a.record s (linkAnswer s memberships link))
    AudienceState.initial
  .ok a.assessment

end RatifyProtocol.V2
