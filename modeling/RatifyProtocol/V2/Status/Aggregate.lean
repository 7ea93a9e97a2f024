import RatifyProtocol.Foundation.Horizon
import RatifyProtocol.Foundation.OrderedMap
import RatifyProtocol.V2.Status.Query
set_option autoImplicit false

/-!
# Status: one assessment for a chain of certificates

`aggregate_certificate_status_v2` of `v2/status.rs`: one status result for every
certificate, gathered in list order into one assessment with its evidence.
-/

namespace RatifyProtocol.V2

open Foundation

/-- A certificate whose status must be resolved. -/
structure V2CertificateStatusCheck where
  delegationIndex : Nat
  issuerId : String
  subjectId : String
  certId : String
  deriving DecidableEq, Repr

/-- Which status key speaks for which issuer, and the keys that must not. -/
structure V2StatusRoleBindings where
  statusKeyIssuers : OrderedMap String String
  currentStatusKeyIds : OrderedMap String String
  reservedKeyIds : List String

/-- `RevocationStatusResultV2` as the aggregator reads it, with the texts of its
status and reason. -/
structure StatusResultV2 where
  status : String
  reason : String
  evidence : List StatusEvidenceEntryV2
  freshUntil : Int
  deriving DecidableEq, Repr

structure V2StatusAssessment where
  assessment : String
  reason : String
  evidence : List StatusEvidenceEntryV2
  freshUntil : Int
  deriving DecidableEq, Repr

def RevocationAnswer.asStr : RevocationAnswer → String
  | .notRevoked => "not_revoked"
  | .revoked => "revoked"
  | .indeterminate => "indeterminate"

def IndeterminateReason.asStr : IndeterminateReason → String
  | .none => ""
  | .unavailable => "unavailable"
  | .stale => "stale"

/-- The answer for one certificate, with its texts. -/
def RevocationStatusResultV2.toResult (r : RevocationStatusResultV2) : StatusResultV2 :=
  { status := r.status.asStr, reason := r.reason.asStr, evidence := r.evidence
    freshUntil := r.freshUntil }

/-! ## Checks before the results are read -/

/-- The loop of `validate_roles` over the bindings. -/
def validateKeyIssuers (reserved : List String) : List (String × String) → V2Result Unit
  | [] => .ok ()
  | (key, issuer) :: bindings => do
    refuseIf (!validV2Id key || !validV2Id issuer)
      "authenticated status-key binding is malformed"
    refuseIf (reserved.contains key) "status key collides with a reserved non-status key role"
    validateKeyIssuers reserved bindings

/-- The binding of the issuer of one check. -/
def issuerBound (roles : V2StatusRoleBindings) (allowUnboundIssuers : Bool)
    (issuerId : String) : Bool :=
  match roles.currentStatusKeyIds.get? issuerId with
  | none => allowUnboundIssuers || roles.statusKeyIssuers.get? "" == some issuerId
  | some key => roles.statusKeyIssuers.get? key == some issuerId

/-- `valid_current_evidence`: one list and the pushes right after it, of one issuer
and under one status key. -/
def validCurrentEvidence (evidence : List StatusEvidenceEntryV2) (issuerId : String) : Bool :=
  evidence.all (fun e => e.issuerId == issuerId && (e.objectType == LIST || e.objectType == PUSH))
    && match evidence.filter fun e => e.objectType == LIST with
      | [base] =>
        let pushes := (evidence.filter fun e => e.objectType == PUSH).insertionSort
          fun a b => a.sequence ≤ b.sequence
        pushes.all (fun p => p.statusKeyId == base.statusKeyId)
          && pushes.map (·.sequence)
            == (List.range pushes.length).map fun i : Nat => base.sequence + i + 1
      | _ => false

/-- `add_history`: the first history of an issuer is kept, a further one must be
the same. -/
def addHistory (h : OrderedMap String (List StatusEvidenceEntryV2)) (issuer : String)
    (evidence : List StatusEvidenceEntryV2) :
    Bool × OrderedMap String (List StatusEvidenceEntryV2) :=
  match h.get? issuer with
  | none => (true, h.insert issuer (sortEvidence evidence))
  | some prior => (prior == sortEvidence evidence, h)

/-- The evidence gathered so far, the entry that last used each digest, and the
digests that two entries share. -/
structure GatheredEvidence where
  evidenceOut : List StatusEvidenceEntryV2
  bindings : OrderedMap String StatusEvidenceEntryV2
  invalidDigests : List String

namespace GatheredEvidence

def empty : GatheredEvidence := { evidenceOut := [], bindings := .empty, invalidDigests := [] }

def add (g : GatheredEvidence) (e : StatusEvidenceEntryV2) : GatheredEvidence where
  evidenceOut := pushUnique g.evidenceOut e
  bindings := g.bindings.insert e.digest e
  invalidDigests :=
    if (g.bindings.get? e.digest).any (· != e) then e.digest :: g.invalidDigests
    else g.invalidDigests

end GatheredEvidence

/-! ## The loop over the results -/

/-- What the checks tell the loop: the sets of issuers and of subjects. -/
structure ChainIds where
  issuers : List String
  subjects : List String

/-- The checks on one entry of a result. -/
def entryAdmitted (roles : V2StatusRoleBindings) (ids : ChainIds) (issuerId status : String)
    (e : StatusEvidenceEntryV2) : Bool :=
  e.issuerId == issuerId && validV2Id e.statusKeyId && decide (0 < e.sequence)
    && decide (e.sequence ≤ maxSafe) && validPrefixedDigest e.digest
    && (e.objectType == LIST || e.objectType == PUSH)
    && !ids.issuers.contains e.statusKeyId && !ids.subjects.contains e.statusKeyId
    && !roles.reservedKeyIds.contains e.statusKeyId
    && roles.statusKeyIssuers.get? e.statusKeyId == some e.issuerId
    && (status == "revoked" || roles.currentStatusKeyIds.get? e.issuerId == some e.statusKeyId)

/-- The loop over the entries of a result: an entry that fails a check is skipped
and makes the result invalid. -/
def gatherEntries (admitted : StatusEvidenceEntryV2 → Bool) :
    Bool → GatheredEvidence → List StatusEvidenceEntryV2 → Bool × GatheredEvidence
  | valid, g, [] => (valid, g)
  | valid, g, e :: es =>
    if admitted e then gatherEntries admitted valid (g.add e) es
    else gatherEntries admitted false g es

/-- The variables of the loop over the results. -/
structure Aggregation where
  gathered : GatheredEvidence
  invalid : Bool
  anyUnavailable : Bool
  anyStale : Bool
  freshUntil : Int
  revokedCandidates : List StatusResultV2
  history : OrderedMap String (List StatusEvidenceEntryV2)

namespace Aggregation

def empty : Aggregation :=
  { gathered := .empty, invalid := false, anyUnavailable := false, anyStale := false
    freshUntil := 0, revokedCandidates := [], history := .empty }

/-- The match on the status of a result, whose entries were `valid` or not. -/
def judge (a : Aggregation) (issuerId : String) (r : StatusResultV2) (valid : Bool) :
    Bool × Aggregation :=
  if r.status = "not_revoked" then
    if valid && r.reason == "" && decide (0 < r.freshUntil) && decide (r.freshUntil ≤ maxSafe)
        && validCurrentEvidence r.evidence issuerId then
      let (agrees, history) := addHistory a.history issuerId r.evidence
      (agrees, { a with freshUntil := tighten a.freshUntil r.freshUntil, history })
    else (false, a)
  else if r.status = "revoked" then
    if valid && r.reason == "" && !r.evidence.isEmpty then
      (true, { a with revokedCandidates := a.revokedCandidates ++ [r] })
    else (false, a)
  else if r.status = "indeterminate" then
    if r.reason = "unavailable" then (valid, { a with anyUnavailable := true })
    else if r.reason = "stale" then
      if valid && validCurrentEvidence r.evidence issuerId then
        let (agrees, history) := addHistory a.history issuerId r.evidence
        (agrees, { a with history, anyStale := true })
      else (false, { a with anyStale := true })
    else (false, a)
  else (false, a)

/-- One round of the loop; of the check it reads only the issuer. -/
def step (roles : V2StatusRoleBindings) (ids : ChainIds) (a : Aggregation)
    (row : String × StatusResultV2) : Aggregation :=
  let (valid, gathered) := gatherEntries (entryAdmitted roles ids row.1 row.2.status) true
    a.gathered row.2.evidence
  let (valid, a) := { a with gathered }.judge row.1 row.2 valid
  { a with invalid := a.invalid || !valid }

end Aggregation

/-! ## The assessment -/

end RatifyProtocol.V2
