import RatifyProtocol.V2.Receipt.Log
set_option autoImplicit false

/-!
# Claims: the sealed challenge claim and its payload checks

`v2/claim_store.rs` with the claim ID of `v2/operation_context.rs`, the stream
rule of `v2/stream_sequence.rs` and the challenge deadlines of `v2/limits.rs`.
-/

namespace RatifyProtocol.V2

open Foundation

/-! ## Store errors -/

/-- A claim store, clock or checkpoint failure. -/
inductive V2StoreError where
  | classified (e : V2Error)
  | unavailable (message : String)
  | claimProofConflict
  | rateLimitExceeded
  | releaseStateMismatch
  | acknowledgementNotFound
  | challengeIssuanceConflict
  | challengeIssuanceNotFound
  deriving DecidableEq, Repr

namespace V2StoreError

/-- The class of a store error; `none` means unclassified. -/
def cls : V2StoreError → Option V2ErrorClass
  | classified e => some e.cls
  | claimProofConflict => some .claimReplay
  | rateLimitExceeded => some .claimStoreUnavailable
  | _ => none

/-- `self_message`. -/
def message : V2StoreError → String
  | classified e => e.message
  | unavailable m => m
  | claimProofConflict => "v2 challenge was already claimed by a different proof"
  | rateLimitExceeded => "v2 signed rate limit has no remaining capacity"
  | releaseStateMismatch => "v2 claim already records a different release"
  | acknowledgementNotFound => "v2 checkpoint acknowledgement not found"
  | challengeIssuanceConflict => "v2 challenge issuance record already exists"
  | challengeIssuanceNotFound => "v2 challenge issuance record not found"

/-- The printed form. -/
def text : V2StoreError → String
  | classified e => e.text
  | other => other.message

/-- The error value a store error stands for. -/
def intoV2 : V2StoreError → V2Error
  | classified e => e
  | claimProofConflict => V2Error.new .claimReplay claimProofConflict.message
  | other => V2Error.plain other.message

/-- The error with every unclassified kind given a class. -/
def classifiedOr (e : V2StoreError) (cls : V2ErrorClass) : V2Error := e.intoV2.classify cls

end V2StoreError

abbrev V2StoreResult (α : Type) := Except V2StoreError α

/-- `?` on a classified result inside a store operation. -/
def liftV2 {α : Type} (r : V2Result α) : V2StoreResult α := r.mapError .classified

/-- A classified store failure. -/
def storeErr {α : Type} (cls : V2ErrorClass) (message : String) : V2StoreResult α :=
  .error (.classified (V2Error.new cls message))

@[simp] theorem storeErr_ne_ok {α : Type} {cls : V2ErrorClass} {message : String} {a : α} :
    (storeErr cls message : V2StoreResult α) ≠ .ok a := by simp [storeErr]

@[simp] theorem liftV2_eq_ok_iff {α : Type} {r : V2Result α} {a : α} :
    liftV2 r = .ok a ↔ r = .ok a := by
  cases r <;> simp [liftV2, Except.mapError]

/-! ## The sealed claim -/

/-- One issuer-scoped rolling-window counter. -/
structure V2RateReservation where
  issuerId : String
  certId : String
  windowS : Int
  limit : Int
  deriving DecidableEq, Repr

/-- The immutable identity a verifier persists when it consumes a fresh
challenge. -/
structure V2ChallengeClaim where
  claimId : String
  «namespace» : String
  replayEpoch : Int
  challengeDigest : String
  proofDigest : String
  bundleHash : String
  issuerIds : List String
  requiredScope : String
  contextPolicyDigest : String
  verifierId : String
  agentId : String
  requiresRate : Bool
  rateBatch : List V2RateReservation
  issuedAt : Int
  expiresAt : Int
  maxAgeSeconds : Int
  clockSkewSeconds : Int
  streamId : Option Bytes
  streamSeq : Option Int
  constraintEvaluators : List ConstraintEvaluatorRefV2
  deriving DecidableEq, Repr

/-- Exclusive challenge deadlines. -/
def v2ChallengeTimeCurrent (now issuedAt expiresAt maxAge futureSkew : Int) : Bool :=
  if !validV2Timestamp now || !validV2Timestamp issuedAt || !validV2Timestamp expiresAt then
    false
  else if decide (issuedAt > now) && decide (issuedAt - now > futureSkew) then false
  else match checkedAddV2 issuedAt maxAge with
    | some ageDeadline => decide (now < expiresAt) && decide (now < ageDeadline)
    | none => false

/-- Whether an authoritative time is inside the claim's sealed challenge bounds. -/
def challengeClaimTimeCurrentV2 (claim : V2ChallengeClaim) (now : Int) : Bool :=
  v2ChallengeTimeCurrent now claim.issuedAt claim.expiresAt claim.maxAgeSeconds
    claim.clockSkewSeconds

/-! ## Stream sequence -/

/-- The normative stream-sequence rule: the next sequence is one after the last
accepted one. -/
def checkV2StreamSequence (hasLast : Bool) (last seq : Int) : V2Result Unit :=
  if !(1 ≤ seq && seq ≤ maxSafe) || (hasLast && !(1 ≤ last && last ≤ maxSafe)) then
    err .malformed "v2 stream sequence is outside 1..2^53-1"
  else if hasLast && last == maxSafe then
    err .streamSequenceMismatch "v2 stream sequence is exhausted"
  else
    let expected := if hasLast then last + 1 else 1
    if seq = expected then .ok ()
    else if seq > expected then
      err .streamSequenceMismatch s!"v2 stream sequence {seq} skips expected {expected}"
    else if seq = last then
      err .streamSequenceMismatch s!"v2 stream sequence {seq} was already accepted"
    else err .streamSequenceMismatch s!"v2 stream sequence {seq} precedes accepted {last}"

theorem checkV2StreamSequence_eq_ok {hasLast : Bool} {last seq : Int}
    (h : checkV2StreamSequence hasLast last seq = .ok ()) :
    seq = if hasLast then last + 1 else 1 := by
  by_contra hne
  simp only [checkV2StreamSequence, if_neg hne] at h
  split at h
  · simp at h
  split at h
  · simp at h
  · generalize (if hasLast = true then last + 1 else 1) = expected at h
    split at h
    · simp at h
    split at h <;> simp at h

/-! ## Claim identity -/

/-- `u64::to_be_bytes`. -/
def u64BeBytes (n : Nat) : Bytes :=
  (List.range 8).reverse.map fun i => UInt8.ofNat (n / 256 ^ i)

variable (P : Primitives)

def validateNamespaceEpoch (ns : String) (replayEpoch : Int) : V2Result Unit :=
  if ns = "" then
    err .configurationInvalid "v2 verifier namespace must be non-empty valid UTF-8"
  else if !(0 ≤ replayEpoch && replayEpoch ≤ maxSafe) then
    err .configurationInvalid "v2 replay epoch is outside 0..2^53-1"
  else .ok ()

/-- The stable claim ID bound to the namespace and replay epoch. -/
def protocolClaimIdFromDigestV2 (ns : String) (replayEpoch : Int) (claimDigest : Bytes) :
    V2Result String := do
  validateNamespaceEpoch ns replayEpoch
  if claimDigest.length ≠ 48 then
    err .malformed "v2 challenge claim digest must be exactly 48 bytes"
  else
    .ok (hexEncode (P.sha256 (utf8 "ratify-protocol-claim-id-v2\x00"
      ++ u64BeBytes (utf8 ns).length ++ utf8 ns ++ u64BeBytes replayEpoch.toNat ++ claimDigest)))

/-- The bytes of a lowercase hexadecimal text. -/
def hexDecodeChars : List Char → Option Bytes
  | [] => some []
  | a :: b :: rest => do
    let x ← hexValue? a
    let y ← hexValue? b
    let tail ← hexDecodeChars rest
    some (UInt8.ofNat (x * 16 + y) :: tail)
  | _ => none

theorem hexDecodeChars_hexEncode (b : Bytes) :
    hexDecodeChars (hexEncode b).toList = some b := by
  rw [hexEncode, String.toList_ofList]
  induction b with
  | nil => rfl
  | cons x b ih =>
    have hx := x.toNat_lt
    rw [List.flatMap_cons, List.cons_append, List.cons_append, List.nil_append, hexDecodeChars,
      hexValue?_hexDigit (by omega), hexValue?_hexDigit (by omega), ih]
    have hjoin : x.toNat / 16 * 16 + x.toNat % 16 = x.toNat := by omega
    simp only [Option.bind_eq_bind, Option.bind_some, hjoin, UInt8.ofNat_toNat]

/-- The digest a claim's `challenge_digest` spells. -/
def challengeDigestBytes (claim : V2ChallengeClaim) : Option Bytes :=
  if validPrefixedDigest claim.challengeDigest then
    hexDecodeChars (claim.challengeDigest.toList.drop "sha384:".toList.length)
  else none

/-- Whether the claim ID is the stable claim ID of the claim's namespace, replay
epoch and challenge digest. -/
def claimIdMatchesKey (claim : V2ChallengeClaim) : Bool :=
  match challengeDigestBytes claim with
  | none => false
  | some digest =>
    match protocolClaimIdFromDigestV2 P claim.namespace claim.replayEpoch digest with
    | .ok id => id == claim.claimId
    | .error _ => false

/-- A claim whose ID is derived from its key matches it. -/
theorem claimIdMatchesKey_of_derived {claim : V2ChallengeClaim} {digest : Bytes}
    (hdigest : claim.challengeDigest = "sha384:" ++ hexEncode digest)
    (hlength : digest.length = 48)
    (hid : protocolClaimIdFromDigestV2 P claim.namespace claim.replayEpoch digest
      = .ok claim.claimId) : claimIdMatchesKey P claim = true := by
  have hbytes : challengeDigestBytes claim = some digest := by
    rw [challengeDigestBytes, hdigest, if_pos (validPrefixedDigest_hexEncode hlength),
      String.toList_append, List.drop_left' rfl, hexDecodeChars_hexEncode]
  simp only [claimIdMatchesKey, hbytes, hid, beq_self_eq_true]

/-- A claim ID that matches its key is a hexadecimal hash. -/
theorem exists_claimId_hash {claim : V2ChallengeClaim} (h : claimIdMatchesKey P claim = true) :
    ∃ b, claim.claimId = hexEncode (P.sha256 b) := by
  simp only [claimIdMatchesKey] at h
  split at h
  · cases h
  split at h
  · rename_i id hid
    rw [protocolClaimIdFromDigestV2, bind_eq_ok_iff] at hid
    obtain ⟨-, -, hid⟩ := hid
    split at hid
    · cases hid
    · exact ⟨_, (beq_iff_eq.mp h).symm.trans (Except.ok.inj hid).symm⟩
  · cases h

theorem claimId_ne_empty {claim : V2ChallengeClaim} (h : claimIdMatchesKey P claim = true) :
    claim.claimId ≠ "" := by
  obtain ⟨b, hid⟩ := exists_claimId_hash P h
  intro hempty
  have hlen := length_utf8_hexEncode (P.sha256 b)
  rw [← hid, hempty, P.length_sha256] at hlen
  cases hlen

/-- What a replay key is made of. -/
def V2ChallengeClaim.replayKey (claim : V2ChallengeClaim) : String × Int × String :=
  (claim.namespace, claim.replayEpoch, claim.challengeDigest)

/-- Claims of one replay key have one claim ID. -/
theorem claimId_eq_of_replayKey {a b : V2ChallengeClaim} (ha : claimIdMatchesKey P a = true)
    (hb : claimIdMatchesKey P b = true) (h : a.replayKey = b.replayKey) :
    a.claimId = b.claimId := by
  simp only [V2ChallengeClaim.replayKey, Prod.mk.injEq] at h
  obtain ⟨hns, hepoch, hdigest⟩ := h
  simp only [claimIdMatchesKey, challengeDigestBytes, ← hns, ← hepoch, ← hdigest] at ha hb
  split at ha
  · simp at ha
  · rename_i digest hd
    simp only [hd] at hb
    split at ha
    · rename_i id hid
      simp only [hid, beq_iff_eq] at ha hb
      exact ha.symm.trans hb
    · simp at ha

/-! ## The finalization payload -/

/-- The canonical terminal-result object. -/
def terminalResultJson (decision reason identityStatus : String) : V2Result Bytes :=
  canonical (.obj [("decision", .str decision), ("decision_reason", .str reason),
    ("identity_status", .str identityStatus)])

/-- A text member of a parsed object; `null` reads as the empty text. -/
def textMember (fields : Obj) (name : String) : Option String :=
  match fields.get name with
  | some n =>
    match n.v with
    | .str s => some s
    | .null => some ""
    | _ => none
  | none => none

/-- The decision, its reason and the identity status a body states. -/
def bodyOutcome (value : Bytes) : Option (String × String × String) :=
  match parseJson value with
  | .error _ => none
  | .ok root =>
    match root.v with
    | .obj fields => do
      let decision ← textMember fields "decision"
      let reason ← textMember fields "decision_reason"
      let identity ← textMember fields "identity_status"
      some (decision, reason, identity)
    | _ => none

/-- The body states the wanted decision and reason, and the terminal result is
exactly the canonical form of what the body states. -/
def terminalPayloadMatchesV2 (terminalResult receiptBody : Bytes)
    (wantDecision wantReason : String) : Bool :=
  match bodyOutcome receiptBody with
  | some (decision, reason, identity) =>
    decision == wantDecision && reason == wantReason
      && (match terminalResultJson decision reason identity with
        | .ok want => want == terminalResult
        | .error _ => false)
  | none => false

/-- `validate_v2_finalization_payload`: a terminal result and its receipt body
belong to the sealed claim. -/
def validateV2FinalizationPayload (claim : V2ChallengeClaim) (terminalResult receiptBody : Bytes) :
    V2Result Unit :=
  classify .configurationInvalid do
    let body ← decodeVerificationReceiptBodyV2 receiptBody
    refuseIf (body.verifierId != claim.verifierId)
      "v2 receipt body verifier_id differs from the sealed claim"
    refuseIf (body.agentId != claim.agentId)
      "v2 receipt body agent_id differs from the sealed claim"
    refuseIf (body.bundleHash != claim.bundleHash)
      "v2 receipt body bundle_hash differs from the sealed claim"
    refuseIf (body.issuerIds != sortedUnique claim.issuerIds)
      "v2 receipt body issuer_ids differ from the sealed claim"
    refuseIf (body.requiredScope != claim.requiredScope)
      "v2 receipt body required_scope differs from the sealed claim"
    let wantPolicyDigest :=
      if body.contextAssessment ≠ "not_evaluated" ∧ claim.contextPolicyDigest ≠ "" then
        some claim.contextPolicyDigest
      else none
    refuseIf (body.contextPolicyDigest != wantPolicyDigest)
      "v2 receipt body context_policy_digest differs from the sealed claim"
    refuseIf (body.constraintEvaluators != claim.constraintEvaluators)
      "v2 receipt body constraint_evaluators differ from the sealed evaluator snapshot"
    refuseIf (!terminalPayloadMatchesV2 terminalResult receiptBody body.decision
        body.decisionReason)
      ("v2 terminal result is not the canonical decision, reason and identity status of the "
        ++ "receipt body")

end RatifyProtocol.V2
