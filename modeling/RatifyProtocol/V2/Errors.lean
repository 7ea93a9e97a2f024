import RatifyProtocol.Foundation.Result
set_option autoImplicit false

/-!
# V2: failure classes

`v2/errors.rs`.  Every failure carries one class of the closed registry; an
error may be created before its class is known and keeps a provisional class
until `classify` fixes it.
-/

namespace RatifyProtocol.V2

open Foundation

/-- The closed list of failure classes. -/
inductive V2ErrorClass where
  | malformed
  | unsupportedObjectType
  | keyIdMismatch
  | delegationDigestMismatch
  | chainLinkageMismatch
  | duplicateCertificateRef
  | invalidSignature
  | invalidRequiredScope
  | configurationInvalid
  | expectedChallengeUnavailable
  | namespaceMismatch
  | staleReplayEpoch
  | verifierIdMismatch
  | challengeMismatch
  | challengeNotFresh
  | expectedAgentMismatch
  | sessionContextMismatch
  | receiverAudienceRequired
  | receiverAudienceMismatch
  | receiverBindingRejected
  | claimReplay
  | streamSequenceMismatch
  | claimStoreUnavailable
  | receiptAbandoned
  | evaluationCancelled
  | clockRegressed
  | allowHorizonPassed
  | claimLeaseLive
  | claimLeaseLost
  | claimAlreadyTerminal
  | claimNotFound
  | statusKeyBindingMismatch
  | statusObjectRejected
  | receiptBundleMismatch
  | bundleHashMismatch
  | transactionPartyMismatch
  | transactionContextMismatch
  | transactionSignatureSetInvalid
  | rotationStateMismatch
  | rotationKeyReused
  | rotationFutureDated
  | rotationFork
  | rotationFrozen
  | rotationRecoveryInvalid
  | logStateMismatch
  | logGap
  | logOrphan
  | logFork
  | logFrozen
  deriving DecidableEq, Repr

/-- The spelling of a class. -/
def V2ErrorClass.asStr : V2ErrorClass → String
  | .malformed => "malformed"
  | .unsupportedObjectType => "unsupported_object_type"
  | .keyIdMismatch => "key_id_mismatch"
  | .delegationDigestMismatch => "delegation_digest_mismatch"
  | .chainLinkageMismatch => "chain_linkage_mismatch"
  | .duplicateCertificateRef => "duplicate_certificate_ref"
  | .invalidSignature => "invalid_signature"
  | .invalidRequiredScope => "invalid_required_scope"
  | .configurationInvalid => "configuration_invalid"
  | .expectedChallengeUnavailable => "expected_challenge_unavailable"
  | .namespaceMismatch => "namespace_mismatch"
  | .staleReplayEpoch => "stale_replay_epoch"
  | .verifierIdMismatch => "verifier_id_mismatch"
  | .challengeMismatch => "challenge_mismatch"
  | .challengeNotFresh => "challenge_not_fresh"
  | .expectedAgentMismatch => "expected_agent_mismatch"
  | .sessionContextMismatch => "session_context_mismatch"
  | .receiverAudienceRequired => "receiver_audience_required"
  | .receiverAudienceMismatch => "receiver_audience_mismatch"
  | .receiverBindingRejected => "receiver_binding_rejected"
  | .claimReplay => "claim_replay"
  | .streamSequenceMismatch => "stream_sequence_mismatch"
  | .claimStoreUnavailable => "claim_store_unavailable"
  | .receiptAbandoned => "receipt_abandoned"
  | .evaluationCancelled => "evaluation_cancelled"
  | .clockRegressed => "clock_regressed"
  | .allowHorizonPassed => "allow_horizon_passed"
  | .claimLeaseLive => "claim_lease_live"
  | .claimLeaseLost => "claim_lease_lost"
  | .claimAlreadyTerminal => "claim_already_terminal"
  | .claimNotFound => "claim_not_found"
  | .statusKeyBindingMismatch => "status_key_binding_mismatch"
  | .statusObjectRejected => "status_object_rejected"
  | .receiptBundleMismatch => "receipt_bundle_mismatch"
  | .bundleHashMismatch => "bundle_hash_mismatch"
  | .transactionPartyMismatch => "transaction_party_mismatch"
  | .transactionContextMismatch => "transaction_context_mismatch"
  | .transactionSignatureSetInvalid => "transaction_signature_set_invalid"
  | .rotationStateMismatch => "rotation_state_mismatch"
  | .rotationKeyReused => "rotation_key_reused"
  | .rotationFutureDated => "rotation_future_dated"
  | .rotationFork => "rotation_fork"
  | .rotationFrozen => "rotation_frozen"
  | .rotationRecoveryInvalid => "rotation_recovery_invalid"
  | .logStateMismatch => "log_state_mismatch"
  | .logGap => "log_gap"
  | .logOrphan => "log_orphan"
  | .logFork => "log_fork"
  | .logFrozen => "log_frozen"

/-- A classified failure.  `explicit` records whether the class was fixed
deliberately or is still the provisional `malformed`. -/
structure V2Error where
  cls : V2ErrorClass
  message : String
  explicit : Bool
  deriving DecidableEq, Repr

/-- The result of a protocol operation. -/
abbrev V2Result (α : Type) := Except V2Error α

namespace V2Error

/-- A classified error. -/
def new (cls : V2ErrorClass) (message : String) : V2Error :=
  { cls, message, explicit := true }

/-- An error whose class is assigned later. -/
def plain (message : String) : V2Error :=
  { cls := .malformed, message, explicit := false }

/-- Assign `cls` only when no class was fixed yet. -/
def classify (e : V2Error) (cls : V2ErrorClass) : V2Error :=
  if e.explicit then e else { e with cls, explicit := true }

/-- Prefix the diagnostic message, keeping the class. -/
def context (e : V2Error) (label : String) : V2Error :=
  { e with message := label ++ ": " ++ e.message }

/-- The text of a failure: its message and its class. -/
def text (e : V2Error) : String := e.message ++ " (" ++ e.cls.asStr ++ ")"

end V2Error

variable {α β : Type}

def err (cls : V2ErrorClass) (message : String) : V2Result α :=
  .error (V2Error.new cls message)

def plain (message : String) : V2Result α := .error (V2Error.plain message)

/-- Fix the class of an unclassified failure. -/
def classify (cls : V2ErrorClass) (r : V2Result α) : V2Result α :=
  r.mapError fun e => e.classify cls

/-- Prefix a failure's diagnostic message. -/
def withContext (r : V2Result α) (label : String) : V2Result α :=
  r.mapError fun e => e.context label

/-- `if bad { return plain(message) }`. -/
def refuseIf (bad : Bool) (message : String) : V2Result Unit :=
  if bad then plain message else .ok ()

/-! ## Success through the error combinators -/

@[simp] theorem classify_eq_ok_iff {r : V2Result α} {cls : V2ErrorClass} {a : α} :
    classify cls r = .ok a ↔ r = .ok a := by
  cases r <;> simp [classify, Except.mapError]

@[simp] theorem withContext_eq_ok_iff {r : V2Result α} {label : String} {a : α} :
    withContext r label = .ok a ↔ r = .ok a := by
  cases r <;> simp [withContext, Except.mapError]

@[simp] theorem plain_ne_ok {message : String} {a : α} :
    (plain message : V2Result α) ≠ .ok a := by simp [plain]

@[simp] theorem err_ne_ok {cls : V2ErrorClass} {message : String} {a : α} :
    (err cls message : V2Result α) ≠ .ok a := by simp [err]

@[simp] theorem refuseIf_eq_ok_iff {bad : Bool} {message : String} {u : Unit} :
    refuseIf bad message = .ok u ↔ bad = false := by
  cases bad <;> simp [refuseIf]

/-- A passed refusal disappears from a sequence of checks. -/
theorem refuseIf_bind_eq_ok_iff {bad : Bool} {message : String} {f : Unit → V2Result α}
    {a : α} :
    (refuseIf bad message >>= f) = .ok a ↔ bad = false ∧ f () = .ok a := by
  cases bad with
  | false => simp [refuseIf]
  | true => simp [refuseIf, plain]

/-! ## Classes a result cannot fail with -/

/-- No failure of `r` has the class. -/
def Avoids (cls : V2ErrorClass) (r : V2Result α) : Prop := ∀ e, r = .error e → e.cls ≠ cls

section Avoids

variable {cls : V2ErrorClass}

theorem avoids_ok (a : α) : Avoids cls (.ok a : V2Result α) := by
  intro e he
  cases he

theorem avoids_err {c : V2ErrorClass} (h : c ≠ cls) (message : String) :
    Avoids cls (err c message : V2Result α) := by
  intro e he
  cases he
  exact h

theorem avoids_plain (h : V2ErrorClass.malformed ≠ cls) (message : String) :
    Avoids cls (plain message : V2Result α) := by
  intro e he
  cases he
  exact h

theorem avoids_refuseIf (h : V2ErrorClass.malformed ≠ cls) (bad : Bool) (message : String) :
    Avoids cls (refuseIf bad message) := by
  cases bad with
  | false => exact avoids_ok ()
  | true => exact avoids_plain h message

theorem avoids_bind {x : V2Result α} {f : α → V2Result β} (hx : Avoids cls x)
    (hf : ∀ a, x = .ok a → Avoids cls (f a)) : Avoids cls (x >>= f) := by
  cases x with
  | error e =>
    intro e' he'
    cases he'
    exact hx e rfl
  | ok a => exact hf a rfl

theorem avoids_classify {c : V2ErrorClass} (h : c ≠ cls) {r : V2Result α} (hr : Avoids cls r) :
    Avoids cls (classify c r) := by
  cases r with
  | ok a => exact avoids_ok a
  | error e =>
    intro e' he'
    cases he'
    show (e.classify c).cls ≠ cls
    unfold V2Error.classify
    split
    · exact hr e rfl
    · exact h

theorem avoids_withContext {r : V2Result α} (hr : Avoids cls r) (label : String) :
    Avoids cls (withContext r label) := by
  cases r with
  | ok a => exact avoids_ok a
  | error e =>
    intro e' he'
    cases he'
    exact hr e rfl

end Avoids

end RatifyProtocol.V2
