import RatifyProtocol.Foundation.OrderedMap
import RatifyProtocol.V2.StatementBody
set_option autoImplicit false

/-!
# V2: caller-head log verification

`log_position`, `verify_witness_entry_v2` and `verify_verification_receipt_v2`
of `v2/witness.rs` and `v2/receipt.rs`: a signed entry is placed against the
head a caller has authenticated.
-/

namespace RatifyProtocol.V2

open Foundation

/-- Outcome of a log or journal acceptance check. -/
inductive WitnessEntryV2Result where
  /-- The next valid entry; the caller must atomically persist the new head. -/
  | appended
  /-- An exact accepted body at an accepted sequence; state is unchanged. -/
  | replay
  deriving DecidableEq, Repr

/-- Caller-authenticated log state before an entry. -/
structure WitnessV2Head where
  logId : String
  sequence : Int
  headHash : Bytes
  acceptedDigests : List (Int × Bytes)
  frozen : Bool
  deriving DecidableEq, Repr

/-- The shared replay, fork, frozen, gap and orphan decision of both logs. -/
def logPosition (sequence : Int) (previous digest : Bytes) (head : WitnessV2Head) :
    V2Result WitnessEntryV2Result :=
  if sequence ≤ head.sequence then
    if head.acceptedDigests.lookup sequence = some digest then .ok .replay
    else err .logFork s!"log fork at sequence {sequence}; caller must freeze log {head.logId}"
  else if head.frozen then err .logFrozen "log is frozen"
  else if sequence > head.sequence + 1 then
    err .logGap s!"log sequence gap: got {sequence} after {head.sequence}"
  else if previous ≠ head.headHash then
    err .logOrphan "entry does not link to the current head"
  else .ok .appended

variable (P : Primitives)

/-- Verify key identity, log position and signature against caller state. -/
def verifyWitnessEntryV2 (e : WitnessEntryV2) (head : WitnessV2Head)
    (witnessKey : HybridPublicKey) : V2Result WitnessEntryV2Result := do
  classify .malformed (validateWitnessEntry e true)
  let _ ← classify .malformed (encodeWitnessEntryV2 e)
  validateHead head.logId head.sequence head.headHash head.acceptedDigests
  let witnessId ← keyIdV2 P witnessKey
  if e.witnessId ≠ witnessId ∨ e.logId ≠ head.logId then
    err .logStateMismatch
      "witness entry key or log ID does not match caller-authenticated state"
  else do
    let body ← witnessEntryV2SignableBytes e
    verifyV2Statement P .witnessEntry body e.signature witnessKey
    let digest ← witnessEntryV2Digest P e
    logPosition e.sequence e.prevHash digest head

/-- The state of a receipt log without its verifier. -/
def ReceiptV2Head.log (head : ReceiptV2Head) : WitnessV2Head :=
  { logId := head.logId, sequence := head.sequence, headHash := head.headHash,
    acceptedDigests := head.acceptedDigests, frozen := head.frozen }

/-- A log state as the receipt log of a verifier. -/
def WitnessV2Head.ofVerifier (head : WitnessV2Head) (verifierId : String) : ReceiptV2Head :=
  { logId := head.logId, verifierId, sequence := head.sequence, headHash := head.headHash,
    acceptedDigests := head.acceptedDigests, frozen := head.frozen }

/-- Verify a receipt with a caller-supplied verifier key and log head. -/
def verifyVerificationReceiptV2 (r : VerificationReceiptV2) (verifierKey : HybridPublicKey)
    (head : ReceiptV2Head) : V2Result WitnessEntryV2Result := do
  classify .malformed (validateReceipt r true)
  let _ ← classify .malformed (encodeVerificationReceiptV2 r)
  validateReceiptHead head
  if r.logId ≠ head.logId ∨ r.verifierId ≠ head.verifierId then
    err .logStateMismatch
      "receipt log ID or verifier identity does not match caller-authenticated state"
  else do
    let verifierId ← keyIdV2 P verifierKey
    if r.verifierId ≠ verifierId then
      err .logStateMismatch
        "receipt verifier_id does not match caller-authenticated key"
    else do
      let body ← verificationReceiptV2SignableBytes r
      verifyV2Statement P .verificationReceipt body r.signature verifierKey
      let digest ← verificationReceiptV2Digest P r
      logPosition r.sequence r.previousReceiptHash digest head.log

/-! ## Placing an entry -/

/-- An entry at an accepted sequence is a replay or a fork. -/
theorem logPosition_of_le {sequence : Int} {head : WitnessV2Head} (previous digest : Bytes)
    (h : sequence ≤ head.sequence) :
    (head.acceptedDigests.lookup sequence = some digest
      ∧ logPosition sequence previous digest head = .ok .replay)
    ∨ (head.acceptedDigests.lookup sequence ≠ some digest
      ∧ ∃ e, logPosition sequence previous digest head = .error e ∧ e.cls = .logFork) := by
  unfold logPosition
  rw [if_pos h]
  by_cases hd : head.acceptedDigests.lookup sequence = some digest
  · exact .inl ⟨hd, if_pos hd⟩
  · rw [if_neg hd]
    exact .inr ⟨hd, _, rfl, rfl⟩

/-- An entry is appended only to an open log, as its next linked entry. -/
theorem logPosition_eq_appended_iff {sequence : Int} {previous digest : Bytes}
    {head : WitnessV2Head} :
    logPosition sequence previous digest head = .ok .appended ↔
      head.frozen = false ∧ sequence = head.sequence + 1 ∧ previous = head.headHash := by
  unfold logPosition
  split
  · rename_i hle
    split
    · simp
      omega
    · simp
      omega
  · rename_i hle
    cases hfrozen : head.frozen with
    | true => simp
    | false =>
      simp only [Bool.false_eq_true, ↓reduceIte, true_and]
      split
      · simp
        omega
      · rename_i hgap
        split
        · rename_i hprevious
          simp [hprevious]
        · rename_i hprevious
          rw [not_ne_iff] at hprevious
          simp only [hprevious, and_true, true_iff]
          omega

/-- Beyond the head nothing is a replay or a fork. -/
theorem logPosition_of_gt {sequence : Int} {previous digest : Bytes} {head : WitnessV2Head}
    (h : head.sequence < sequence) :
    logPosition sequence previous digest head ≠ .ok .replay
      ∧ Avoids .logFork (logPosition sequence previous digest head) := by
  have hle : ¬ sequence ≤ head.sequence := by omega
  unfold logPosition
  rw [if_neg hle]
  split
  · exact ⟨by simp, avoids_err (by decide) _⟩
  split
  · exact ⟨by simp, avoids_err (by decide) _⟩
  split
  · exact ⟨by simp, avoids_err (by decide) _⟩
  · exact ⟨by simp, avoids_ok _⟩

/-! ## Failures of the checks before placing -/

theorem avoids_logFork_validateHead (logId : String) (sequence : Int) (headHash : Bytes)
    (accepted : List (Int × Bytes)) :
    Avoids .logFork (validateHead logId sequence headHash accepted) := by
  unfold validateHead
  split
  · exact avoids_err (by decide) _
  dsimp only
  split
  · exact avoids_err (by decide) _
  split
  · exact avoids_err (by decide) _
  split
  · exact avoids_err (by decide) _
  split
  · exact avoids_err (by decide) _
  · exact avoids_ok ()

theorem avoids_logFork_keyIdV2 (key : HybridPublicKey) : Avoids .logFork (keyIdV2 P key) := by
  unfold keyIdV2
  split
  · exact avoids_err (by decide) _
  split
  · exact avoids_err (by decide) _
  · exact avoids_ok _

theorem avoids_logFork_verifyV2Statement (objectType : V2ObjectType) (signable : Bytes)
    (signature : HybridSignature) (key : HybridPublicKey) :
    Avoids .logFork (verifyV2Statement P objectType signable signature key) := by
  intro e he
  unfold verifyV2Statement at he
  cases hm : verifyMessageUnclassified P objectType (v2SigningMessage P objectType signable)
      signature key with
  | ok u =>
    rw [hm] at he
    cases he
  | error m =>
    rw [hm] at he
    cases he
    exact nofun

theorem avoids_logFork_validateWitnessEntry (e : WitnessEntryV2) (signature : Bool) :
    Avoids .logFork (validateWitnessEntry e signature) := by
  unfold validateWitnessEntry
  repeat refine avoids_bind (avoids_refuseIf (by decide) _ _) fun _ _ => ?_
  exact avoids_refuseIf (by decide) _ _

theorem avoids_logFork_encodeWitnessEntry (e : WitnessEntryV2) :
    Avoids .logFork (encodeWitnessEntryV2 e) := by
  refine avoids_bind (avoids_logFork_validateWitnessEntry e true) fun _ hvalid => ?_
  have hdoc : WireDocument [] [] (entryMembers e true) :=
    wireDocument_entry (validateWitnessEntry_eq_ok_iff.mp hvalid).1 true (by simp)
  obtain ⟨b, hb⟩ := hdoc.exists_canonical
  rw [show canonical (entryCj e true) = .ok b from hb, ok_bind]
  exact avoids_bind (avoids_refuseIf (by decide) _ _) fun _ _ => avoids_ok _

theorem avoids_logFork_validateDecision (r : VerificationReceiptV2) :
    Avoids .logFork (validateDecision r) := by
  unfold validateDecision
  repeat refine avoids_bind (avoids_refuseIf (by decide) _ _) fun _ _ => ?_
  split
  · exact avoids_refuseIf (by decide) _ _
  split
  · unfold validateDeny
    repeat refine avoids_bind (avoids_refuseIf (by decide) _ _) fun _ _ => ?_
    exact avoids_refuseIf (by decide) _ _
  · unfold validateIndeterminate
    refine avoids_bind (avoids_refuseIf (by decide) _ _) fun _ _ => ?_
    split
    · exact avoids_plain (by decide) _
    · exact avoids_refuseIf (by decide) _ _

theorem avoids_logFork_validateReceipt (r : VerificationReceiptV2) (signature : Bool) :
    Avoids .logFork (validateReceipt r signature) := by
  have hissuers : Avoids .logFork (validateReceiptIssuers r) := by
    unfold validateReceiptIssuers
    repeat refine avoids_bind (avoids_refuseIf (by decide) _ _) fun _ _ => ?_
    refine avoids_withContext ?_ _
    unfold requiredScopeV2
    split
    · exact avoids_ok ()
    split
    · exact avoids_ok ()
    · exact avoids_plain (by decide) _
  have hassessments : Avoids .logFork (validateReceiptAssessments r) := by
    unfold validateReceiptAssessments
    iterate 9 refine avoids_bind (avoids_refuseIf (by decide) _ _) fun _ _ => ?_
    exact avoids_logFork_validateDecision r
  unfold validateReceipt
  repeat refine avoids_bind (avoids_refuseIf (by decide) _ _) fun _ _ => ?_
  refine avoids_bind hissuers fun _ _ => ?_
  refine avoids_bind (avoids_refuseIf (by decide) _ _) fun _ _ => ?_
  refine avoids_bind hassessments fun _ _ => ?_
  exact avoids_refuseIf (by decide) _ _

theorem avoids_logFork_encodeVerificationReceipt (r : VerificationReceiptV2) :
    Avoids .logFork (encodeVerificationReceiptV2 r) := by
  refine avoids_bind (avoids_logFork_validateReceipt r true) fun _ hvalid => ?_
  obtain ⟨hposition, hbody, -⟩ := validateReceipt_eq_ok_iff.mp hvalid
  obtain ⟨b, hb⟩ := (wireDocument_receipt hposition hbody .wire).exists_canonical
  rw [receiptCj_eq, hb, ok_bind]
  exact avoids_bind (avoids_refuseIf (by decide) _ _) fun _ _ => avoids_ok _

theorem avoids_logFork_validateReceiptHead (head : ReceiptV2Head) :
    Avoids .logFork (validateReceiptHead head) := by
  unfold validateReceiptHead
  split
  · exact avoids_err (by decide) _
  · exact avoids_logFork_validateHead _ _ _ _

end RatifyProtocol.V2
