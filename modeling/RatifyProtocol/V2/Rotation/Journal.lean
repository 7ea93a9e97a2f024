import RatifyProtocol.V2.LogVerify
set_option autoImplicit false

/-!
# Key rotation: the acceptance journal

`v2/rotation.rs`: a statement is verified against the caller's state and
accepted by the journal as the next one, as a replay, or as a fork that freezes
it; a recovery starts the next epoch under a key never used before.
-/

namespace RatifyProtocol.V2

open Foundation

/-- Caller-authenticated state immediately before a candidate statement. -/
structure KeyRotationV2State where
  authorityId : String
  recoveryEpoch : Int
  role : String
  sequence : Int
  headHash : Bytes
  currentKey : HybridPublicKey
  /-- Complete retained history for this authority, including the current key. -/
  usedKeyIds : List String
  deriving DecidableEq, Repr

/-- One accepted statement in the current recovery epoch. -/
structure KeyRotationV2AcceptedEntry where
  sequence : Int
  bodyDigest : Bytes
  oldKey : HybridPublicKey
  deriving DecidableEq, Repr

/-- Caller-persisted continuity state for one authority. -/
structure KeyRotationV2Journal where
  state : KeyRotationV2State
  accepted : List KeyRotationV2AcceptedEntry
  frozen : Bool
  deriving DecidableEq, Repr

variable (P : Primitives)

/-- Initial state from a caller-authenticated genesis key. -/
def newKeyRotationV2Journal (authorityId : String) (recoveryEpoch : Int) (role : String)
    (genesisKey : HybridPublicKey) : V2Result KeyRotationV2Journal :=
  match keyIdV2 P genesisKey with
  | .error e => err .configurationInvalid ("rotation genesis key: " ++ e.message)
  | .ok genesisId =>
    if (utf8 authorityId).length ≠ 32 || !lowerHex authorityId || decide (recoveryEpoch ≤ 0)
        || decide (recoveryEpoch > maxSafe) then
      err .configurationInvalid "rotation authority or recovery epoch is invalid"
    else if !validRole role then err .configurationInvalid "rotation role is invalid"
    else .ok {
      state := {
        authorityId, recoveryEpoch, role, sequence := 0, headHash := zeroHash
        currentKey := genesisKey, usedKeyIds := [genesisId] }
      accepted := [], frozen := false }

/-! ## Verification -/

/-- The retained key history, with the IDs before the ones that are left. -/
def validateUsedKeyIds : List String → List String → V2Result Unit
  | _, [] => .ok ()
  | before, id :: rest =>
    if !validV2Id id then
      err .configurationInvalid "caller state contains an invalid used key ID"
    else if before.contains id then
      err .configurationInvalid "caller state contains duplicate used key IDs"
    else validateUsedKeyIds (before ++ [id]) rest

/-- The checks of a caller's state, up to the retained history. -/
def validateRotationState (state : KeyRotationV2State) (currentId : String) : V2Result Unit :=
  if decide (state.sequence < 0) || decide (state.sequence ≥ maxSafe)
      || decide (state.recoveryEpoch ≤ 0) || decide (state.recoveryEpoch > maxSafe)
      || state.headHash.length != 48 then
    err .configurationInvalid "caller rotation state is invalid"
  else if state.sequence == 0 && !state.headHash.all (· == 0) then
    err .configurationInvalid "caller genesis state must have a zero head hash"
  else if decide (state.sequence > 0) && state.headHash.all (· == 0) then
    err .configurationInvalid "caller non-genesis state must have a linked head hash"
  else if state.usedKeyIds.isEmpty then
    err .configurationInvalid "caller state must include retained used key IDs"
  else do
    validateUsedKeyIds [] state.usedKeyIds
    if !state.usedKeyIds.contains currentId then
      err .configurationInvalid "caller used-key history does not contain the current key"
    else .ok ()

/-- `verify_v2_statement` of both signatures over one body. -/
def verifyRotationSignatures (s : KeyRotationStatementV2) (signable : Bytes)
    (oldKey : HybridPublicKey) : V2Result Unit := do
  withContext (verifyV2Statement P .keyRotationAuthorization signable s.oldSignature oldKey)
    "old-key rotation authorization"
  withContext (verifyV2Statement P .keyRotationProofOfPossession signable s.newSignature s.newKey)
    "new-key proof of possession"

/-- Whether the statement is the next one of the caller's authority state. -/
def extendsState (s : KeyRotationStatementV2) (state : KeyRotationV2State) : Bool :=
  equalKeys s.oldKey state.currentKey && s.authorityId == state.authorityId
    && s.recoveryEpoch == state.recoveryEpoch && s.role == state.role
    && s.sequence == state.sequence + 1 && s.previousStatementHash == state.headHash

/-- The checks of a statement against the caller's state before its signatures. -/
def validateExtension (s : KeyRotationStatementV2) (state : KeyRotationV2State)
    (now futureSkew : Int) : V2Result Unit :=
  if state.usedKeyIds.contains s.newKeyId then
    err .rotationKeyReused "rotation replacement key was already used by this authority"
  else if !validV2Timestamp now || !(0 ≤ futureSkew && futureSkew ≤ v2MaxFutureSkewSeconds) then
    err .configurationInvalid
      s!"rotation verification time must be 0..{v2MaxTimestampSeconds} and future skew 0..{v2MaxFutureSkewSeconds} seconds"
  else if !extendsState s state then
    err .rotationStateMismatch
      "rotation statement does not extend the caller-authenticated authority state"
  else if s.issuedAt > now + futureSkew ∨ s.notBefore > now + futureSkew then
    err .rotationFutureDated "rotation statement is future-dated"
  else .ok ()

/-- Check signatures and linkage against caller-authenticated state. -/
def verifyKeyRotationStatementV2 (s : KeyRotationStatementV2) (state : KeyRotationV2State)
    (now futureSkew : Int) : V2Result Unit := do
  classify .malformed (validateStatement P s true)
  let currentId ← (keyIdV2 P state.currentKey).mapError fun e =>
    V2Error.new .configurationInvalid ("caller state current key: " ++ e.message)
  validateRotationState state currentId
  validateExtension s state now futureSkew
  let signable ← keyRotationStatementV2SignableBytes P s
  verifyRotationSignatures P s signable state.currentKey

/-! ## Acceptance -/

/-- The body digest of a statement at an accepted sequence, once both of its
signatures verify under the key accepted there. -/
def knownDigest (s : KeyRotationStatementV2) (accepted : KeyRotationV2AcceptedEntry) :
    V2Result Bytes :=
  if accepted.sequence ≠ s.sequence ∨ equalKeys s.oldKey accepted.oldKey = false then
    err .rotationStateMismatch
      s!"rotation statement old key does not match the key accepted at sequence {s.sequence}"
  else do
    let signable ← classify .malformed (keyRotationStatementV2SignableBytes P s)
    verifyRotationSignatures P s signable accepted.oldKey
    classify .malformed (statementBodyDigestV2 P 4 signable)

/-- The body digest of a statement that extends the state. -/
def nextDigest (s : KeyRotationStatementV2) (state : KeyRotationV2State) (now futureSkew : Int) :
    V2Result Bytes := do
  verifyKeyRotationStatementV2 P s state now futureSkew
  classify .malformed (keyRotationStatementV2Digest P s)

/-- The journal with one more accepted statement. -/
def KeyRotationV2Journal.advance (journal : KeyRotationV2Journal) (s : KeyRotationStatementV2)
    (digest : Bytes) : KeyRotationV2Journal :=
  { journal with
    state := { journal.state with
      sequence := s.sequence, headHash := digest, currentKey := s.newKey
      usedKeyIds := journal.state.usedKeyIds ++ [s.newKeyId] }
    accepted := journal.accepted ++ [{ sequence := s.sequence, bodyDigest := digest, oldKey := s.oldKey }] }

/-- A statement at an accepted sequence replays or forks. -/
def acceptKnownStatement (s : KeyRotationStatementV2) (journal : KeyRotationV2Journal)
    (accepted : KeyRotationV2AcceptedEntry) :
    KeyRotationV2Journal × V2Result WitnessEntryV2Result :=
  match knownDigest P s accepted with
  | .error e => (journal, .error e)
  | .ok digest =>
    if digest = accepted.bodyDigest then (journal, .ok .replay)
    else ({ journal with frozen := true },
      err .rotationFork
        s!"key rotation fork at sequence {s.sequence} for authority {journal.state.authorityId}")

/-- A statement beyond the accepted ones is verified as the next one. -/
def acceptNextStatement (s : KeyRotationStatementV2) (journal : KeyRotationV2Journal)
    (now futureSkew : Int) : KeyRotationV2Journal × V2Result WitnessEntryV2Result :=
  match nextDigest P s journal.state now futureSkew with
  | .error e => (journal, .error e)
  | .ok digest => (journal.advance s digest, .ok .appended)

/-- AcceptRotation.  Returns the journal, advanced or frozen or as it was, and
the result. -/
def acceptKeyRotationStatementV2 (s : KeyRotationStatementV2) (journal : KeyRotationV2Journal)
    (now futureSkew : Int) : KeyRotationV2Journal × V2Result WitnessEntryV2Result :=
  match validateStatement P s true with
  | .error e => (journal, .error (e.classify .malformed))
  | .ok () =>
    if (journal.accepted.length : Int) ≠ journal.state.sequence then
      (journal, err .configurationInvalid
        "rotation journal accepted history does not match its sequence")
    else if journal.frozen then
      (journal, err .rotationFrozen
        "key rotation authority is frozen: authority requires recovery")
    else if s.authorityId ≠ journal.state.authorityId
        ∨ s.recoveryEpoch ≠ journal.state.recoveryEpoch ∨ s.role ≠ journal.state.role then
      (journal, err .rotationStateMismatch
        "rotation statement authority, recovery epoch, or role does not match caller state")
    else if s.sequence ≤ journal.state.sequence then
      match journal.accepted[(s.sequence - 1).toNat]? with
      | some accepted => acceptKnownStatement P s journal accepted
      -- Not reached: the sequence is positive and at most the history's length.
      | none => (journal, err .configurationInvalid "")
    else acceptNextStatement P s journal now futureSkew

/-- Root-authorized recovery: increase the epoch, anchor a never-used key, keep
the complete used-key history. -/
def recoverKeyRotationV2 (journal : KeyRotationV2Journal) (newRecoveryEpoch : Int)
    (newGenesisKey : HybridPublicKey) : V2Result KeyRotationV2Journal :=
  match keyIdV2 P newGenesisKey with
  | .error e => err .rotationRecoveryInvalid e.message
  | .ok newId =>
    if newRecoveryEpoch ≤ journal.state.recoveryEpoch ∨ newRecoveryEpoch > maxSafe then
      err .rotationRecoveryInvalid "rotation recovery must increase the recovery epoch"
    else if journal.state.usedKeyIds.contains newId then
      err .rotationRecoveryInvalid "rotation recovery cannot anchor a previously used key"
    else .ok {
      state := { journal.state with
        recoveryEpoch := newRecoveryEpoch, sequence := 0, headHash := zeroHash
        currentKey := newGenesisKey, usedKeyIds := journal.state.usedKeyIds ++ [newId] }
      accepted := [], frozen := false }

/-! ## Signed statements -/

/-- A statement both of whose signatures verify over its body. -/
structure SignedStatement (s : KeyRotationStatementV2) : Prop where
  valid : validateStatement P s true = .ok ()
  signatures : ∃ b, keyRotationStatementV2SignableBytes P s = .ok b
    ∧ verifyRotationSignatures P s b s.oldKey = .ok ()

variable {P}

/-- A signed statement has a digest, that of its body. -/
theorem SignedStatement.digest {s : KeyRotationStatementV2} (h : SignedStatement P s) :
    ∃ b, keyRotationStatementV2SignableBytes P s = .ok b
      ∧ verifyRotationSignatures P s b s.oldKey = .ok ()
      ∧ keyRotationStatementV2Digest P s = .ok (P.sha384 (statementBodyText 4 b))
      ∧ statementBodyDigestV2 P 4 b = .ok (P.sha384 (statementBodyText 4 b)) := by
  obtain ⟨b, hb, hverify⟩ := h.signatures
  exact ⟨b, hb, hverify, keyRotationStatementV2Digest_of_signable hb,
    statementBodyDigestV2_of_rotation hb⟩

/-- A signed statement under the key accepted at its sequence has its digest compared. -/
theorem knownDigest_ok {s : KeyRotationStatementV2} (h : SignedStatement P s)
    {accepted : KeyRotationV2AcceptedEntry} (hsequence : accepted.sequence = s.sequence)
    (hkey : accepted.oldKey = s.oldKey) {d : Bytes} (hd : keyRotationStatementV2Digest P s = .ok d) :
    knownDigest P s accepted = .ok d := by
  obtain ⟨b, hb, hverify, hdigest, hbody⟩ := h.digest
  obtain rfl := Except.ok.inj (hdigest.symm.trans hd)
  have hsame : ¬ (accepted.sequence ≠ s.sequence ∨ equalKeys s.oldKey accepted.oldKey = false) := by
    rw [hkey, equalKeys_iff.mpr rfl]
    simp [hsequence]
  rw [knownDigest, if_neg hsame, classify_eq_ok_iff.mpr hb, ok_bind, hkey, hverify, ok_bind,
    classify_eq_ok_iff.mpr hbody]

/-- What a statement that passes the checks against the state extends. -/
theorem validateExtension_eq_ok {s : KeyRotationStatementV2} {state : KeyRotationV2State}
    {now futureSkew : Int} (h : validateExtension s state now futureSkew = .ok ()) :
    s.newKeyId ∉ state.usedKeyIds ∧ s.oldKey = state.currentKey
      ∧ s.authorityId = state.authorityId ∧ s.recoveryEpoch = state.recoveryEpoch
      ∧ s.role = state.role ∧ s.sequence = state.sequence + 1
      ∧ s.previousStatementHash = state.headHash := by
  unfold validateExtension at h
  split at h
  · cases h
  rename_i hunused
  split at h
  · cases h
  split at h
  · cases h
  rename_i hstate
  simp only [extendsState, Bool.not_eq_true', Bool.not_eq_false, Bool.and_eq_true, beq_iff_eq,
    equalKeys_iff] at hstate
  obtain ⟨⟨⟨⟨⟨hkey, hauthority⟩, hepoch⟩, hrole⟩, hsequence⟩, hprevious⟩ := hstate
  exact ⟨by simpa using hunused, hkey, hauthority, hepoch, hrole, hsequence, hprevious⟩

/-- What the digest of a next statement says of it. -/
theorem nextDigest_eq_ok {s : KeyRotationStatementV2} {state : KeyRotationV2State}
    {now futureSkew : Int} {d : Bytes} (h : nextDigest P s state now futureSkew = .ok d) :
    SignedStatement P s ∧ keyRotationStatementV2Digest P s = .ok d
      ∧ s.newKeyId ∉ state.usedKeyIds ∧ s.oldKey = state.currentKey
      ∧ s.authorityId = state.authorityId ∧ s.recoveryEpoch = state.recoveryEpoch
      ∧ s.role = state.role ∧ s.sequence = state.sequence + 1
      ∧ s.previousStatementHash = state.headHash := by
  obtain ⟨⟨⟩, hverify, hdigest⟩ := bind_eq_ok_iff.mp h
  obtain ⟨⟨⟩, hvalid, hverify⟩ := bind_eq_ok_iff.mp hverify
  obtain ⟨currentId, -, hverify⟩ := bind_eq_ok_iff.mp hverify
  obtain ⟨⟨⟩, -, hverify⟩ := bind_eq_ok_iff.mp hverify
  obtain ⟨⟨⟩, hextends, hverify⟩ := bind_eq_ok_iff.mp hverify
  obtain ⟨b, hb, hsignatures⟩ := bind_eq_ok_iff.mp hverify
  have hplace := validateExtension_eq_ok hextends
  exact ⟨⟨classify_eq_ok_iff.mp hvalid, b, hb, hplace.2.1 ▸ hsignatures⟩,
    classify_eq_ok_iff.mp hdigest, hplace⟩

/-! ## What a call can do -/

/-- The outcomes of an accept call: refused, replayed, forked or appended. -/
theorem accept_cases (s : KeyRotationStatementV2) (journal : KeyRotationV2Journal)
    (now futureSkew : Int) :
    (∃ e, acceptKeyRotationStatementV2 P s journal now futureSkew = (journal, .error e))
    ∨ acceptKeyRotationStatementV2 P s journal now futureSkew = (journal, .ok .replay)
    ∨ (∃ e, acceptKeyRotationStatementV2 P s journal now futureSkew
        = ({ journal with frozen := true }, .error e) ∧ e.cls = .rotationFork)
    ∨ (∃ d, acceptKeyRotationStatementV2 P s journal now futureSkew
        = (journal.advance s d, .ok .appended)
      ∧ journal.frozen = false ∧ nextDigest P s journal.state now futureSkew = .ok d) := by
  unfold acceptKeyRotationStatementV2
  split
  · exact .inl ⟨_, rfl⟩
  split
  · exact .inl ⟨_, rfl⟩
  split
  · exact .inl ⟨_, rfl⟩
  rename_i hopen
  split
  · exact .inl ⟨_, rfl⟩
  split
  · split
    · unfold acceptKnownStatement
      split
      · exact .inl ⟨_, rfl⟩
      split
      · exact .inr (.inl rfl)
      · exact .inr (.inr (.inl ⟨_, rfl, rfl⟩))
    · exact .inl ⟨_, rfl⟩
  · unfold acceptNextStatement
    split
    · exact .inl ⟨_, rfl⟩
    · rename_i d hd
      exact .inr (.inr (.inr ⟨d, rfl, by simpa using hopen, hd⟩))

/-- A frozen journal refuses every statement. -/
theorem accept_frozen (s : KeyRotationStatementV2) {journal : KeyRotationV2Journal}
    (hfrozen : journal.frozen = true) (now futureSkew : Int) :
    ∃ e, acceptKeyRotationStatementV2 P s journal now futureSkew = (journal, .error e) := by
  unfold acceptKeyRotationStatementV2
  split
  · exact ⟨_, rfl⟩
  split
  · exact ⟨_, rfl⟩
  · exact ⟨_, rfl⟩

/-- A well-formed statement at an accepted sequence is compared with the one there. -/
theorem accept_known {s : KeyRotationStatementV2} {journal : KeyRotationV2Journal}
    {accepted : KeyRotationV2AcceptedEntry} (hvalid : validateStatement P s true = .ok ())
    (hlength : (journal.accepted.length : Int) = journal.state.sequence)
    (hopen : journal.frozen = false) (hauthority : s.authorityId = journal.state.authorityId)
    (hepoch : s.recoveryEpoch = journal.state.recoveryEpoch) (hrole : s.role = journal.state.role)
    (hle : s.sequence ≤ journal.state.sequence)
    (hentry : journal.accepted[(s.sequence - 1).toNat]? = some accepted) (now futureSkew : Int) :
    acceptKeyRotationStatementV2 P s journal now futureSkew
      = acceptKnownStatement P s journal accepted := by
  have hstate : ¬ (s.authorityId ≠ journal.state.authorityId
      ∨ s.recoveryEpoch ≠ journal.state.recoveryEpoch ∨ s.role ≠ journal.state.role) := by
    simp [hauthority, hepoch, hrole]
  have hfrozen : ¬ journal.frozen = true := by simp [hopen]
  have hhistory : ¬ (journal.accepted.length : Int) ≠ journal.state.sequence := not_not.mpr hlength
  simp only [acceptKeyRotationStatementV2, hvalid]
  rw [if_neg hhistory, if_neg hfrozen, if_neg hstate, if_pos hle, hentry]

/-- A signed statement that extends a valid open journal is appended. -/
theorem accept_appended {s : KeyRotationStatementV2} {journal : KeyRotationV2Journal} {id : String}
    {now futureSkew : Int} (hsigned : SignedStatement P s)
    (hlength : (journal.accepted.length : Int) = journal.state.sequence)
    (hopen : journal.frozen = false) (hkey : keyIdV2 P journal.state.currentKey = .ok id)
    (hstate : validateRotationState journal.state id = .ok ())
    (hextends : validateExtension s journal.state now futureSkew = .ok ()) :
    ∃ d, keyRotationStatementV2Digest P s = .ok d
      ∧ acceptKeyRotationStatementV2 P s journal now futureSkew
        = (journal.advance s d, .ok .appended) := by
  obtain ⟨b, hb, hverify, hdigest, -⟩ := hsigned.digest
  obtain ⟨-, hold, hauthority, hepoch, hrole, hsequence, -⟩ := validateExtension_eq_ok hextends
  have hnext : nextDigest P s journal.state now futureSkew
      = .ok (P.sha384 (statementBodyText 4 b)) := by
    rw [hold] at hverify
    simp only [nextDigest, verifyKeyRotationStatementV2, classify_eq_ok_iff.mpr hsigned.valid, hkey,
      hstate, hextends, hb, hverify, classify_eq_ok_iff.mpr hdigest,
      Except.mapError, ok_bind]
  have hforeign : ¬ (s.authorityId ≠ journal.state.authorityId
      ∨ s.recoveryEpoch ≠ journal.state.recoveryEpoch ∨ s.role ≠ journal.state.role) := by
    simp [hauthority, hepoch, hrole]
  have hfrozen : ¬ journal.frozen = true := by simp [hopen]
  have hhistory : ¬ (journal.accepted.length : Int) ≠ journal.state.sequence := not_not.mpr hlength
  have hgt : ¬ s.sequence ≤ journal.state.sequence := by omega
  refine ⟨_, hdigest, ?_⟩
  simp only [acceptKeyRotationStatementV2, hsigned.valid]
  rw [if_neg hhistory, if_neg hfrozen, if_neg hforeign, if_neg hgt, acceptNextStatement, hnext]

/-- What a successful recovery does. -/
theorem recover_eq_ok {journal next : KeyRotationV2Journal} {epoch : Int} {key : HybridPublicKey}
    (h : recoverKeyRotationV2 P journal epoch key = .ok next) :
    ∃ id, keyIdV2 P key = .ok id ∧ journal.state.recoveryEpoch < epoch
      ∧ id ∉ journal.state.usedKeyIds
      ∧ next = {
          state := { journal.state with
            recoveryEpoch := epoch, sequence := 0, headHash := zeroHash, currentKey := key
            usedKeyIds := journal.state.usedKeyIds ++ [id] }
          accepted := [], frozen := false } := by
  unfold recoverKeyRotationV2 at h
  split at h
  · cases h
  rename_i id hid
  split at h
  · cases h
  rename_i hepoch
  split at h
  · cases h
  rename_i hunused
  rw [not_or, not_le] at hepoch
  exact ⟨id, hid, hepoch.1, by simpa using hunused, (Except.ok.inj h).symm⟩

end RatifyProtocol.V2
