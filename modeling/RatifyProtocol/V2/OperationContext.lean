import RatifyProtocol.Foundation.Machine
import RatifyProtocol.Foundation.PrefixCode
import RatifyProtocol.V2.Claim
set_option autoImplicit false

/-!
# V2: operation and session contexts

The preimages of `v2/operation_context.rs`: the operation context, the session
context and the claim ID.  Each is a tag followed by fields; the length of a
field stands before it, so no field can imitate another, and no tag is a prefix
of another tag, so no kind of context can imitate another kind.
-/

namespace RatifyProtocol.V2

open Foundation

def operationContextV2Tag : Bytes := utf8 "ratify/operation-context/v2"
def sessionContextV2Tag : Bytes := utf8 "ratify/session-context/v2"
def claimDigestTag : Bytes := utf8 "ratify-protocol-challenge-claim-v2\x00"
def claimIdTag : Bytes := utf8 "ratify-protocol-claim-id-v2\x00"

/-- Action inputs bound to a presentation.  `payloadDigest` is empty or 32 raw
bytes. -/
structure OperationContextV2 where
  requiredScope : Text
  operation : Text
  resourceId : Text
  requestedPath : Text
  payloadDigest : Buffer
  deriving DecidableEq

/-- Verifier session and invocation inputs bound to a presentation. -/
structure SessionContextV2Inputs where
  verifierId : Text
  workspaceId : Text
  agentId : Text
  sessionId : Text
  invocationId : Text
  requestHash : Buffer
  deriving DecidableEq

/-- What a claim ID is derived from. -/
structure ClaimIdInputs where
  ns : Text
  replayEpoch : Int
  claimDigest : Bytes
  deriving DecidableEq

/-! ## Constructors -/

/-- `append_field`: the length of a field, then the field. -/
def appendField (preimage : Bytes) (field : Buffer) : Bytes :=
  preimage ++ u64BeBytes field.1.length ++ field.1

def appendFields (preimage : Bytes) (fields : List Buffer) : Bytes :=
  fields.foldl appendField preimage

/-- Decode `sha256:<64 lowercase hex>`; `none` means that no digest was supplied. -/
def decodePayloadDigestV2 (encoded : Option String) : V2Result (Option Bytes) :=
  match encoded with
  | none => .ok none
  | some encoded =>
    let h := String.ofList (encoded.toList.drop "sha256:".toList.length)
    if startsWith encoded "sha256:" && (utf8 h).length == 64 && lowerHex h then
      match hexDecodeChars h.toList with
      | some digest => .ok (some digest)
      | none => err .malformed "payload digest is not hexadecimal"
    else
      err .malformed
        "payload digest must be sha256: followed by 64 lowercase hexadecimal characters"

/-- `validate_required_scope_v2`. -/
def validateRequiredScopeV2 (scope : String) : V2Result Unit :=
  classify .invalidRequiredScope (requiredScopeV2 scope)

/-- The operation-context preimage in canonical field order. -/
def operationContextV2Bytes (ctx : OperationContextV2) : V2Result Bytes := do
  validateRequiredScopeV2 ctx.requiredScope.1
  if ctx.payloadDigest.1 ≠ [] ∧ ctx.payloadDigest.1.length ≠ 32 then
    err .configurationInvalid
      s!"payload digest must be empty or 32 bytes, got {ctx.payloadDigest.1.length}"
  else
    .ok (appendFields operationContextV2Tag
      [ctx.requiredScope.asBytes, ctx.operation.asBytes, ctx.resourceId.asBytes,
        ctx.requestedPath.asBytes, ctx.payloadDigest])

def isKeyId (value : String) : Bool := (utf8 value).length == 64 && lowerHex value

def isCanonicalWorkspaceId (value : String) : Bool :=
  (utf8 value).length == 36
    && (utf8 value).zipIdx.all fun (b, index) =>
      if [8, 13, 18, 23].contains index then b == 45
      else (48 ≤ b && b ≤ 57) || (97 ≤ b && b ≤ 102)

/-- The session-context preimage in canonical field order. -/
def sessionContextV2Bytes (inputs : SessionContextV2Inputs) : V2Result Bytes :=
  if !isKeyId inputs.verifierId.1 then
    err .configurationInvalid "verifier ID must be 64 lowercase hexadecimal characters"
  else if !isCanonicalWorkspaceId inputs.workspaceId.1 then
    err .configurationInvalid "workspace ID must be a canonical lowercase UUID"
  else if !isKeyId inputs.agentId.1 then
    err .configurationInvalid "agent ID must be 64 lowercase hexadecimal characters"
  else if inputs.requestHash.1.length ≠ 32 then
    err .configurationInvalid "request hash must be 32 bytes"
  else
    .ok (appendFields sessionContextV2Tag
      [inputs.verifierId.asBytes, inputs.workspaceId.asBytes, inputs.agentId.asBytes,
        inputs.sessionId.asBytes, inputs.invocationId.asBytes, inputs.requestHash])

/-- The bytes that `protocol_claim_id_from_digest_v2` hashes. -/
def claimIdV2Preimage (inputs : ClaimIdInputs) : V2Result Bytes := do
  validateNamespaceEpoch inputs.ns.1 inputs.replayEpoch
  if inputs.claimDigest.length ≠ 48 then
    err .malformed "v2 challenge claim digest must be exactly 48 bytes"
  else
    .ok (claimIdTag ++ u64BeBytes (utf8 inputs.ns.1).length ++ utf8 inputs.ns.1
      ++ u64BeBytes inputs.replayEpoch.toNat ++ inputs.claimDigest)

section Hashes

variable (P : Primitives)

/-- `request_hash = SHA-256(operation_context_bytes)`. -/
def operationContextV2Hash (ctx : OperationContextV2) : V2Result Bytes := do
  let b ← operationContextV2Bytes ctx
  .ok (P.sha256 b)

/-- `session_context = SHA-256(session_context_bytes)`. -/
def buildSessionContextV2 (inputs : SessionContextV2Inputs) : V2Result Bytes := do
  let b ← sessionContextV2Bytes inputs
  .ok (P.sha256 b)

/-- `SHA-384("ratify-protocol-challenge-claim-v2\0" || c)` for 32 challenge bytes. -/
def challengeClaimDigestV2 (challenge : Bytes) : V2Result Bytes :=
  if challenge.length ≠ 32 then
    err .malformed "v2 challenge claim requires exactly 32 challenge bytes"
  else .ok (sha384 P [claimDigestTag, challenge])

/-- The stable claim ID bound to the namespace and replay epoch. -/
def protocolClaimIdV2 (ns : String) (replayEpoch : Int) (challenge : Bytes) :
    V2Result String := do
  validateNamespaceEpoch ns replayEpoch
  let digest ← challengeClaimDigestV2 P challenge
  protocolClaimIdFromDigestV2 P ns replayEpoch digest

/-- A claim ID is the hash of its preimage. -/
theorem protocolClaimIdFromDigestV2_eq (inputs : ClaimIdInputs) :
    protocolClaimIdFromDigestV2 P inputs.ns.1 inputs.replayEpoch inputs.claimDigest
      = (claimIdV2Preimage inputs >>= fun b => .ok (hexEncode (P.sha256 b))) := by
  unfold protocolClaimIdFromDigestV2 claimIdV2Preimage
  cases validateNamespaceEpoch inputs.ns.1 inputs.replayEpoch with
  | error e => rfl
  | ok u =>
    simp only [ok_bind]
    split
    · rfl
    · rfl

end Hashes

/-! ## Fields -/

@[simp] theorem length_u64BeBytes (n : Nat) : (u64BeBytes n).length = 8 := by
  simp [u64BeBytes]

theorem u64BeBytes_injOn {m n : Nat} (hm : m < 2 ^ 64) (hn : n < 2 ^ 64)
    (h : u64BeBytes m = u64BeBytes n) : m = n := by
  have hdigit : ∀ i < 8, m / 256 ^ i % 256 = n / 256 ^ i % 256 := by
    intro i hi
    have hbyte : UInt8.ofNat (m / 256 ^ i) = UInt8.ofNat (n / 256 ^ i) := by
      unfold u64BeBytes at h
      exact List.map_inj_left.mp h i (by simpa using hi)
    simpa using congrArg UInt8.toNat hbyte
  -- From the highest digit down: the quotients by a power of 256 agree.
  have hquotient : ∀ k ≤ 8, m / 256 ^ (8 - k) = n / 256 ^ (8 - k) := by
    intro k
    induction k with
    | zero =>
      intro _
      have htop : 256 ^ (8 - 0) = 2 ^ 64 := by decide
      rw [htop, Nat.div_eq_of_lt hm, Nat.div_eq_of_lt hn]
    | succ k ih =>
      intro hk
      have hup := ih (by omega)
      have hexp : 8 - k = 8 - (k + 1) + 1 := by omega
      rw [hexp, pow_succ, ← Nat.div_div_eq_div_mul, ← Nat.div_div_eq_div_mul] at hup
      have hlow := hdigit (8 - (k + 1)) (by omega)
      omega
  simpa using hquotient 8 (le_refl 8)

/-- One field: its length, then its bytes. -/
def fieldBytes (field : Buffer) : Bytes := u64BeBytes field.1.length ++ field.1

theorem appendFields_eq (preimage : Bytes) (fields : List Buffer) :
    appendFields preimage fields = preimage ++ fields.flatMap fieldBytes := by
  induction fields generalizing preimage with
  | nil => simp [appendFields]
  | cons field fields ih =>
    have hstep : appendFields preimage (field :: fields)
        = appendFields (appendField preimage field) fields := rfl
    rw [hstep, ih, appendField, List.flatMap_cons, fieldBytes]
    simp only [List.append_assoc]

theorem prefixCode_field : PrefixCode (fun _ => True) (· = ·) fieldBytes := by
  intro a b _ _ r s heq
  simp only [fieldBytes, List.append_assoc] at heq
  obtain ⟨hlen, hrest⟩ := List.append_inj heq (by simp)
  have ha : a.1.length < 2 ^ 64 := lt_of_le_of_lt a.2 (by decide)
  have hb : b.1.length < 2 ^ 64 := lt_of_le_of_lt b.2 (by decide)
  obtain ⟨hbytes, htails⟩ := List.append_inj hrest (u64BeBytes_injOn ha hb hlen)
  exact ⟨Subtype.ext hbytes, htails⟩

/-- The same number of fields with the same bytes are the same fields. -/
theorem fields_inj {as bs : List Buffer} (hlen : as.length = bs.length)
    (h : as.flatMap fieldBytes = bs.flatMap fieldBytes) : as = bs := by
  induction as generalizing bs with
  | nil => exact (List.length_eq_zero_iff.mp hlen.symm).symm
  | cons a as ih =>
    cases bs with
    | nil => simp at hlen
    | cons b bs =>
      rw [List.flatMap_cons, List.flatMap_cons] at h
      obtain ⟨rfl, hrest⟩ := prefixCode_field trivial trivial h
      rw [ih (Nat.succ.inj hlen) hrest]

/-! ## The three kinds of context -/

def OperationContextV2.fields (ctx : OperationContextV2) : List Buffer :=
  [ctx.requiredScope.asBytes, ctx.operation.asBytes, ctx.resourceId.asBytes,
    ctx.requestedPath.asBytes, ctx.payloadDigest]

def SessionContextV2Inputs.fields (inputs : SessionContextV2Inputs) : List Buffer :=
  [inputs.verifierId.asBytes, inputs.workspaceId.asBytes, inputs.agentId.asBytes,
    inputs.sessionId.asBytes, inputs.invocationId.asBytes, inputs.requestHash]

theorem OperationContextV2.fields_injective : Function.Injective OperationContextV2.fields := by
  rintro ⟨⟩ ⟨⟩ h
  simp only [fields, List.cons.injEq, and_true, Text.asBytes_injective.eq_iff] at h
  simpa only [mk.injEq] using h

theorem SessionContextV2Inputs.fields_injective :
    Function.Injective SessionContextV2Inputs.fields := by
  rintro ⟨⟩ ⟨⟩ h
  simp only [fields, List.cons.injEq, and_true, Text.asBytes_injective.eq_iff] at h
  simpa only [mk.injEq] using h

/-- An input of one of the three constructors. -/
inductive ContextInput where
  | operation (ctx : OperationContextV2)
  | session (inputs : SessionContextV2Inputs)
  | claimId (inputs : ClaimIdInputs)

namespace ContextInput

def preimage : ContextInput → V2Result Bytes
  | operation ctx => operationContextV2Bytes ctx
  | session inputs => sessionContextV2Bytes inputs
  | claimId inputs => claimIdV2Preimage inputs

def tag : ContextInput → Bytes
  | operation _ => operationContextV2Tag
  | session _ => sessionContextV2Tag
  | claimId _ => claimIdTag

/-- What follows the tag. -/
def body : ContextInput → Bytes
  | operation ctx => ctx.fields.flatMap fieldBytes
  | session inputs => inputs.fields.flatMap fieldBytes
  | claimId inputs => fieldBytes inputs.ns.asBytes ++ u64BeBytes inputs.replayEpoch.toNat
      ++ inputs.claimDigest

end ContextInput

/-! ## What each constructor returns -/

theorem length_utf8EncodeChar_hexValue {c : Char} {v : Nat} (h : hexValue? c = some v) :
    (String.utf8EncodeChar c).length = 1 := by
  have hascii : c.toNat ≤ 127 := by
    unfold hexValue? at h
    split at h
    · rename_i hc
      exact (UInt32.le_iff_toNat_le.mp hc.2).trans (by decide)
    split at h
    · rename_i hc
      exact (UInt32.le_iff_toNat_le.mp hc.2).trans (by decide)
    split at h
    · rename_i hc
      exact (UInt32.le_iff_toNat_le.mp hc.2).trans (by decide)
    · cases h
  rw [String.length_utf8EncodeChar, Char.utf8Size_eq_one_iff]
  exact UInt32.le_iff_toNat_le.mpr hascii

/-- Two digits a byte, and every digit is one byte. -/
theorem length_hexDecodeChars {cs : List Char} {b : Bytes} (h : hexDecodeChars cs = some b) :
    (utf8Chars cs).length = 2 * b.length := by
  induction cs using hexDecodeChars.induct generalizing b with
  | case1 =>
    obtain rfl := Option.some.inj h
    rfl
  | case2 x y rest ih =>
    simp only [hexDecodeChars, Option.bind_eq_bind, Option.bind_eq_some_iff,
      Option.some.injEq] at h
    obtain ⟨_, hx, _, hy, tail, htail, rfl⟩ := h
    simp only [utf8Chars_cons, List.length_append, length_utf8EncodeChar_hexValue hx,
      length_utf8EncodeChar_hexValue hy, List.length_cons, ih htail]
    omega
  | case3 cs hnil hcons =>
    rw [hexDecodeChars] at h
    · cases h
    · exact hnil
    · exact hcons

/-- A decoded payload digest is one that the operation context takes. -/
theorem length_decodePayloadDigestV2 {encoded : Option String} {digest : Bytes}
    (h : decodePayloadDigestV2 encoded = .ok (some digest)) : digest.length = 32 := by
  unfold decodePayloadDigestV2 at h
  split at h
  · cases h
  · rename_i text
    simp only at h
    split at h
    · rename_i hform
      split at h
      · rename_i decoded hdecoded
        obtain rfl := Option.some.inj (Except.ok.inj h)
        have hchars := length_hexDecodeChars hdecoded
        simp only [Bool.and_eq_true, beq_iff_eq] at hform
        obtain ⟨⟨-, hbytes⟩, -⟩ := hform
        rw [utf8] at hbytes
        omega
      · simp at h
    · simp at h

theorem operationContextV2Bytes_ok {ctx : OperationContextV2} {b : Bytes}
    (h : operationContextV2Bytes ctx = .ok b) :
    b = (ContextInput.operation ctx).tag ++ (ContextInput.operation ctx).body := by
  simp only [operationContextV2Bytes, bind_eq_ok_iff] at h
  obtain ⟨_, -, h⟩ := h
  split at h
  · simp at h
  · rw [← Except.ok.inj h, appendFields_eq]
    rfl

theorem sessionContextV2Bytes_ok {inputs : SessionContextV2Inputs} {b : Bytes}
    (h : sessionContextV2Bytes inputs = .ok b) :
    b = (ContextInput.session inputs).tag ++ (ContextInput.session inputs).body := by
  unfold sessionContextV2Bytes at h
  split at h
  · simp at h
  split at h
  · simp at h
  split at h
  · simp at h
  split at h
  · simp at h
  · rw [← Except.ok.inj h, appendFields_eq]
    rfl

/-- An accepted claim key has an epoch of the safe range and a 48-byte digest. -/
theorem claimIdV2Preimage_ok {inputs : ClaimIdInputs} {b : Bytes}
    (h : claimIdV2Preimage inputs = .ok b) :
    b = (ContextInput.claimId inputs).tag ++ (ContextInput.claimId inputs).body
      ∧ (0 ≤ inputs.replayEpoch ∧ inputs.replayEpoch ≤ maxSafe)
      ∧ inputs.claimDigest.length = 48 := by
  simp only [claimIdV2Preimage, bind_eq_ok_iff] at h
  obtain ⟨_, hepoch, h⟩ := h
  split at h
  · simp at h
  · rename_i hlen
    refine ⟨?_, ?_, not_not.mp hlen⟩
    · rw [← Except.ok.inj h]
      simp only [ContextInput.tag, ContextInput.body, fieldBytes, Text.asBytes, List.append_assoc]
    · unfold validateNamespaceEpoch at hepoch
      split at hepoch
      · simp at hepoch
      split at hepoch
      · simp at hepoch
      · rename_i hrange
        simpa using hrange

theorem ContextInput.preimage_ok {input : ContextInput} {b : Bytes}
    (h : input.preimage = .ok b) : b = input.tag ++ input.body := by
  cases input with
  | operation ctx => exact operationContextV2Bytes_ok h
  | session inputs => exact sessionContextV2Bytes_ok h
  | claimId inputs => exact (claimIdV2Preimage_ok h).1

/-! ## Injectivity -/

theorem claimIdInputs_inj {a b : ClaimIdInputs}
    (ha : 0 ≤ a.replayEpoch ∧ a.replayEpoch ≤ maxSafe)
    (hb : 0 ≤ b.replayEpoch ∧ b.replayEpoch ≤ maxSafe)
    (h : (ContextInput.claimId a).body = (ContextInput.claimId b).body) : a = b := by
  simp only [ContextInput.body, List.append_assoc] at h
  obtain ⟨hns, hrest⟩ := prefixCode_field trivial trivial h
  obtain ⟨hepoch, hdigest⟩ := List.append_inj hrest (by simp)
  simp only [maxSafe] at ha hb
  have hnat : a.replayEpoch.toNat = b.replayEpoch.toNat :=
    u64BeBytes_injOn (by omega) (by omega) hepoch
  have hint : a.replayEpoch = b.replayEpoch := by omega
  cases a
  cases b
  simp only [ClaimIdInputs.mk.injEq]
  exact ⟨Text.asBytes_injective hns, hint, hdigest⟩

/-- The tags part the kinds: whatever follows them, two of them never agree. -/
theorem tags_separate {s t : Bytes} :
    operationContextV2Tag ++ s ≠ sessionContextV2Tag ++ t
      ∧ operationContextV2Tag ++ s ≠ claimIdTag ++ t
      ∧ sessionContextV2Tag ++ s ≠ claimIdTag ++ t := by
  have part : ∀ (u v : Bytes) (i : Nat), i < u.length → i < v.length → u[i]? ≠ v[i]? →
      u ++ s ≠ v ++ t := by
    intro u v i hu hv hne heq
    refine hne ?_
    have hget := congrArg (·[i]?) heq
    simpa only [List.getElem?_append_left hu, List.getElem?_append_left hv] using hget
  exact ⟨part _ _ 7 (by decide) (by decide) (by decide),
    part _ _ 6 (by decide) (by decide) (by decide),
    part _ _ 6 (by decide) (by decide) (by decide)⟩

/-- Two contexts of any kind that the constructors admit have the same preimage
only if they are the same context of the same kind. -/
theorem contextPreimage_injective {a b : ContextInput} {p : Bytes}
    (ha : a.preimage = .ok p) (hb : b.preimage = .ok p) : a = b := by
  have heq : a.tag ++ a.body = b.tag ++ b.body :=
    (ContextInput.preimage_ok ha).symm.trans (ContextInput.preimage_ok hb)
  cases a with
  | operation x =>
    cases b with
    | operation y =>
      have hfields : x.fields = y.fields := fields_inj rfl (List.append_cancel_left heq)
      rw [OperationContextV2.fields_injective hfields]
    | session y => exact absurd heq tags_separate.1
    | claimId y => exact absurd heq tags_separate.2.1
  | session x =>
    cases b with
    | operation y => exact absurd heq.symm tags_separate.1
    | session y =>
      have hfields : x.fields = y.fields := fields_inj rfl (List.append_cancel_left heq)
      rw [SessionContextV2Inputs.fields_injective hfields]
    | claimId y => exact absurd heq tags_separate.2.2
  | claimId x =>
    cases b with
    | operation y => exact absurd heq.symm tags_separate.2.1
    | session y => exact absurd heq.symm tags_separate.2.2
    | claimId y =>
      rw [claimIdInputs_inj (claimIdV2Preimage_ok ha).2.1 (claimIdV2Preimage_ok hb).2.1
        (List.append_cancel_left heq)]

/-- An operation with empty fields whose path spells the session tag. -/
def mimickingOperation : OperationContextV2 :=
  { requiredScope := ⟨"files:read", by decide⟩, operation := ⟨"", by decide⟩
    resourceId := ⟨"", by decide⟩, requestedPath := ⟨"ratify/session-context/v2", by decide⟩
    payloadDigest := ⟨[], by decide⟩ }

theorem contextPreimage_mimicking :
    ∃ p, (ContextInput.operation mimickingOperation).preimage = .ok p
      ∧ ∀ b : ContextInput, b.preimage = .ok p → b = .operation mimickingOperation := by
  refine ⟨_, rfl, fun b hb => ?_⟩
  exact contextPreimage_injective hb rfl

end RatifyProtocol.V2
