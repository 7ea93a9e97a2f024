import RatifyProtocol.V2.OperationContext
set_option autoImplicit false

/-!
# V1: challenge signatures

The challenge part of `crypto.rs`.  The bytes an agent signs are the challenge,
its time, the session context if there is one and the stream position if there
is one, one after the other with nothing between them.  An `i64` is an `Int64`.
-/

namespace RatifyProtocol.V1

open Foundation
open V2 (HybridPublicKey HybridSignature mlDsaPkLen mlDsaSigLen u64BeBytes length_u64BeBytes
  u64BeBytes_injOn)

/-- The third-party cryptography of the v1 path. -/
structure Primitives where
  sha256 : Bytes → Bytes
  /-- Key, message. -/
  hmacSha256 : Bytes → Bytes → Bytes
  edKeyParses : Bytes → Bool
  edSignatureParses : Bytes → Bool
  /-- Key, message, signature. -/
  edVerify : Bytes → Bytes → Bytes → Bool
  mlKeyParses : Bytes → Bool
  /-- Key, message, signature, context. -/
  mlVerify : Bytes → Bytes → Bytes → Bytes → Bool

variable (P : Primitives)

/-- `verify_both`: both components over the same bytes. -/
def verifyBoth (msg : Bytes) (sig : HybridSignature) (pubKey : HybridPublicKey) :
    Except String Unit :=
  if pubKey.ed25519.length ≠ 32 then
    .error s!"Ed25519 public key wrong length: {pubKey.ed25519.length}"
  else if pubKey.mlDsa65.length ≠ mlDsaPkLen then
    .error s!"ML-DSA-65 public key wrong length: {pubKey.mlDsa65.length}"
  else if sig.ed25519.length ≠ 64 then
    .error s!"Ed25519 signature wrong length: {sig.ed25519.length}"
  else if sig.mlDsa65.length ≠ mlDsaSigLen then
    .error s!"ML-DSA-65 signature wrong length: {sig.mlDsa65.length}"
  else if !P.edKeyParses pubKey.ed25519 then .error "Ed25519 public key invalid"
  else if !P.edSignatureParses sig.ed25519 then .error "Ed25519 signature invalid"
  else if !P.edVerify pubKey.ed25519 msg sig.ed25519 then .error "Ed25519 signature invalid"
  else if !P.mlKeyParses pubKey.mlDsa65 then .error "ML-DSA-65 public key malformed"
  else if !P.mlVerify pubKey.mlDsa65 msg sig.mlDsa65 [] then .error "ML-DSA-65 signature invalid"
  else .ok ()

/-! ## Signed bytes -/

/-- `(value as u64).to_be_bytes()`. -/
def i64BeBytes (value : Int64) : Bytes := u64BeBytes value.toUInt64.toNat

/-- What an agent answers a challenge with. -/
structure ChallengeTuple where
  challenge : Bytes
  challengeAt : Int64
  sessionContext : Bytes
  streamId : Bytes
  streamSeq : Int64
  deriving DecidableEq

/-- `challenge_sign_bytes_with_stream`. -/
def challengeSignBytesWithStream (t : ChallengeTuple) : Bytes :=
  t.challenge ++ i64BeBytes t.challengeAt ++ t.sessionContext
    ++ (if t.streamId = [] then [] else t.streamId ++ i64BeBytes t.streamSeq)

/-- `verify_challenge_signature_with_stream`. -/
def verifyChallengeSignatureWithStream (t : ChallengeTuple) (sig : HybridSignature)
    (agentPub : HybridPublicKey) : Except String Unit :=
  if t.sessionContext ≠ [] ∧ t.sessionContext.length ≠ 32 then
    .error s!"session_context must be 32 bytes, got {t.sessionContext.length}"
  else if t.streamId ≠ [] ∧ t.streamId.length ≠ 32 then
    .error s!"stream_id must be 32 bytes, got {t.streamId.length}"
  else if t.streamId ≠ [] ∧ t.streamSeq < 1 then
    .error s!"stream_seq must be >=1, got {t.streamSeq.toInt}"
  else verifyBoth P (challengeSignBytesWithStream t) sig agentPub

/-- What the structural checks of a verification admit: a challenge that is not
empty, a session context that is absent or 32 bytes, a stream that is absent with
sequence 0 or 32 bytes with a positive sequence. -/
structure ChallengeTuple.Admitted (t : ChallengeTuple) : Prop where
  challenge : t.challenge ≠ []
  session : t.sessionContext = [] ∨ t.sessionContext.length = 32
  stream : (t.streamId = [] ∧ t.streamSeq = 0) ∨ (t.streamId.length = 32 ∧ 1 ≤ t.streamSeq)

/-! ## Fixed-width integers -/

@[simp] theorem length_i64BeBytes (value : Int64) : (i64BeBytes value).length = 8 := by
  unfold i64BeBytes
  exact length_u64BeBytes _

theorem i64BeBytes_injective : Function.Injective i64BeBytes := by
  intro m n h
  unfold i64BeBytes at h
  have hnat : m.toUInt64.toNat = n.toUInt64.toNat :=
    u64BeBytes_injOn m.toUInt64.toNat_lt n.toUInt64.toNat_lt h
  exact congrArg UInt64.toInt64 (UInt64.toNat_inj.mp hnat)

/-- Any eight bytes are a number. -/
theorem exists_u64BeBytes {b : Bytes} (h : b.length = 8) :
    ∃ n < 2 ^ 64, u64BeBytes n = b := by
  match b, h with
  | [b7, b6, b5, b4, b3, b2, b1, b0], _ =>
    have h7 := b7.toNat_lt
    have h6 := b6.toNat_lt
    have h5 := b5.toNat_lt
    have h4 := b4.toNat_lt
    have h3 := b3.toNat_lt
    have h2 := b2.toNat_lt
    have h1 := b1.toNat_lt
    have h0 := b0.toNat_lt
    refine ⟨b7.toNat * 256 ^ 7 + b6.toNat * 256 ^ 6 + b5.toNat * 256 ^ 5 + b4.toNat * 256 ^ 4
      + b3.toNat * 256 ^ 3 + b2.toNat * 256 ^ 2 + b1.toNat * 256 + b0.toNat, by omega, ?_⟩
    have digit : ∀ (x : UInt8) (n : Nat), n % 256 = x.toNat → UInt8.ofNat n = x := by
      intro x n hn
      apply UInt8.toNat_inj.mp
      simpa using hn
    have hrange : (List.range 8).reverse = [7, 6, 5, 4, 3, 2, 1, 0] := by decide
    simp only [u64BeBytes, hrange, List.map_cons, List.map_nil, List.cons.injEq, and_true]
    refine ⟨digit _ _ ?_, digit _ _ ?_, digit _ _ ?_, digit _ _ ?_, digit _ _ ?_, digit _ _ ?_,
      digit _ _ ?_, digit _ _ ?_⟩ <;> omega

theorem exists_i64BeBytes {b : Bytes} (h : b.length = 8) : ∃ value, i64BeBytes value = b := by
  obtain ⟨n, hn, rfl⟩ := exists_u64BeBytes h
  refine ⟨(UInt64.ofNat n).toInt64, ?_⟩
  unfold i64BeBytes
  rw [UInt64.toUInt64_toInt64, UInt64.toNat_ofNat_of_lt' hn]

/-! ## Collisions -/

/-- A response that binds neither a session nor a stream. -/
def ChallengeTuple.Plain (t : ChallengeTuple) : Prop := t.sessionContext = [] ∧ t.streamId = []

theorem length_challengeSignBytesWithStream {t : ChallengeTuple} (ht : t.Admitted) :
    (challengeSignBytesWithStream t).length
      = t.challenge.length + 8 + t.sessionContext.length
        + (if t.streamId = [] then 0 else 40) := by
  unfold challengeSignBytesWithStream
  split
  · simp [Nat.add_assoc]
  · rename_i hstream
    obtain ⟨hnone, -⟩ | ⟨hlen, -⟩ := ht.stream
    · exact absurd hnone hstream
    · simp [hlen]
      omega

/-- Any nine bytes or more are a plain response. -/
theorem exists_plain {b : Bytes} (h : 8 < b.length) :
    ∃ t : ChallengeTuple, t.Admitted ∧ t.Plain ∧ challengeSignBytesWithStream t = b := by
  obtain ⟨at_, hat⟩ := exists_i64BeBytes (b := b.drop (b.length - 8)) (by simp; omega)
  refine ⟨⟨b.take (b.length - 8), at_, [], [], 0⟩, ⟨?_, Or.inl rfl, Or.inl ⟨rfl, rfl⟩⟩,
    ⟨rfl, rfl⟩, ?_⟩
  · apply List.ne_nil_of_length_pos
    simp
    omega
  · simp only [challengeSignBytesWithStream, hat, if_true, List.append_nil]
    exact List.take_append_drop _ b

/-- Any 41 bytes or more are a session-bound response. -/
theorem exists_sessionBound {b : Bytes} (h : 40 < b.length) :
    ∃ t : ChallengeTuple, t.Admitted ∧ ¬ t.Plain ∧ challengeSignBytesWithStream t = b := by
  obtain ⟨at_, hat⟩ := exists_i64BeBytes (b := (b.drop (b.length - 40)).take 8)
    (by simp; omega)
  have hsession : (b.drop (b.length - 32)).length = 32 := by
    simp
    omega
  refine ⟨⟨b.take (b.length - 40), at_, b.drop (b.length - 32), [], 0⟩,
    ⟨?_, Or.inr hsession, Or.inl ⟨rfl, rfl⟩⟩, fun hplain => ?_, ?_⟩
  · apply List.ne_nil_of_length_pos
    simp
    omega
  · have hnil : b.drop (b.length - 32) = [] := hplain.1
    rw [hnil] at hsession
    simp at hsession
  · have hrest : b.drop (b.length - 32) = (b.drop (b.length - 40)).drop 8 := by
      rw [List.drop_drop]
      congr 1
      omega
    simp only [challengeSignBytesWithStream, hat, hrest, if_true, List.append_nil,
      List.append_assoc, List.take_append_drop]

/-- Responses to challenges of one length are told apart: what follows the time
has 0, 32, 40 or 72 bytes. -/
theorem challengeSignBytesWithStream_injOn {s t : ChallengeTuple} (hs : s.Admitted)
    (ht : t.Admitted) (hlen : s.challenge.length = t.challenge.length)
    (h : challengeSignBytesWithStream s = challengeSignBytesWithStream t) : s = t := by
  have hlengths := congrArg List.length h
  rw [length_challengeSignBytesWithStream hs, length_challengeSignBytesWithStream ht] at hlengths
  simp only [challengeSignBytesWithStream, List.append_assoc] at h
  obtain ⟨hchallenge, hrest⟩ := List.append_inj h hlen
  obtain ⟨hat, hrest⟩ := List.append_inj hrest (by simp)
  have hsession : s.sessionContext.length = t.sessionContext.length := by
    obtain hs' | hs' := hs.session <;> obtain ht' | ht' := ht.session <;>
      simp only [hs', ht', List.length_nil] at hlengths ⊢ <;> split at hlengths <;>
      split at hlengths <;> omega
  obtain ⟨hsession, hstream⟩ := List.append_inj hrest hsession
  have hat := i64BeBytes_injective hat
  have hposition : s.streamId = t.streamId ∧ s.streamSeq = t.streamSeq := by
    obtain ⟨hs₁, hs₂⟩ | ⟨hs₁, -⟩ := hs.stream <;> obtain ⟨ht₁, ht₂⟩ | ⟨ht₁, -⟩ := ht.stream
    · exact ⟨hs₁.trans ht₁.symm, hs₂.trans ht₂.symm⟩
    · have hne : t.streamId ≠ [] := List.ne_nil_of_length_pos (by omega)
      simp [hs₁, hne] at hstream
    · have hne : s.streamId ≠ [] := List.ne_nil_of_length_pos (by omega)
      simp [ht₁, hne] at hstream
    · have hns : s.streamId ≠ [] := List.ne_nil_of_length_pos (by omega)
      have hnt : t.streamId ≠ [] := List.ne_nil_of_length_pos (by omega)
      rw [if_neg hns, if_neg hnt] at hstream
      obtain ⟨hid, hseq⟩ := List.append_inj hstream (hs₁.trans ht₁.symm)
      exact ⟨hid, i64BeBytes_injective hseq⟩
  cases s
  cases t
  simp only [ChallengeTuple.mk.injEq]
  exact ⟨hchallenge, hat, hsession, hposition⟩

/-- Admitted responses with the same bytes accept the same signatures. -/
theorem verifyChallengeSignatureWithStream_congr {s t : ChallengeTuple} (hs : s.Admitted)
    (ht : t.Admitted) (h : challengeSignBytesWithStream s = challengeSignBytesWithStream t)
    (sig : HybridSignature) (agentPub : HybridPublicKey) :
    verifyChallengeSignatureWithStream P s sig agentPub
      = verifyChallengeSignatureWithStream P t sig agentPub := by
  have passes : ∀ {u : ChallengeTuple}, u.Admitted →
      verifyChallengeSignatureWithStream P u sig agentPub
        = verifyBoth P (challengeSignBytesWithStream u) sig agentPub := by
    intro u hu
    have hsession : ¬ (u.sessionContext ≠ [] ∧ u.sessionContext.length ≠ 32) := by
      obtain hnone | hlen := hu.session
      · exact fun hbad => hbad.1 hnone
      · exact fun hbad => hbad.2 hlen
    have hstream : ¬ (u.streamId ≠ [] ∧ u.streamId.length ≠ 32)
        ∧ ¬ (u.streamId ≠ [] ∧ u.streamSeq < 1) := by
      obtain ⟨hnone, -⟩ | ⟨hlen, hseq⟩ := hu.stream
      · exact ⟨fun hbad => hbad.1 hnone, fun hbad => hbad.1 hnone⟩
      · exact ⟨fun hbad => hbad.2 hlen, fun hbad => Int64.not_lt.mpr hseq hbad.2⟩
    unfold verifyChallengeSignatureWithStream
    rw [if_neg hsession, if_neg hstream.1, if_neg hstream.2]
  rw [passes hs, passes ht, h]

/-- The bytes of a response are its own exactly when it is plain and its
challenge has at most 32 bytes: with a session or a stream they are also those of
a plain response to a longer challenge, and 33 bytes of challenge leave room for
a session context. -/
theorem challengeSignBytesWithStream_unique_iff {t : ChallengeTuple} (ht : t.Admitted) :
    (∀ s : ChallengeTuple, s.Admitted →
        challengeSignBytesWithStream s = challengeSignBytesWithStream t → s = t)
      ↔ t.sessionContext = [] ∧ t.streamId = [] ∧ t.challenge.length ≤ 32 := by
  have hlength := length_challengeSignBytesWithStream ht
  have hpos : 0 < t.challenge.length := List.length_pos_iff.mpr ht.challenge
  constructor
  · intro hunique
    have hplain : t.Plain := by
      obtain ⟨s, hs, hplain, hbytes⟩ := exists_plain (b := challengeSignBytesWithStream t)
        (by omega)
      rw [← hunique s hs hbytes]
      exact hplain
    refine ⟨hplain.1, hplain.2, ?_⟩
    by_contra hlong
    obtain ⟨s, hs, hbound, hbytes⟩ := exists_sessionBound (b := challengeSignBytesWithStream t)
      (by omega)
    rw [hunique s hs hbytes] at hbound
    exact hbound hplain
  · rintro ⟨hsession, hstream, hshort⟩ s hs hbytes
    apply challengeSignBytesWithStream_injOn hs ht _ hbytes
    have hlengths := congrArg List.length hbytes
    rw [hlength, length_challengeSignBytesWithStream hs] at hlengths
    have hchallenge : 0 < s.challenge.length := List.length_pos_iff.mpr hs.challenge
    simp only [hsession, hstream, List.length_nil, if_true] at hlengths
    obtain hs' | hs' := hs.session <;> simp only [hs', List.length_nil] at hlengths <;>
      split at hlengths <;> omega

/-- A plain response to a challenge of the length that verifiers issue. -/
def plainResponse : ChallengeTuple :=
  { challenge := List.replicate 32 0, challengeAt := 0, sessionContext := [], streamId := []
    streamSeq := 0 }

theorem challengeSignBytesWithStream_plainResponse :
    plainResponse.Admitted ∧ ∀ s : ChallengeTuple, s.Admitted →
      challengeSignBytesWithStream s = challengeSignBytesWithStream plainResponse →
        s = plainResponse := by
  have hplain : plainResponse.Admitted := ⟨by decide, Or.inl rfl, Or.inl ⟨rfl, rfl⟩⟩
  exact ⟨hplain, (challengeSignBytesWithStream_unique_iff hplain).mpr ⟨rfl, rfl, by decide⟩⟩

/-- A session-bound response to 32 bytes. -/
def sessionResponse : ChallengeTuple :=
  { plainResponse with sessionContext := List.replicate 32 0 }

/-- A plain response to 64 bytes. -/
def longResponse : ChallengeTuple :=
  { plainResponse with challenge := List.replicate 64 0 }

theorem challengeSignBytesWithStream_collision :
    sessionResponse.Admitted ∧ longResponse.Admitted ∧ sessionResponse ≠ longResponse
      ∧ challengeSignBytesWithStream sessionResponse = challengeSignBytesWithStream longResponse
      ∧ ∀ (P : Primitives) (sig : HybridSignature) (agentPub : HybridPublicKey),
        verifyChallengeSignatureWithStream P sessionResponse sig agentPub
          = verifyChallengeSignatureWithStream P longResponse sig agentPub := by
  have hs : sessionResponse.Admitted := ⟨by decide, Or.inr (by decide), Or.inl ⟨rfl, rfl⟩⟩
  have hl : longResponse.Admitted := ⟨by decide, Or.inl rfl, Or.inl ⟨rfl, rfl⟩⟩
  have hbytes : challengeSignBytesWithStream sessionResponse
      = challengeSignBytesWithStream longResponse := by decide
  exact ⟨hs, hl, by decide, hbytes, fun P sig agentPub =>
    verifyChallengeSignatureWithStream_congr P hs hl hbytes sig agentPub⟩

end RatifyProtocol.V1
