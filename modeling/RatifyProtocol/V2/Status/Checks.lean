import RatifyProtocol.V2.Status.Objects
import RatifyProtocol.V2.Status.Preserve
set_option autoImplicit false

/-!
# Status: the checks before an object is reduced

`applyListInner_eq_ok_iff` and `applyPushInner_eq_ok_iff` say exactly when an
application succeeds on a well-formed state, and with which result: the checks of
`Checks`, then the reducer on the state bound to the issuer, epoch and key.
-/

namespace RatifyProtocol.V2

open Foundation

namespace StatusObject

variable (P : Primitives)

def verify (x : StatusObject) (issuerId : String) (statusKey : HybridPublicKey) :
    V2Result Unit :=
  match x with
  | list l => verifyRevocationListV2Signature P l issuerId statusKey
  | push p => verifyRevocationPushV2Signature P p issuerId statusKey

/-- The time an object was issued. -/
def issuedAt : StatusObject → Int
  | list l => l.updatedAt
  | push p => p.pushedAt

def issuerId : StatusObject → String
  | list l => l.issuerId
  | push p => p.issuerId

def signature : StatusObject → HybridSignature
  | list l => l.signature
  | push p => p.signature

def v2ObjectType : StatusObject → V2ObjectType
  | list _ => .revocationList
  | push _ => .revocationPush

variable {P} in
/-- Verification is the issuer and the signature over the signable text. -/
theorem verify_eq_ok_iff {x : StatusObject} {issuerId : String} {key : HybridPublicKey} :
    x.verify P issuerId key = .ok () ↔
      x.issuerId = issuerId ∧ ∃ text, x.signable = .ok text ∧
        verifyV2Statement P x.v2ObjectType text x.signature key = .ok () := by
  cases x with
  | list l =>
    simp only [verify, verifyRevocationListV2Signature, bind_eq_ok_iff, classify_eq_ok_iff,
      StatusObject.issuerId, signable, v2ObjectType, signature]
    constructor
    · rintro ⟨_, -, h⟩
      split at h
      · simp at h
      · rename_i hi
        exact ⟨(not_not.mp hi).symm, bind_eq_ok_iff.mp h⟩
    · rintro ⟨rfl, text, ht, hv⟩
      have hval := ht
      simp only [revocationListV2SignableBytes, bind_eq_ok_iff] at hval
      obtain ⟨_, hval, -⟩ := hval
      refine ⟨(), hval, ?_⟩
      rw [if_neg (by simp), ht]
      exact hv
  | push p =>
    simp only [verify, verifyRevocationPushV2Signature, bind_eq_ok_iff, classify_eq_ok_iff,
      StatusObject.issuerId, signable, v2ObjectType, signature]
    constructor
    · rintro ⟨_, -, h⟩
      split at h
      · simp at h
      · rename_i hi
        exact ⟨(not_not.mp hi).symm, bind_eq_ok_iff.mp h⟩
    · rintro ⟨rfl, text, ht, hv⟩
      have hval := ht
      simp only [revocationPushV2SignableBytes, bind_eq_ok_iff] at hval
      obtain ⟨_, hval, -⟩ := hval
      refine ⟨(), hval, ?_⟩
      rw [if_neg (by simp), ht]
      exact hv

end StatusObject

/-- The state an object is reduced in. -/
def boundState (s : RevocationStatusStateV2) (issuerId : String) (epoch : Nat) (keyId : String) :
    RevocationStatusStateV2 :=
  if s.issuerId = "" then { issuerId, statusKeyEpoch := epoch, statusKeyId := keyId } else s

variable {P : Primitives} {s : RevocationStatusStateV2}

/-! ## Binding -/

theorem cloneList_of_digest {l : RevocationListV2} {d : Bytes}
    (h : statusEvidenceDigestListV2 P l = .ok d) : cloneList l = .ok l := by
  simp only [statusEvidenceDigestListV2, bind_eq_ok_iff] at h
  obtain ⟨e, he, -⟩ := h
  simp only [cloneList, he, ok_bind, decode_encode_list he]

/-- Copying a well-formed state succeeds and changes nothing. -/
theorem WellFormed.cloneState (h : WellFormed P s) : cloneState s = .ok s := by
  cases hf : s.hasFloor with
  | false => simp [V2.cloneState, (h.floor.absent hf).2.1]
  | true =>
    obtain ⟨snap, hsnap, hacc⟩ := h.floor.present hf
    obtain ⟨d, hd, -⟩ := hacc.base
    simp only [V2.cloneState, hsnap, cloneList_of_digest hd, ok_bind]
    rw [← hsnap]

/-- A well-formed state binds to its own issuer and epoch, the unbound one to any. -/
theorem WellFormed.validateBinding_iff (h : WellFormed P s) {issuerId : String} {epoch : Nat} :
    validateBinding s issuerId epoch = .ok () ↔
      (s.issuerId ≠ "" → issuerId = s.issuerId ∧ epoch = s.statusKeyEpoch) ∧ 0 < epoch ∧
        (epoch : Int) ≤ maxSafe := by
  constructor
  · intro hok
    simp only [validateBinding, refuseIf_bind_eq_ok_iff] at hok
    obtain ⟨h₁, h₂, -, -, -, -, h₇, -⟩ := hok
    simp only [Bool.and_eq_false_iff, bne_eq_false_iff_eq] at h₁ h₂
    simp only [Bool.or_eq_false_iff, beq_eq_false_iff_ne, decide_eq_false_iff_not, not_lt] at h₇
    refine ⟨fun hne => ?_, Nat.pos_of_ne_zero h₇.1.2, h₇.2⟩
    exact ⟨(h₁.resolve_left hne).symm, (h₂.resolve_left hne).symm⟩
  · rintro ⟨hbound, hpos, hle⟩
    exact validateBinding_of_wellFormed P h hbound hpos hle

theorem WellFormed.initializeState (h : WellFormed P s) (issuerId : String) (epoch : Nat) :
    initializeState s issuerId epoch
      = if s.issuerId = "" then { s with issuerId, statusKeyEpoch := epoch } else s := by
  by_cases hi : s.issuerId = ""
  · simp only [V2.initializeState, hi, beq_self_eq_true, ↓reduceIte, h.floor.accepted_sorted,
      h.evidence.deny_sorted]
  · simp only [V2.initializeState, beq_eq_false_iff_ne.mpr hi, Bool.false_eq_true, ↓reduceIte, hi,
      h.floor.accepted_sorted, h.evidence.deny_sorted]

theorem WellFormed.bindState_eq_ok_iff (h : WellFormed P s) {issuerId : String} {epoch : Nat}
    {key : HybridPublicKey} {message : String} {b : RevocationStatusStateV2} {keyId : String} :
    bindState P s issuerId epoch key message = .ok (b, keyId) ↔
      keyIdV2 P key = .ok keyId ∧ (s.issuerId ≠ "" → s.statusKeyId = keyId) ∧
        b = boundState s issuerId epoch keyId := by
  have hstep : bindState P s issuerId epoch key message = .ok (b, keyId) ↔
      keyIdV2 P key = .ok keyId ∧
        ((V2.initializeState s issuerId epoch).statusKeyId ≠ "" →
          (V2.initializeState s issuerId epoch).statusKeyId = keyId) ∧
        b = { V2.initializeState s issuerId epoch with statusKeyId := keyId } := by
    simp only [bindState, h.cloneState, ok_bind, bind_eq_ok_iff, keyIdPlain_eq_ok_iff,
      refuseIf_eq_ok_iff, Except.ok.injEq, Prod.mk.injEq, Bool.and_eq_false_iff,
      bne_eq_false_iff_eq]
    constructor
    · rintro ⟨k, hk, -, hmatch, rfl, rfl⟩
      exact ⟨hk, hmatch.resolve_left, rfl⟩
    · rintro ⟨hk, hmatch, rfl⟩
      exact ⟨keyId, hk, (), or_iff_not_imp_left.mpr hmatch, rfl, rfl⟩
  rw [hstep, h.initializeState]
  by_cases hi : s.issuerId = ""
  · obtain rfl := h.unbound hi
    simp [boundState]
  · have hid := validV2Id_ne_empty (h.binding.keyId hi)
    simp only [hi, ↓reduceIte, boundState, ne_eq, not_false_eq_true, true_implies, hid]
    refine and_congr_right fun _ => and_congr_right fun hk => ?_
    rw [← hk]

/-! ## Checks -/

/-- The observation of an object at `now`. -/
def StatusObject.observation (x : StatusObject) (epoch : Nat) (keyId : String)
    (digest bodyDigest setDigest : Bytes) (policy : RevocationStatusPolicyV2) (now : Int) :
    RevocationObservationV2 :=
  match x with
  | .list l => listObservation l epoch keyId digest bodyDigest setDigest policy now
  | .push p => pushObservationOf p epoch keyId digest bodyDigest setDigest policy now

/-- What an application has checked of an object, and what it goes on with: the
bound state `b` and the observation `o`. -/
structure Checks (P : Primitives) (s : RevocationStatusStateV2) (x : StatusObject)
    (issuerId : String) (epoch : Nat) (key : HybridPublicKey) (policy : RevocationStatusPolicyV2)
    (now : Int) (b : RevocationStatusStateV2) (o : RevocationObservationV2) : Prop where
  policy_ok : validatePolicy policy = .ok ()
  now_ok : validV2Timestamp now = true
  verified : x.verify P issuerId key = .ok ()
  binding : s.issuerId ≠ "" → issuerId = s.issuerId ∧ epoch = s.statusKeyEpoch
  epoch_pos : 0 < epoch
  epoch_le : (epoch : Int) ≤ maxSafe
  key_ok : keyIdV2 P key = .ok o.statusKeyId
  keyMatches : s.issuerId ≠ "" → s.statusKeyId = o.statusKeyId
  digest : x.evidenceDigest P = .ok o.evidenceDigest
  body : ∃ text, x.signable = .ok text ∧ o.bodyDigest = P.sha384 text
  set : x.setDigest P = .ok o.revokedSetDigest
  observation : o = x.observation epoch o.statusKeyId o.evidenceDigest o.bodyDigest
    o.revokedSetDigest policy now
  bound : b = boundState s issuerId epoch o.statusKeyId

theorem applyListInner_eq_ok_iff (h : WellFormed P s) {l : RevocationListV2} {issuerId : String}
    {epoch : Nat} {key : HybridPublicKey} {policy : RevocationStatusPolicyV2} {now : Int}
    {r : RevocationStatusStateV2} :
    applyListInner P s l issuerId epoch key policy now = .ok r ↔
      ∃ b o, Checks P s (.list l) issuerId epoch key policy now b o ∧
        reduceList P b l o.evidenceDigest o (listFresh l policy now) = .ok r := by
  constructor
  · intro hok
    simp only [applyListInner, bind_eq_ok_iff, refuseIf_eq_ok_iff, h.validateBinding_iff] at hok
    obtain ⟨_, hpol, _, hpre, _, hver, _, ⟨hbind, hpos, hle⟩, digest, hd, text, ht, set, hs,
      ⟨b, keyId⟩, hb, hred⟩ := hok
    obtain ⟨hk, hm, rfl⟩ := h.bindState_eq_ok_iff.mp hb
    simp only [Bool.or_eq_false_iff, Bool.not_eq_false'] at hpre
    exact ⟨_, listObservation l epoch keyId digest (P.sha384 text) set policy now,
      ⟨hpol, hpre.1.1, hver, hbind, hpos, hle, hk, hm, hd, ⟨text, ht, rfl⟩, hs, rfl, rfl⟩, hred⟩
  · rintro ⟨b, o, hc, hred⟩
    obtain ⟨text, ht, hbody⟩ := hc.body
    have hobs := hc.observation
    simp only [applyListInner, bind_eq_ok_iff, refuseIf_eq_ok_iff, h.validateBinding_iff]
    refine ⟨(), hc.policy_ok, (), ?_, (), hc.verified, (), ⟨hc.binding, hc.epoch_pos, hc.epoch_le⟩,
      _, hc.digest, text, ht, _, hc.set, (b, o.statusKeyId),
      h.bindState_eq_ok_iff.mpr ⟨hc.key_ok, hc.keyMatches, hc.bound⟩, ?_⟩
    · have := hc.epoch_pos
      have := hc.epoch_le
      simp only [Bool.or_eq_false_iff, hc.now_ok, Bool.not_true, beq_eq_false_iff_ne,
        decide_eq_false_iff_not, true_and]
      omega
    · dsimp only
      rw [hbody, StatusObject.observation] at hobs
      rw [← hobs]
      exact hred

theorem applyPushInner_eq_ok_iff (h : WellFormed P s) {p : RevocationPushV2} {issuerId : String}
    {epoch : Nat} {key : HybridPublicKey} {policy : RevocationStatusPolicyV2} {now : Int}
    {r : RevocationStatusStateV2} :
    applyPushInner P s p issuerId epoch key policy now = .ok r ↔
      ∃ b o, Checks P s (.push p) issuerId epoch key policy now b o ∧ r = reducePush b p o := by
  constructor
  · intro hok
    simp only [applyPushInner, bind_eq_ok_iff, refuseIf_eq_ok_iff, h.validateBinding_iff] at hok
    obtain ⟨_, hpol, _, hpre, _, hver, _, ⟨hbind, hpos, hle⟩, digest, hd, text, ht, set, hs,
      ⟨b, keyId⟩, hb, hred⟩ := hok
    obtain ⟨hk, hm, rfl⟩ := h.bindState_eq_ok_iff.mp hb
    simp only [Bool.or_eq_false_iff, Bool.not_eq_false'] at hpre
    exact ⟨_, pushObservationOf p epoch keyId digest (P.sha384 text) set policy now,
      ⟨hpol, hpre.1.1, hver, hbind, hpos, hle, hk, hm, hd, ⟨text, ht, rfl⟩, hs, rfl, rfl⟩,
      (Except.ok.inj hred).symm⟩
  · rintro ⟨b, o, hc, hred⟩
    obtain ⟨text, ht, hbody⟩ := hc.body
    have hobs := hc.observation
    simp only [applyPushInner, bind_eq_ok_iff, refuseIf_eq_ok_iff, h.validateBinding_iff]
    refine ⟨(), hc.policy_ok, (), ?_, (), hc.verified, (),
      ⟨hc.binding, hc.epoch_pos, hc.epoch_le⟩, _, hc.digest, text, ht, _, hc.set,
      (b, o.statusKeyId), h.bindState_eq_ok_iff.mpr ⟨hc.key_ok, hc.keyMatches, hc.bound⟩, ?_⟩
    · have := hc.epoch_pos
      have := hc.epoch_le
      simp only [Bool.or_eq_false_iff, hc.now_ok, Bool.not_true, beq_eq_false_iff_ne,
        decide_eq_false_iff_not, true_and]
      omega
    · dsimp only
      rw [hbody, StatusObject.observation] at hobs
      rw [← hobs, hred]

/-! ## What the checks give -/

namespace Checks

variable {x : StatusObject} {issuerId : String} {epoch : Nat} {key : HybridPublicKey}
  {policy : RevocationStatusPolicyV2} {now : Int} {b : RevocationStatusStateV2}
  {o : RevocationObservationV2}

theorem objectType (h : Checks P s x issuerId epoch key policy now b o) :
    o.objectType = x.objectType := by
  rw [h.observation]
  cases x <;> rfl

theorem sequence (h : Checks P s x issuerId epoch key policy now b o) :
    o.sequence = x.sequence := by
  rw [h.observation]
  cases x <;> rfl

theorem ids (h : Checks P s x issuerId epoch key policy now b o) :
    o.revokedCertIds = x.ids := by
  rw [h.observation]
  cases x <;> rfl

theorem unmarked (h : Checks P s x issuerId epoch key policy now b o) :
    o.fork = false ∧ o.gap = false ∧ o.accepted = false := by
  rw [h.observation]
  cases x <;> exact ⟨rfl, rfl, rfl⟩

theorem futureDated (h : Checks P s x issuerId epoch key policy now b o) :
    o.futureDated = beyondSkew x.issuedAt now policy.clockSkewSeconds := by
  rw [h.observation]
  cases x <;> rfl

theorem epoch_eq (h : Checks P s x issuerId epoch key policy now b o) :
    o.statusKeyEpoch = epoch := by
  rw [h.observation]
  cases x <;> rfl

/-- The checks determine the bound state and the observation. -/
theorem unique {b' : RevocationStatusStateV2} {o' : RevocationObservationV2}
    (h : Checks P s x issuerId epoch key policy now b o)
    (h' : Checks P s x issuerId epoch key policy now b' o') : b = b' ∧ o = o' := by
  have hk : o.statusKeyId = o'.statusKeyId := Except.ok.inj (h.key_ok.symm.trans h'.key_ok)
  have hd : o.evidenceDigest = o'.evidenceDigest :=
    Except.ok.inj (h.digest.symm.trans h'.digest)
  have hs : o.revokedSetDigest = o'.revokedSetDigest := Except.ok.inj (h.set.symm.trans h'.set)
  obtain ⟨text, ht, hb⟩ := h.body
  obtain ⟨text', ht', hb'⟩ := h'.body
  obtain rfl := Except.ok.inj (ht.symm.trans ht')
  refine ⟨?_, ?_⟩
  · rw [h.bound, h'.bound, hk]
  · rw [h.observation, h'.observation, hk, hd, hs, hb, hb']

theorem verified_issuer (h : Checks P s x issuerId epoch key policy now b o) :
    x.issuerId = issuerId :=
  (StatusObject.verify_eq_ok_iff.mp h.verified).1

/-- What a verified object satisfies, list or push. -/
theorem object_ok (h : Checks P s x issuerId epoch key policy now b o) :
    validV2Id x.issuerId = true ∧ 0 < x.sequence ∧ x.sequence ≤ maxSafe ∧
      RefsWellFormed x.refs := by
  obtain ⟨e, he, -⟩ := CollisionFree.evidenceDigest_eq_ok_iff.mp h.digest
  cases x with
  | list l =>
    have hwf := (encodeRevocationListV2_eq_ok_iff.mp he).1
    exact ⟨hwf.issuer, hwf.sequence_pos, hwf.sequence_le, hwf.refs⟩
  | push p =>
    have hwf := (encodeRevocationPushV2_eq_ok_iff.mp he).1
    exact ⟨hwf.issuer, hwf.sequence_pos, hwf.sequence_le, hwf.refs⟩

theorem issuer_ne (h : Checks P s x issuerId epoch key policy now b o) : issuerId ≠ "" :=
  h.verified_issuer ▸ validV2Id_ne_empty h.object_ok.1

/-- The bound state carries the issuer, epoch and key of the application. -/
theorem bound_fields (h : Checks P s x issuerId epoch key policy now b o) :
    b.issuerId = issuerId ∧ b.statusKeyEpoch = epoch ∧ b.statusKeyId = o.statusKeyId := by
  rw [h.bound, boundState]
  split
  · exact ⟨rfl, rfl, rfl⟩
  · rename_i hi
    exact ⟨(h.binding hi).1.symm, (h.binding hi).2.symm, h.keyMatches hi⟩

theorem bound_ne (h : Checks P s x issuerId epoch key policy now b o) : b.issuerId ≠ "" :=
  h.bound_fields.1 ▸ h.issuer_ne

theorem wellFormed (h : Checks P s x issuerId epoch key policy now b o) (hs : WellFormed P s) :
    WellFormed P b := by
  have hne := h.bound_ne
  have hkey := validV2Id_of_keyIdV2 P h.key_ok
  rw [h.bound, boundState] at hne ⊢
  split
  · rename_i hi
    have hd := wellFormed_default P
    refine ⟨fun he => ?_, ?_, ?_, ?_⟩
    · rw [if_pos hi] at hne
      exact absurd he hne
    · exact ⟨fun _ => h.epoch_pos, h.epoch_le, fun _ => hkey, rfl, by simp, by simp⟩
    · exact ⟨by simp, .nil, .nil, by simp, rfl, by simp, le_refl _, hd.evidence.max_le, le_refl _,
        le_refl _, le_refl _, hd.evidence.fork_open, hd.evidence.future_open⟩
    · exact ⟨rfl, rfl, le_refl _, hd.floor.preceding_le, fun _ => rfl, fun _ => ⟨rfl, rfl, rfl⟩,
        by simp⟩
  · exact hs

theorem sightingOk (h : Checks P s x issuerId epoch key policy now b o) : SightingOk b o where
  sequence_pos := h.sequence ▸ h.object_ok.2.1
  sequence_le := h.sequence ▸ h.object_ok.2.2.1
  keyId := validV2Id_of_keyIdV2 P h.key_ok
  objectType := by
    rw [h.objectType]
    cases x
    · exact .inl rfl
    · exact .inr rfl
  evidence := by
    have hd := h.digest
    cases x with
    | list l => exact length_statusEvidenceDigest hd
    | push p => exact length_statusEvidenceDigestPush hd
  body := by
    obtain ⟨text, -, hb⟩ := h.body
    rw [hb]
    exact P.length_sha384 _
  revokedSet := by
    obtain ⟨e, -, hd⟩ := CollisionFree.setDigest_eq_ok_iff.mp h.set
    rw [hd]
    exact P.length_sha384 _
  distinct := h.ids ▸ h.object_ok.2.2.2.nodup
  nonempty := h.ids ▸ h.object_ok.2.2.2.nonempty
  epoch := h.epoch_eq.trans h.bound_fields.2.1.symm

end Checks

/-! ## Outcomes -/

section Outcomes

variable {issuerId : String} {epoch : Nat} {key : HybridPublicKey}
  {policy : RevocationStatusPolicyV2} {now : Int} {b r : RevocationStatusStateV2}
  {o : RevocationObservationV2} {l : RevocationListV2} {p : RevocationPushV2}

/-- A fresh list is not future-dated. -/
theorem not_future_of_fresh (h : listFresh l policy now = true) :
    beyondSkew l.updatedAt now policy.clockSkewSeconds = false := by
  unfold listFresh at h
  split at h
  · cases h
  · rename_i hf
    simp only [Bool.or_eq_true, not_or, Bool.not_eq_true] at hf
    exact hf.1.2

/-- Whether the list redelivers a retained one. -/
abbrev duplicates (b : RevocationStatusStateV2) (l : RevocationListV2)
    (o : RevocationObservationV2) : Bool :=
  (redelivers b l o.evidenceDigest o).isSome

/-- What one checked list does: nothing, one more sighting, or a new accepted state. -/
theorem reduceList_cases (hc : Checks P s (.list l) issuerId epoch key policy now b o)
    (hred : reduceList P b l o.evidenceDigest o (listFresh l policy now) = .ok r) :
    (listSettled P b l o.evidenceDigest o (listFresh l policy now)
        (redelivers b l o.evidenceDigest o) = true ∧ r = b) ∨
      (listSettled P b l o.evidenceDigest o (listFresh l policy now)
          (redelivers b l o.evidenceDigest o) = false ∧
        ∃ g, listPlacement (sighted b o (duplicates b l o) none) o (listFresh l policy now)
            (listConflicts b o) = (if g then .gap else .aside) ∧
          r = retain b o (duplicates b l o) (listFork b o) g) ∨
      (listSettled P b l o.evidenceDigest o (listFresh l policy now)
          (redelivers b l o.evidenceDigest o) = false ∧
        listPlacement (sighted b o (duplicates b l o) none) o (listFresh l policy now)
            (listConflicts b o) = .accepted ∧
          r = acceptedList P (sighted b o (duplicates b l o) none) l o.evidenceDigest o) := by
  obtain ⟨hfork, hgap, -⟩ := hc.unmarked
  rw [reduceList_eq (cloneList_of_digest hc.digest) hc.sequence hc.ids hfork hgap] at hred
  have hred := (Except.ok.inj hred).symm
  cases hset : listSettled P b l o.evidenceDigest o (listFresh l policy now)
      (redelivers b l o.evidenceDigest o) with
  | true =>
    rw [hset, if_pos rfl] at hred
    exact .inl ⟨rfl, hred⟩
  | false =>
    rw [hset, if_neg (by simp)] at hred
    right
    cases hp : listPlacement (sighted b o (redelivers b l o.evidenceDigest o).isSome none) o
        (listFresh l policy now) (listConflicts b o) with
    | aside =>
      rw [hp] at hred
      exact .inl ⟨rfl, false, rfl, hred⟩
    | gap =>
      rw [hp] at hred
      exact .inl ⟨rfl, true, rfl, hred⟩
    | accepted =>
      rw [hp] at hred
      exact .inr ⟨rfl, rfl, hred⟩

/-- An accepted list satisfies everything its acceptance rests on. -/
theorem Checks.acceptable (hc : Checks P s (.list l) issuerId epoch key policy now b o)
    {d : Bool} (hp : listPlacement (sighted b o d none) o (listFresh l policy now)
      (listConflicts b o) = .accepted) : Acceptable P b l o.evidenceDigest o := by
  obtain ⟨hfresh, hconf, hfloor, -⟩ := listPlacement_eq_accepted_iff.mp hp
  exact
    { encodes := hc.digest
      issuer := hc.verified_issuer.trans hc.bound_fields.1.symm
      objectType := hc.objectType
      sequence := hc.sequence
      evidence := rfl
      ids := hc.ids
      notFork := hc.unmarked.1
      notFuture := hc.futureDated.trans (not_future_of_fresh hfresh)
      noConflict := hconf
      floor_le := hfloor }

/-- What one checked push does. -/
theorem reducePush_cases (hc : Checks P s (.push p) issuerId epoch key policy now b o)
    (hred : r = reducePush b p o) :
    (pushSettled b p o = true ∧ r = b) ∨
      (pushSettled b p o = false ∧ pushContinues b o = false ∧
        r = retain b o false (pushFork b o) (pushGap b o)) ∨
      (pushSettled b p o = false ∧ pushContinues b o = true ∧
        r = acceptedPush (sighted b o false none) o) := by
  obtain ⟨hfork, hgap, -⟩ := hc.unmarked
  rw [reducePush_eq hc.sequence hfork hgap hc.sightingOk.sequence_pos] at hred
  cases hset : pushSettled b p o with
  | true =>
    rw [hset, if_pos rfl] at hred
    exact .inl ⟨rfl, hred⟩
  | false =>
    rw [hset, if_neg (by simp)] at hred
    right
    cases hcont : pushContinues b o with
    | true =>
      rw [hcont, if_pos rfl] at hred
      exact .inr ⟨rfl, rfl, hred⟩
    | false =>
      rw [hcont, if_neg (by simp)] at hred
      exact .inl ⟨rfl, rfl, hred⟩

/-! ## Fork marks and redelivered objects -/

theorem listFork_le {n : Int} (h : listFork b o = some n) : n = o.sequence := by
  unfold listFork at h
  split at h
  · exact (Option.some.inj h).symm
  · cases h

/-- A push forks at its own sequence or at one already observed. -/
theorem pushSightingFork_le (hb : WellFormed P b) (ho : SightingOk b o) {n : Int}
    (h : pushSightingFork b o = some n) : n ≤ max b.maxObservedSequence o.sequence := by
  have hspec := snapshotOmissionForPush_spec (sighted b o false
    (if sequenceConflict b.observations o then some o.sequence else none))
    o.statusKeyEpoch ho.sequence_pos
  unfold pushSightingFork at h
  dsimp only at h
  cases hom : snapshotOmissionForPush (sighted b o false
      (if sequenceConflict b.observations o then some o.sequence else none))
      o.statusKeyEpoch o with
  | none =>
    rw [hom, Option.none_or] at h
    split at h
    · rw [← Option.some.inj h]
      exact le_max_right _ _
    · cases h
  | some m =>
    rw [hom] at h hspec
    obtain rfl := Option.some.inj h
    refine le_trans ?_ (le_max_left _ _)
    rcases hspec.1 with ⟨snap, hsnap, -, rfl, -⟩ | ⟨-, a, ha, ⟨hep, -⟩, rfl⟩
    · exact (hb.floor.snapshot_le hsnap).trans hb.evidence.floor_le
    · exact (hb.evidence.observations a ha).observed (hep.trans ho.epoch)

theorem pushFork_le (hb : WellFormed P b) (ho : SightingOk b o) {n : Int}
    (h : pushFork b o = some n) : n ≤ max b.maxObservedSequence o.sequence := by
  unfold pushFork at h
  split at h
  · cases hf : pushSightingFork b o with
    | none =>
      rw [hf] at h
      rw [← Option.some.inj h]
      exact le_max_right _ _
    | some m =>
      rw [hf] at h
      rw [← Option.some.inj h]
      exact pushSightingFork_le hb ho hf
  · exact pushSightingFork_le hb ho h

/-- A retained observation that shares a digest with the sighting `o`. -/
def Recalls (a o : RevocationObservationV2) : Prop :=
  a.statusKeyEpoch = o.statusKeyEpoch ∧ a.objectType = o.objectType ∧
    a.sequence = o.sequence ∧ (a.evidenceDigest = o.evidenceDigest ∨
      a.revokedSetDigest = o.revokedSetDigest ∨
      (o.objectType = PUSH ∧ a.bodyDigest = o.bodyDigest))

theorem findObservation_some {obs : List RevocationObservationV2} {ty : Nat} {seq : Int}
    {digest : Bytes} {a : RevocationObservationV2}
    (h : findObservation obs epoch ty seq digest = some a) :
    a ∈ obs ∧ a.statusKeyEpoch = epoch ∧ a.objectType = ty ∧ a.sequence = seq ∧
      a.evidenceDigest = digest := by
  have hp := List.find?_some h
  have hm := List.mem_of_find?_eq_some h
  simp only [Bool.and_eq_true, beq_iff_eq] at hp
  exact ⟨List.mem_reverse.mp hm, hp.1.1.1, hp.1.1.2, hp.1.2, hp.2⟩

theorem redelivers_recalls (hc : Checks P s (.list l) issuerId epoch key policy now b o)
    {a : RevocationObservationV2} (h : redelivers b l o.evidenceDigest o = some a) :
    a ∈ b.observations ∧ Recalls a o := by
  obtain ⟨hm, h₁, h₂, h₃, h₄⟩ := findObservation_some h
  exact ⟨hm, h₁, h₂.trans hc.objectType.symm, h₃.trans hc.sequence.symm, .inl h₄⟩

/-- A settled list shares its digest or its revoked set with a retained one. -/
theorem listSettled_recalls (hc : Checks P s (.list l) issuerId epoch key policy now b o)
    {fresh : Bool} (h : listSettled P b l o.evidenceDigest o fresh
      (redelivers b l o.evidenceDigest o) = true) :
    ∃ a ∈ b.observations, Recalls a o := by
  cases hd : redelivers b l o.evidenceDigest o with
  | some a =>
    obtain ⟨hm, hr⟩ := redelivers_recalls hc hd
    exact ⟨a, hm, hr⟩
  | none =>
    rw [hd] at h
    cases hs : findSetObservation b.observations o with
    | none => simp [listSettled, hs] at h
    | some a =>
      have hp := List.find?_some hs
      simp only [Bool.and_eq_true, beq_iff_eq] at hp
      exact ⟨a, List.mem_reverse.mp (List.mem_of_find?_eq_some hs), hp.1.1.1, hp.1.1.2, hp.1.2,
        .inr (.inl hp.2)⟩

/-- A settled push shares its digest or its signed body with a retained one. -/
theorem pushSettled_recalls (hc : Checks P s (.push p) issuerId epoch key policy now b o)
    (h : pushSettled b p o = true) : ∃ a ∈ b.observations, Recalls a o := by
  rw [pushSettled, Bool.or_eq_true] at h
  rcases h with h | h
  · obtain ⟨a, ha⟩ := Option.isSome_iff_exists.mp h
    obtain ⟨hm, h₁, h₂, h₃, h₄⟩ := findObservation_some ha
    exact ⟨a, hm, h₁, h₂.trans hc.objectType.symm, h₃.trans hc.sequence.symm, .inl h₄⟩
  · obtain ⟨a, hm, ha⟩ := List.any_eq_true.mp h
    simp only [Bool.and_eq_true, beq_iff_eq] at ha
    exact ⟨a, hm, ha.1.1.1, ha.1.1.2.trans hc.objectType.symm, ha.1.2.trans hc.sequence.symm,
      .inr (.inr ⟨hc.objectType, ha.2⟩)⟩

/-- A push that is not settled has a body no retained push has. -/
theorem pushesDiffer_of_not_settled (hc : Checks P s (.push p) issuerId epoch key policy now b o)
    (h : pushSettled b p o = false) : ∀ a ∈ b.observations, PushesDiffer a o := by
  rintro a ha ⟨h₁, -, h₃, h₄, h₅⟩
  rw [pushSettled, Bool.or_eq_false_iff, List.any_eq_false] at h
  have hseq : a.sequence = p.sequence := h₄.trans hc.sequence
  have := h.2 a ha
  simp [h₁, h₃, hseq, h₅] at this

theorem pushesDiffer_of_list (hc : Checks P s (.list l) issuerId epoch key policy now b o) :
    ∀ a ∈ b.observations, PushesDiffer a o := by
  rintro a - ⟨-, h, -⟩
  rw [hc.objectType] at h
  exact absurd h (show ¬ LIST = PUSH by decide)

end Outcomes

end RatifyProtocol.V2
