import Mathlib.Data.Set.Function
import RatifyProtocol.V2.Status.Query
set_option autoImplicit false

/-!
# Status: the objects a reducer applies and what their digests determine

A list or a push is named by three digests: of its signed canonical text, of its
signed body and of its revoked set.  The reducer compares the digests only, so
what it may conclude rests on SHA-384 having no collision among the texts the run
actually hashes (`CollisionFree`).
-/

namespace RatifyProtocol.V2

open Foundation

/-- A signed status object. -/
inductive StatusObject
  | list (l : RevocationListV2)
  | push (p : RevocationPushV2)
  deriving DecidableEq, Repr

namespace StatusObject

variable (P : Primitives)

def objectType : StatusObject → Nat
  | list _ => LIST
  | push _ => PUSH

def sequence : StatusObject → Int
  | list l => l.sequence
  | push p => p.sequence

def refs : StatusObject → List RevokedCertV2
  | list l => l.revoked
  | push p => p.revoked

/-- The certificate IDs the object names. -/
def ids (x : StatusObject) : List String := revokedIds x.refs

def encode : StatusObject → V2Result Bytes
  | list l => encodeRevocationListV2 l
  | push p => encodeRevocationPushV2 p

def signable : StatusObject → V2Result Bytes
  | list l => revocationListV2SignableBytes l
  | push p => revocationPushV2SignableBytes p

def evidenceDigest : StatusObject → V2Result Bytes
  | list l => statusEvidenceDigestListV2 P l
  | push p => statusEvidenceDigestPushV2 P p

def setDigest (x : StatusObject) : V2Result Bytes := revokedSetDigest P x.refs

/-- The texts hashed for one object. -/
def hashInputs (x : StatusObject) : Set Bytes :=
  {b | (∃ e, x.encode = .ok e ∧ b = statusDigestInput x.objectType e) ∨ x.signable = .ok b ∨
    ∃ e, canonical (CJ.strs (sortedUnique x.ids)) = .ok e ∧ b = revokedSetInput e}

end StatusObject

/-- SHA-384 has no collision among the texts hashed for the objects of `H`. -/
def CollisionFree (P : Primitives) (H : Set StatusObject) : Prop :=
  Set.InjOn P.sha384 {b | ∃ x ∈ H, b ∈ x.hashInputs}

namespace CollisionFree

variable {P : Primitives} {H : Set StatusObject} {x y : StatusObject} {d : Bytes}

theorem mono {H' : Set StatusObject} (h : CollisionFree P H) (hsub : H' ⊆ H) :
    CollisionFree P H' := by
  refine Set.InjOn.mono ?_ h
  rintro b ⟨x, hx, hb⟩
  exact ⟨x, hsub hx, hb⟩

theorem evidenceDigest_eq_ok_iff :
    x.evidenceDigest P = .ok d ↔
      ∃ e, x.encode = .ok e ∧ d = P.sha384 (statusDigestInput x.objectType e) := by
  cases x with
  | list l =>
    simp only [StatusObject.evidenceDigest, statusEvidenceDigestListV2, bind_eq_ok_iff,
      StatusObject.encode, Except.ok.injEq, eq_comm (b := d)]
    rfl
  | push p =>
    simp only [StatusObject.evidenceDigest, statusEvidenceDigestPushV2, bind_eq_ok_iff,
      StatusObject.encode, Except.ok.injEq, eq_comm (b := d)]
    rfl

theorem setDigest_eq_ok_iff :
    x.setDigest P = .ok d ↔
      ∃ e, canonical (CJ.strs (sortedUnique x.ids)) = .ok e ∧ d = P.sha384 (revokedSetInput e) := by
  simp only [StatusObject.setDigest, revokedSetDigest, bind_eq_ok_iff, withContext_eq_ok_iff,
    Except.ok.injEq, eq_comm (b := d)]
  rfl

/-- The signed text determines the object. -/
theorem encode_injective {e : Bytes} (ht : x.objectType = y.objectType) (hx : x.encode = .ok e)
    (hy : y.encode = .ok e) : x = y := by
  cases x with
  | list l =>
    cases y with
    | list m => rw [encodeRevocationListV2_injective hx hy]
    | push q => exact absurd ht (show ¬ LIST = PUSH by decide)
  | push p =>
    cases y with
    | list m => exact absurd ht (show ¬ PUSH = LIST by decide)
    | push q => rw [encodeRevocationPushV2_injective hx hy]

theorem statusDigestInput_injective {code : Nat} {e e' : Bytes}
    (h : statusDigestInput code e = statusDigestInput code e') : e = e' := by
  simpa [statusDigestInput] using h

theorem revokedSetInput_injective {e e' : Bytes} (h : revokedSetInput e = revokedSetInput e') :
    e = e' := by
  simpa [revokedSetInput] using h

/-- Two objects of one type with one evidence digest are the same object. -/
theorem eq_of_evidenceDigest (h : CollisionFree P H) (hx : x ∈ H) (hy : y ∈ H)
    (ht : x.objectType = y.objectType) (hdx : x.evidenceDigest P = .ok d)
    (hdy : y.evidenceDigest P = .ok d) : x = y := by
  obtain ⟨e, he, hd⟩ := evidenceDigest_eq_ok_iff.mp hdx
  obtain ⟨e', he', hd'⟩ := evidenceDigest_eq_ok_iff.mp hdy
  have hin := h ⟨x, hx, .inl ⟨e, he, rfl⟩⟩ ⟨y, hy, .inl ⟨e', he', rfl⟩⟩ (hd.symm.trans hd')
  rw [ht] at hin
  obtain rfl := statusDigestInput_injective hin
  exact encode_injective ht he he'

/-- Two objects with one set digest name the same IDs. -/
theorem ids_of_setDigest (h : CollisionFree P H) (hx : x ∈ H) (hy : y ∈ H)
    (hdx : x.setDigest P = .ok d) (hdy : y.setDigest P = .ok d) :
    ∀ id, id ∈ x.ids ↔ id ∈ y.ids := by
  obtain ⟨e, he, hd⟩ := setDigest_eq_ok_iff.mp hdx
  obtain ⟨e', he', hd'⟩ := setDigest_eq_ok_iff.mp hdy
  have hin := h ⟨x, hx, .inr (.inr ⟨e, he, rfl⟩)⟩ ⟨y, hy, .inr (.inr ⟨e', he', rfl⟩)⟩
    (hd.symm.trans hd')
  obtain rfl := revokedSetInput_injective hin
  have hsorted := canonical_strs_injective he he'
  intro id
  rw [← mem_sortedUnique, hsorted, mem_sortedUnique]

/-- Two pushes with one body digest name the same IDs. -/
theorem ids_of_bodyDigest {p q : RevocationPushV2} {b b' : Bytes} (h : CollisionFree P H)
    (hp : .push p ∈ H) (hq : .push q ∈ H) (hbp : revocationPushV2SignableBytes p = .ok b)
    (hbq : revocationPushV2SignableBytes q = .ok b') (heq : P.sha384 b = P.sha384 b') :
    p.revoked = q.revoked := by
  obtain rfl := h ⟨_, hp, .inr (.inl hbp)⟩ ⟨_, hq, .inr (.inl hbq)⟩ heq
  exact (pushSignable_injective hbp hbq).2

end CollisionFree

end RatifyProtocol.V2
