import Mathlib.Data.List.ModifyLast
import RatifyProtocol.V2.WireCodec
set_option autoImplicit false

/-!
# V2: cryptography that accepts

Concrete third-party parts for results that assume something of the hash: every
signature of the registered lengths verifies, so any well-formed body can be
signed, and the key hash is the Ed25519 part of the key.  SHA-384 is left open;
`tableDigest` is one without collisions on the texts of a table.
-/

namespace RatifyProtocol.V2

open Foundation

/-! ## A hash by position -/

/-- The position of a text in a table, in two bytes of forty-eight. -/
def tableDigest (table : List Bytes) (b : Bytes) : Bytes :=
  UInt8.ofNat (table.idxOf b / 256) :: UInt8.ofNat (table.idxOf b % 256) :: List.replicate 46 0

theorem tableDigest_injOn {table : List Bytes} (h : table.length ≤ 65536) :
    Set.InjOn (tableDigest table) {b | b ∈ table} := by
  intro a ha b hb heq
  have hia := List.idxOf_lt_length_of_mem ha
  have hib := List.idxOf_lt_length_of_mem hb
  simp only [tableDigest, List.cons.injEq, and_true] at heq
  have h₁ := congrArg UInt8.toNat heq.1
  have h₂ := congrArg UInt8.toNat heq.2
  simp only [UInt8.toNat_ofNat'] at h₁ h₂
  exact (List.idxOf_inj ha).mp (by omega)

/-- What is put at the end of a table leaves the positions before it. -/
theorem tableDigest_append {table : List Bytes} (rest : List Bytes) {b : Bytes} (h : b ∈ table) :
    tableDigest (table ++ rest) b = tableDigest table b := by
  rw [tableDigest, List.idxOf_append_of_mem h, tableDigest]

/-- Behind the empty text every text has a position other than zero. -/
theorem tableDigest_ne_zero {table : List Bytes} (hlen : table.length ≤ 65534) {b : Bytes}
    (hb : b ≠ []) : tableDigest ([] :: table) b ≠ List.replicate 48 0 := by
  intro hzero
  have hindex : ([] :: table).idxOf b = table.idxOf b + 1 := List.idxOf_cons_ne _ hb.symm
  have hle : table.idxOf b ≤ table.length := List.idxOf_le_length
  have hreplicate : List.replicate 48 (0 : UInt8) = 0 :: 0 :: List.replicate 46 0 := rfl
  rw [tableDigest, hindex, hreplicate] at hzero
  simp only [List.cons.injEq, and_true] at hzero
  have h₁ := congrArg UInt8.toNat hzero.1
  have h₂ := congrArg UInt8.toNat hzero.2
  simp only [UInt8.toNat_ofNat', UInt8.toNat_zero] at h₁ h₂
  omega

theorem tableDigest_nil (b : Bytes) : tableDigest [] b = List.replicate 48 0 := by
  rw [tableDigest, List.idxOf_nil]
  decide

/-! ## Keys and signatures -/

/-- Every key and signature is accepted. -/
structure Accepting (P : Primitives) : Prop where
  sha256 : ∀ b, P.sha256 b = (b.drop 17 ++ List.replicate 32 0).take 32
  edPointOnCurve : ∀ b, P.edPointOnCurve b = true
  edPointPrimeOrder : ∀ b, P.edPointPrimeOrder b = true
  edKeyParses : ∀ b, P.edKeyParses b = true
  edSignatureParses : ∀ b, P.edSignatureParses b = true
  edVerifyStrict : ∀ k m s, P.edVerifyStrict k m s = true
  mlKeyParses : ∀ b, P.mlKeyParses b = true
  mlVerify : ∀ k m s c, P.mlVerify k m s c = true

/-- A key of the registered lengths, one for each first byte. -/
def tabledKey (n : UInt8) : HybridPublicKey where
  ed25519 := n :: List.replicate 31 0
  mlDsa65 := List.replicate 1952 0

def tabledSignature : HybridSignature where
  ed25519 := List.replicate 64 0
  mlDsa65 := List.replicate 3309 0

theorem signatureLengths_tabled : SignatureLengths tabledSignature :=
  ⟨List.length_replicate, List.length_replicate⟩

/-- The most significant byte decides. -/
theorem littleEndianGe_of_last_lt {a b : Bytes} {x y : UInt8} (h : x < y) :
    littleEndianGe (a ++ [x]) (b ++ [y]) = false := by
  have hlt : (x :: a.reverse) < (y :: b.reverse) := List.cons_lt_cons_iff.mpr (.inl h)
  simp [littleEndianGe, hlt]

namespace Accepting

variable {P : Primitives}

theorem keyIdV2 (h : Accepting P) (n : UInt8) :
    keyIdV2 P (tabledKey n) = .ok (hexEncode (n :: List.replicate 31 0)) := by
  have h₁ : (tabledKey n).ed25519.length = 32 := rfl
  have h₂ : (tabledKey n).mlDsa65.length = mlDsaPkLen := List.length_replicate
  have hseventeen : (utf8 "ratify-key-id-v2\x00").length = 17 := by decide
  have hsha : P.sha256 (utf8 "ratify-key-id-v2\x00" ++ (tabledKey n).ed25519
      ++ (tabledKey n).mlDsa65) = (tabledKey n).ed25519 := by
    rw [h.sha256, List.append_assoc, List.drop_left' hseventeen, List.append_assoc,
      List.take_left' h₁]
  simp only [V2.keyIdV2, h₁, h₂, hsha, ne_eq, not_true_eq_false, ↓reduceIte]
  rfl

theorem validateEdPublicKey (h : Accepting P) {encoded : Bytes} (hlen : encoded.length = 32)
    (hlow : littleEndianGe (encoded.modifyLast (· &&& 0x7f)) fieldModulusLe = false) :
    validateEdPublicKey P encoded = .ok () := by
  simp [V2.validateEdPublicKey, hlen, hlow, h.edPointOnCurve, h.edPointPrimeOrder]

/-- Every signable text verifies under every tabled key. -/
theorem verify (h : Accepting P) (objectType : V2ObjectType) (text : Bytes) (n : UInt8) :
    verifyV2Statement P objectType text tabledSignature (tabledKey n) = .ok () := by
  have hkey : V2.validateEdPublicKey P (tabledKey n).ed25519 = .ok () := by
    refine h.validateEdPublicKey rfl ?_
    have hlast : (tabledKey n).ed25519 = (n :: List.replicate 30 0) ++ [0] := rfl
    rw [hlast, List.modifyLast_concat]
    exact littleEndianGe_of_last_lt (by decide)
  have hsig : validateEdSignature P tabledSignature.ed25519 = .ok () := by
    have hr : V2.validateEdPublicKey P (tabledSignature.ed25519.take 32) = .ok () :=
      h.validateEdPublicKey rfl (by decide)
    have hs : littleEndianGe (tabledSignature.ed25519.drop 32) ed25519OrderLe = false := by decide
    have hlen : tabledSignature.ed25519.length = 64 := List.length_replicate
    simp only [validateEdSignature, hlen, hr, hs, ne_eq, not_true_eq_false, Bool.false_eq_true,
      ↓reduceIte]
  have hprelude : signaturePrefix.length = 27 := by decide
  have hcode : (u16BeBytes objectType.code).length = 2 := rfl
  have hmsg : (v2SigningMessage P objectType text).length = 77 := by
    simp only [v2SigningMessage, List.length_append, hprelude, hcode, Primitives.length_sha384]
  have hpre : signaturePrefix.isPrefixOf (v2SigningMessage P objectType text) = true := by
    rw [List.isPrefixOf_iff_prefix, v2SigningMessage, List.append_assoc]
    exact List.prefix_append _ _
  have htype : ((v2SigningMessage P objectType text).drop signaturePrefix.length).take 2
      = u16BeBytes objectType.code := by
    rw [v2SigningMessage, List.append_assoc, List.drop_left' rfl, List.take_left' hcode]
  have h₁ : (tabledKey n).ed25519.length = 32 := rfl
  have h₂ : (tabledKey n).mlDsa65.length = mlDsaPkLen := List.length_replicate
  have h₃ : tabledSignature.ed25519.length = 64 := List.length_replicate
  have h₄ : tabledSignature.mlDsa65.length = mlDsaSigLen := List.length_replicate
  simp only [verifyV2Statement, verifyMessageUnclassified, hmsg, hpre, htype, h₁, h₂, h₃, h₄, hkey,
    hsig, ok_bind]
  simp [h.edKeyParses, h.edSignatureParses, h.edVerifyStrict, h.mlKeyParses, h.mlVerify,
    Except.mapError]

end Accepting

/-- Cryptography that accepts, with the positions in a table as SHA-384. -/
def counting (table : List Bytes) : Primitives where
  sha256 b := (b.drop 17 ++ List.replicate 32 0).take 32
  sha384 := tableDigest table
  edPointOnCurve _ := true
  edPointPrimeOrder _ := true
  edKeyParses _ := true
  edSignatureParses _ := true
  edVerifyStrict _ _ _ := true
  mlKeyParses _ := true
  mlVerify _ _ _ _ := true
  length_sha256 b := by simp
  length_sha384 b := by simp [tableDigest]

theorem accepting_counting (table : List Bytes) : Accepting (counting table) where
  sha256 _ := rfl
  edPointOnCurve _ := rfl
  edPointPrimeOrder _ := rfl
  edKeyParses _ := rfl
  edSignatureParses _ := rfl
  edVerifyStrict _ _ _ := rfl
  mlKeyParses _ := rfl
  mlVerify _ _ _ _ := rfl

end RatifyProtocol.V2
