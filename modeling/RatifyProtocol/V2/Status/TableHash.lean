import RatifyProtocol.V2.Accepting
import RatifyProtocol.V2.WireSize
import RatifyProtocol.V2.Status.Checks
set_option autoImplicit false

/-!
# Status: a hash without collisions on given objects

The run theorems assume that SHA-384 does not collide on the texts a run hashes.
`tabled objects` is a third-party part that satisfies this for any list of
objects: a text hashes to its position among their texts.  Its verification
accepts every signature of the registered lengths, so any well-formed body can be
signed.
-/

namespace RatifyProtocol.V2

open Foundation

/-! ## The hash -/

/-- The texts hashed for one object, as a list. -/
def StatusObject.hashTexts (x : StatusObject) : List Bytes :=
  (match x.encode with
    | .ok e => [statusDigestInput x.objectType e]
    | .error _ => []) ++
  (match x.signable with
    | .ok text => [text]
    | .error _ => []) ++
  match canonical (CJ.strs (sortedUnique x.ids)) with
    | .ok e => [revokedSetInput e]
    | .error _ => []

theorem StatusObject.mem_hashTexts {x : StatusObject} {b : Bytes} :
    b ∈ x.hashTexts ↔ b ∈ x.hashInputs := by
  unfold hashTexts hashInputs
  simp only [List.mem_append, Set.mem_ofPred_eq, or_assoc]
  refine or_congr ?_ (or_congr ?_ ?_)
  · cases x.encode <;> simp
  · cases x.signable <;> simp [eq_comm]
  · cases canonical (CJ.strs (sortedUnique x.ids)) <;> simp

theorem StatusObject.length_hashTexts_le (x : StatusObject) : x.hashTexts.length ≤ 3 := by
  unfold hashTexts
  cases x.encode <;> cases x.signable <;> cases canonical (CJ.strs (sortedUnique x.ids)) <;> simp

theorem length_paddedDigest (b : Bytes) :
    ((b.drop 17 ++ List.replicate 32 0).take 32).length = 32 := by
  simp

theorem length_tableDigest (texts : List Bytes) (b : Bytes) :
    (tableDigest texts b).length = 48 := by
  simp [tableDigest]

/-- Cryptography whose SHA-384 numbers the texts of `objects` and whose signatures
always verify.  The key hash is the Ed25519 part of the key. -/
def tabled (objects : List StatusObject) : Primitives where
  sha256 b := (b.drop 17 ++ List.replicate 32 0).take 32
  sha384 := tableDigest (objects.flatMap StatusObject.hashTexts)
  edPointOnCurve _ := true
  edPointPrimeOrder _ := true
  edKeyParses _ := true
  edSignatureParses _ := true
  edVerifyStrict _ _ _ := true
  mlKeyParses _ := true
  mlVerify _ _ _ _ := true
  length_sha256 := length_paddedDigest
  length_sha384 := length_tableDigest _

theorem collisionFree_tabled {objects : List StatusObject} (h : objects.length ≤ 20000) :
    CollisionFree (tabled objects) {x | x ∈ objects} := by
  have hlen : (objects.flatMap StatusObject.hashTexts).length ≤ 65536 := by
    have : (objects.flatMap StatusObject.hashTexts).length ≤ 3 * objects.length := by
      clear h
      induction objects with
      | nil => rfl
      | cons x xs ih =>
        have := x.length_hashTexts_le
        rw [List.flatMap_cons, List.length_append, List.length_cons]
        omega
    omega
  refine (tableDigest_injOn hlen).mono ?_
  rintro b ⟨x, hx, hb⟩
  exact List.mem_flatMap.mpr ⟨x, hx, StatusObject.mem_hashTexts.mpr hb⟩

/-! ## Keys and signatures -/

variable {objects : List StatusObject}

theorem accepting_tabled : Accepting (tabled objects) where
  sha256 _ := rfl
  edPointOnCurve _ := rfl
  edPointPrimeOrder _ := rfl
  edKeyParses _ := rfl
  edSignatureParses _ := rfl
  edVerifyStrict _ _ _ := rfl
  mlKeyParses _ := rfl
  mlVerify _ _ _ _ := rfl

theorem keyIdV2_tabled (n : UInt8) :
    keyIdV2 (tabled objects) (tabledKey n) = .ok (hexEncode (n :: List.replicate 31 0)) :=
  accepting_tabled.keyIdV2 n

/-- Every signable text verifies under every tabled key. -/
theorem verify_tabled (objectType : V2ObjectType) (text : Bytes) (n : UInt8) :
    verifyV2Statement (tabled objects) objectType text tabledSignature (tabledKey n)
      = .ok () :=
  accepting_tabled.verify objectType text n

/-! ## Signed objects -/

def tabledIssuer : String := hexEncode (0 :: List.replicate 31 0)

/-- A signed list of the tabled issuer. -/
def tabledList (updatedAt nextUpdate sequence : Int) (ids : List String) : RevocationListV2 where
  version := 2
  issuerId := tabledIssuer
  updatedAt := updatedAt
  nextUpdate := nextUpdate
  sequence := sequence
  revoked := ids.map RevokedCertV2.mk
  signature := tabledSignature

@[simp] theorem tabledList_revoked (updatedAt nextUpdate sequence : Int) (ids : List String) :
    (tabledList updatedAt nextUpdate sequence ids).revoked = ids.map RevokedCertV2.mk := rfl

/-- A signed push of the tabled issuer. -/
def tabledPush (pushedAt sequence : Int) (ids : List String) : RevocationPushV2 where
  version := 2
  issuerId := tabledIssuer
  sequence := sequence
  pushedAt := pushedAt
  revoked := ids.map RevokedCertV2.mk
  signature := tabledSignature

theorem validV2Id_tabledIssuer : validV2Id tabledIssuer = true :=
  validV2Id_of_keyIdV2 (tabled []) (keyIdV2_tabled 0)

@[simp] theorem revokedIds_mk (ids : List String) : revokedIds (ids.map RevokedCertV2.mk) = ids := by
  simp [revokedIds, Function.comp_def]

/-- Identifiers any list may name. -/
structure NamableIds (ids : List String) : Prop where
  nodup : ids.Nodup
  nonempty : ∀ id ∈ ids, id ≠ ""
  bounded : ∀ id ∈ ids, (utf8 id).length ≤ maxIdentifierLengthBytes

theorem NamableIds.refs {ids : List String} (h : NamableIds ids) :
    RefsWellFormed (ids.map RevokedCertV2.mk) := by
  refine ⟨?_, ?_, ?_⟩ <;> rw [revokedIds_mk]
  · exact h.nodup
  · exact h.nonempty
  · exact h.bounded

/-- Identifiers that differ in their first character. -/
theorem namableIds_numbered {n : Nat} {tail : List Char} (hn : n ≤ 10000)
    (htail : (utf8Chars tail).length ≤ 508) :
    NamableIds ((List.range n).map fun i => String.ofList (Char.ofNat (i + 1000) :: tail)) := by
  refine ⟨?_, ?_, ?_⟩
  · refine List.Nodup.map_on ?_ List.nodup_range
    intro i hi j hj heq
    have hchar := (List.cons.inj (String.ofList_injective heq)).1
    have hval : ∀ k : Nat, k < 10000 → (Char.ofNat (k + 1000)).toNat = k + 1000 := by
      intro k hk
      have : (k + 1000).isValidChar := .inl (by omega)
      rw [Char.ofNat, dif_pos this]
      rfl
    have hi' := hval i ((List.mem_range.mp hi).trans_le hn)
    have hj' := hval j ((List.mem_range.mp hj).trans_le hn)
    rw [hchar] at hi'
    omega
  · intro id hid
    obtain ⟨i, -, rfl⟩ := List.mem_map.mp hid
    intro he
    have := congrArg String.toList he
    rw [String.toList_ofList] at this
    exact List.cons_ne_nil _ _ this
  · intro id hid
    obtain ⟨i, -, rfl⟩ := List.mem_map.mp hid
    rw [utf8_ofList, utf8Chars_cons, List.length_append, String.length_utf8EncodeChar]
    have := (Char.ofNat (i + 1000)).utf8Size_le_four
    rw [maxIdentifierLengthBytes]
    omega

theorem listWellFormed_tabled {updatedAt nextUpdate sequence : Int} {ids : List String}
    (hpos : 0 < sequence) (hle : sequence ≤ maxSafe) (hup : 0 ≤ updatedAt)
    (hord : updatedAt < nextUpdate) (hnext : nextUpdate ≤ v2MaxTimestampSeconds)
    (hcount : ids.length ≤ maxRevocationListRefsV2) (hids : NamableIds ids) :
    ListWellFormed (tabledList updatedAt nextUpdate sequence ids) where
  version := rfl
  issuer := validV2Id_tabledIssuer
  sequence_pos := hpos
  sequence_le := hle
  updatedAt := ⟨hup, hord.le.trans hnext⟩
  nextUpdate := ⟨hup.trans hord.le, hnext⟩
  ordered := hord
  count := by rw [tabledList, List.length_map]; exact hcount
  refs := hids.refs

/-- A well-formed tabled list verifies under every tabled key. -/
theorem verify_tabledList {updatedAt nextUpdate sequence : Int} {ids : List String}
    (h : ListWellFormed (tabledList updatedAt nextUpdate sequence ids)) (n : UInt8) :
    (StatusObject.list (tabledList updatedAt nextUpdate sequence ids)).verify (tabled objects)
      tabledIssuer (tabledKey n) = .ok () := by
  obtain ⟨text, htext⟩ := (wireValue_listCj h false).exists_canonical
  refine StatusObject.verify_eq_ok_iff.mpr ⟨rfl, text, ?_, verify_tabled _ _ _⟩
  simp only [StatusObject.signable, revocationListV2SignableBytes,
    validateRevocationListV2_eq_ok_iff.mpr h, ok_bind, htext]

end RatifyProtocol.V2
