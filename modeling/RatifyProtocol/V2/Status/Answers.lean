import RatifyProtocol.V2.Status.Gaps
set_option autoImplicit false

/-!
# Status: what an answer says about the run

`notRevoked_iff` reads the conditions of a `not_revoked` answer off the query;
the run theorems then turn them into statements about the objects delivered.
-/

namespace RatifyProtocol.V2

open Foundation

variable {P : Primitives} {policy : RevocationStatusPolicyV2}
  {s t : RevocationStatusStateV2} {issuerId certId keyId : String} {epoch : Nat}
  {key : HybridPublicKey} {now : Int} {result : RevocationStatusResultV2}

/-! ## The query -/

/-- The conditions under which a state answers `not_revoked` for a certificate. -/
structure AnswersNotRevoked (s : RevocationStatusStateV2) (certId : String)
    (policy : RevocationStatusPolicyV2) (now : Int) (snap : RevocationListV2) : Prop where
  notDenied : certId ∉ s.denyUnionCertIds
  hasFloor : s.hasFloor = true
  snapshot : s.acceptedSnapshot = some snap
  reconciled : s.reconciliationRequired = false
  notFuture : s.futureDatedObjectObserved = false
  floor_max : s.maxObservedSequence ≤ s.floor
  covered : ∀ id ∈ s.denyUnionCertIds, id ∈ s.acceptedCertIds
  fresh : listFresh snap policy now = true

theorem listFresh_iff {l : RevocationListV2} :
    listFresh l policy now = true ↔
      policy.maxListLifetimeSeconds ≠ 0 ∧ policy.maxStatusAgeSeconds ≠ 0 ∧
        l.nextUpdate - l.updatedAt ≤ policy.maxListLifetimeSeconds ∧
        beyondSkew l.updatedAt now policy.clockSkewSeconds = false ∧ now < l.nextUpdate ∧
        (now < l.updatedAt ∨ now - l.updatedAt < policy.maxStatusAgeSeconds) := by
  simp only [listFresh, Bool.if_false_left, Bool.and_eq_true, Bool.not_eq_true',
    Bool.or_eq_true, decide_eq_true_eq, beq_iff_eq, decide_eq_false_iff_not, not_or, not_lt,
    not_le, Bool.not_eq_true, ge_iff_le, gt_iff_lt, and_assoc, ne_eq]

theorem statusUnavailable_eq_false_iff :
    statusUnavailable s policy = false ↔
      s.hasFloor = true ∧ s.acceptedSnapshot.isSome = true ∧ policy.maxListLifetimeSeconds ≠ 0 ∧
        policy.maxStatusAgeSeconds ≠ 0 ∧ s.futureDatedObjectObserved = false ∧
        s.reconciliationRequired = false ∧ s.maxObservedSequence ≤ s.floor ∧
        ∀ id ∈ s.denyUnionCertIds, id ∈ s.acceptedCertIds := by
  simp only [statusUnavailable, Bool.or_eq_false_iff, Bool.not_eq_false', beq_eq_false_iff_ne,
    decide_eq_false_iff_not, not_lt, containsAll_iff, and_assoc, Option.isNone_eq_false_iff]

/-- The answer is `not_revoked` exactly under `AnswersNotRevoked`. -/
theorem answerForCert_notRevoked_iff :
    (answerForCert P s issuerId certId keyId policy now).status = .notRevoked ↔
      ∃ snap, AnswersNotRevoked s certId policy now snap := by
  unfold answerForCert
  by_cases hden : containsAll s.denyUnionCertIds [certId] = true
  · rw [if_pos hden]
    refine iff_of_false (by simp) ?_
    rintro ⟨snap, h⟩
    exact h.notDenied (containsAll_iff.mp hden certId (by simp))
  rw [if_neg hden]
  have hnot : certId ∉ s.denyUnionCertIds := by
    intro hmem
    exact hden (containsAll_iff.mpr (by simpa using hmem))
  cases hun : statusUnavailable s policy with
  | true =>
    refine iff_of_false (by simp) ?_
    rintro ⟨snap, h⟩
    obtain ⟨h₁, h₂, -⟩ := listFresh_iff.mp h.fresh
    have hav := statusUnavailable_eq_false_iff.mpr ⟨h.hasFloor, by simp [h.snapshot], h₁, h₂,
      h.notFuture, h.reconciled, h.floor_max, h.covered⟩
    rw [hun] at hav
    cases hav
  | false =>
    obtain ⟨h₁, h₂, -, -, h₅, h₆, h₇, h₈⟩ := statusUnavailable_eq_false_iff.mp hun
    obtain ⟨snap, hsnap⟩ := Option.isSome_iff_exists.mp h₂
    simp only [Bool.false_eq_true, ↓reduceIte, hsnap]
    cases hf : listFresh snap policy now with
    | true =>
      refine iff_of_true (by simp) ?_
      exact ⟨snap, hnot, h₁, hsnap, h₆, h₅, h₇, h₈, hf⟩
    | false =>
      refine iff_of_false (by simp) ?_
      rintro ⟨snap', h⟩
      obtain rfl := Option.some.inj (hsnap.symm.trans h.snapshot)
      rw [h.fresh] at hf
      cases hf

/-- The bound a `not_revoked` answer carries. -/
theorem freshUntil_of_answers (issuerId keyId : String) {snap : RevocationListV2}
    (h : AnswersNotRevoked s certId policy now snap) :
    (answerForCert P s issuerId certId keyId policy now).freshUntil
      = min snap.nextUpdate (snap.updatedAt + policy.maxStatusAgeSeconds) := by
  obtain ⟨h₁, h₂, -⟩ := listFresh_iff.mp h.fresh
  have hden : ¬ containsAll s.denyUnionCertIds [certId] = true := by
    intro hc
    exact h.notDenied (containsAll_iff.mp hc certId (by simp))
  have hav := statusUnavailable_eq_false_iff.mpr ⟨h.hasFloor, by simp [h.snapshot], h₁, h₂,
    h.notFuture, h.reconciled, h.floor_max, h.covered⟩
  simp only [answerForCert, if_neg hden, hav, h.snapshot, h.fresh, Bool.false_eq_true,
    ↓reduceIte, Bool.not_true]

/-- A certificate in the deny union is answered `revoked`. -/
theorem answerForCert_of_denied (h : certId ∈ s.denyUnionCertIds) :
    (answerForCert P s issuerId certId keyId policy now).status = .revoked := by
  have hden : containsAll s.denyUnionCertIds [certId] = true := by
    rw [containsAll_iff]
    simpa using h
  simp [answerForCert, hden]

/-- Exactly when a query succeeds, and its result. -/
theorem revocationStatusForCertV2_eq_ok_iff :
    revocationStatusForCertV2 P s issuerId certId epoch key policy now = .ok result ↔
      validatePolicy policy = .ok () ∧ validateBinding s issuerId epoch = .ok () ∧
        validateAcceptedState P s = .ok () ∧ certId ≠ "" ∧ validV2Timestamp now = true ∧
        s.issuerId = issuerId ∧ s.statusKeyEpoch = epoch ∧ keyIdV2 P key = .ok s.statusKeyId ∧
        (∀ snap, s.acceptedSnapshot = some snap →
          verifyRevocationListV2Signature P snap issuerId key = .ok ()) ∧
        result = answerForCert P s issuerId certId s.statusKeyId policy now := by
  simp only [revocationStatusForCertV2, revocationStatusForCertInner, classify_eq_ok_iff,
    bind_eq_ok_iff, refuseIf_eq_ok_iff, Bool.or_eq_false_iff, beq_eq_false_iff_ne,
    bne_eq_false_iff_eq, Bool.not_eq_false', keyIdPlain_eq_ok_iff]
  constructor
  · rintro ⟨_, h₁, _, h₂, _, h₃, _, ⟨h₄, h₅⟩, k, hk, _, ⟨⟨h₆, h₇⟩, rfl⟩, h₈⟩
    have hsnap : (∀ snap, s.acceptedSnapshot = some snap →
          verifyRevocationListV2Signature P snap issuerId key = .ok ())
        ∧ result = answerForCert P s issuerId certId s.statusKeyId policy now := by
      cases hs : s.acceptedSnapshot with
      | none =>
        rw [hs] at h₈
        refine ⟨fun snap h => ?_, (Except.ok.inj h₈).symm⟩
        cases h
      | some snap =>
        rw [hs] at h₈
        obtain ⟨_, hv, hr⟩ := bind_eq_ok_iff.mp h₈
        refine ⟨fun snap' h => ?_, (Except.ok.inj hr).symm⟩
        obtain rfl := Option.some.inj h
        exact withContext_eq_ok_iff.mp hv
    exact ⟨h₁, h₂, h₃, h₄, h₅, h₆, h₇, hk, hsnap⟩
  · rintro ⟨h₁, h₂, h₃, h₄, h₅, h₆, h₇, hk, h₈, rfl⟩
    refine ⟨(), h₁, (), h₂, (), h₃, (), ⟨h₄, h₅⟩, _, hk, (), ⟨⟨h₆, h₇⟩, rfl⟩, ?_⟩
    cases hs : s.acceptedSnapshot with
    | none => rfl
    | some snap => exact bind_eq_ok_iff.mpr ⟨(), withContext_eq_ok_iff.mpr (h₈ snap hs), rfl⟩

/-! ## Revocation is permanent -/

/-- The deny union of a reachable state is the sorted union of what was delivered. -/
theorem denyUnion_eq {is : List StatusStep} (hrun : StatusRun P policy is s)
    (hfree : CollisionFree P (objectsOf (deliveries is))) :
    s.denyUnionCertIds
      = sortedUnique ((deliveries is).flatMap fun d => d.object.ids) := by
  obtain ⟨hs, hh⟩ := reachable_keeps hrun hfree
  rw [← hs.evidence.deny_sorted]
  refine sortedUnique_congr fun id => ?_
  rw [hh.denied, List.mem_flatMap]

/-- An ID any delivered object named is never answered `not_revoked`, and the deny
union depends only on which objects were delivered. -/
theorem revocation_permanent_and_order_blind {is : List StatusStep}
    (hrun : StatusRun P policy is s) (hfree : CollisionFree P (objectsOf (deliveries is))) :
    (∀ d ∈ deliveries is, ∀ id ∈ d.object.ids, ∀ issuerId epoch key policy' now result,
      revocationStatusForCertV2 P s issuerId id epoch key policy' now = .ok result →
        result.status ≠ .notRevoked) ∧
      ∀ policy' js t, StatusRun P policy' js t → objectsOf (deliveries js) = objectsOf (deliveries is) →
        t.denyUnionCertIds = s.denyUnionCertIds := by
  obtain ⟨hs, hh⟩ := reachable_keeps hrun hfree
  refine ⟨?_, ?_⟩
  · intro d hd id hid issuerId epoch key policy' now result hq
    obtain ⟨-, -, -, -, -, -, -, -, -, rfl⟩ := revocationStatusForCertV2_eq_ok_iff.mp hq
    rw [answerForCert_of_denied ((hh.denied id).mpr ⟨d, hd, hid⟩)]
    simp
  · intro policy' js t hrun' hobj
    obtain ⟨ht, hh'⟩ := reachable_keeps hrun' (hobj ▸ hfree)
    rw [← hs.evidence.deny_sorted, ← ht.evidence.deny_sorted]
    refine sortedUnique_congr fun id => ?_
    have hin : ∀ H : List Delivery, (∃ d ∈ H, id ∈ d.object.ids) ↔
        ∃ x ∈ objectsOf H, id ∈ x.ids := by
      intro H
      constructor
      · rintro ⟨d, hd, hid⟩
        exact ⟨d.object, ⟨d, hd, rfl⟩, hid⟩
      · rintro ⟨x, ⟨d, hd, rfl⟩, hid⟩
        exact ⟨d, hd, hid⟩
    rw [hh.denied, hh'.denied, hin, hin, hobj]

/-- After two lists, one of which names `"a"`, no query reports it `not_revoked`, and
delivering one of them again leaves the deny union. -/
theorem revocation_permanent_gaps :
    ∃ P s t, StatusRun P ⟨20, 10, 3⟩ gapRun s ∧
      StatusRun P ⟨20, 10, 3⟩ (gapRun ++ [.deliver (sends earlyList 100)]) t ∧
      GapsLeft P s ∧ s.denyUnionCertIds = ["a"] ∧ t.denyUnionCertIds = s.denyUnionCertIds ∧
      ∀ issuerId epoch key policy' now result,
        revocationStatusForCertV2 P s issuerId "a" epoch key policy' now = .ok result →
          result.status ≠ .notRevoked := by
  obtain ⟨s, hrun, hs⟩ := exists_run_gaps collisionFree_gapRun
  obtain ⟨b, o, hc⟩ : ∃ b o, (sends earlyList 100).Checks _ ⟨20, 10, 3⟩ s b o :=
    exists_checks_sends (.inl rfl) rfl fun _ => hs.bound
  obtain ⟨t, happ⟩ := hc.applies hs.wellFormed
  have hagain : StatusRun _ ⟨20, 10, 3⟩ (gapRun ++ [.deliver (sends earlyList 100)]) t :=
    Run.snoc hrun happ
  have hobjects : objectsOf (deliveries (gapRun ++ [.deliver (sends earlyList 100)]))
      = objectsOf (deliveries gapRun) := by
    ext x
    simp [objectsOf, deliveries, gapRun, sends, or_comm]
  obtain ⟨hpermanent, hblind⟩ := revocation_permanent_and_order_blind hrun collisionFree_gapRun
  refine ⟨_, s, t, hrun, hagain, hs, ?_, hblind _ _ t hagain hobjects,
    hpermanent (sends olderList 200) (by simp [deliveries, gapRun]) "a" (by decide)⟩
  rw [denyUnion_eq hrun collisionFree_gapRun]
  decide

end RatifyProtocol.V2
