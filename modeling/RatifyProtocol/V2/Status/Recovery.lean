import RatifyProtocol.V2.Status.Answers
set_option autoImplicit false

/-!
# Status: recovery

Whatever a reachable state has recorded, a fresh list beyond everything observed
that names everything denied is accepted and settles the state.
-/

namespace RatifyProtocol.V2

open Foundation

variable {P : Primitives} {policy : RevocationStatusPolicyV2}
  {s t b r : RevocationStatusStateV2} {o : RevocationObservationV2} {l : RevocationListV2}
  {issuerId : String} {epoch : Nat} {key : HybridPublicKey} {now : Int}

/-- A settled state answers `not_revoked` for every other certificate while its list is fresh. -/
theorem query_settled (policy : RevocationStatusPolicyV2) (now : Int) (certId : String)
    {t : RevocationStatusStateV2} (ht : WellFormed P t) (h : Settled t l)
    (hkey : keyIdV2 P key = .ok t.statusKeyId) (hbound : t.issuerId ≠ "")
    (hver : verifyRevocationListV2Signature P l t.issuerId key = .ok ())
    (hpol : validatePolicy policy = .ok ()) (hnow : validV2Timestamp now = true)
    (hfresh : listFresh l policy now = true) (hne : certId ≠ "")
    (hout : certId ∉ revokedIds l.revoked) :
    ∃ result, revocationStatusForCertV2 P t t.issuerId certId t.statusKeyEpoch key policy now
      = .ok result ∧ result.status = .notRevoked := by
  have hfork : ForkMarked t := by
    intro hpos
    rw [h.noFork] at hpos
    exact absurd hpos (lt_irrefl _)
  have hbind : validateBinding t t.issuerId t.statusKeyEpoch = .ok () :=
    ht.validateBinding_iff.mpr ⟨fun _ => ⟨rfl, rfl⟩, ht.binding.epoch_pos hbound,
      ht.binding.epoch_le⟩
  refine ⟨_, revocationStatusForCertV2_eq_ok_iff.mpr ⟨hpol, hbind,
    validateAcceptedState_of_wellFormed P ht hfork, hne, hnow, rfl, rfl, hkey, ?_, rfl⟩, ?_⟩
  · intro snap hsnap
    obtain rfl := Option.some.inj (h.snapshot.symm.trans hsnap)
    exact hver
  · refine answerForCert_notRevoked_iff.mpr ⟨l, ?_⟩
    exact
      { notDenied := fun hid => hout ((h.denied certId).mp hid)
        hasFloor := h.hasFloor
        snapshot := h.snapshot
        reconciled := h.reconciled
        notFuture := h.notFuture
        floor_max := by rw [h.observed, h.floor]
        covered := fun id hid => (h.accepted id).mpr ((h.denied id).mp hid)
        fresh := hfresh }

/-- From every reachable state, a deliverable list that covers it settles it. -/
theorem covering_list_recovers {is : List StatusStep} (hrun : StatusRun P policy is s)
    (hfree : CollisionFree P (objectsOf (deliveries is)))
    (hpol : validatePolicy policy = .ok ()) (hnow : validV2Timestamp now = true)
    (hd : Deliverable P s (.list l) issuerId epoch key) (hcov : Covers s l policy now) :
    ∃ t, applyRevocationListV2 P s l issuerId epoch key policy now = .ok t ∧
      t.hasFloor = true ∧ t.floor = l.sequence ∧ t.acceptedSnapshot = some l ∧
      t.reconciliationRequired = false ∧ t.futureDatedObjectObserved = false ∧
      t.forkSequence = 0 ∧
      ∀ certId, certId ≠ "" → certId ∉ revokedIds l.revoked →
        ∀ time, validV2Timestamp time = true → listFresh l policy time = true →
          ∃ result, revocationStatusForCertV2 P t issuerId certId epoch key policy time
            = .ok result ∧ result.status = .notRevoked := by
  obtain ⟨hs, -⟩ := reachable_keeps hrun hfree
  obtain ⟨t, happ, ht, hset, hne, rfl, rfl, hkey⟩ := apply_covering_list hs hd hpol hnow hcov
  refine ⟨t, happ, hset.hasFloor, hset.floor, hset.snapshot, hset.reconciled, hset.notFuture,
    hset.noFork, fun certId hc hout time htime hfresh => ?_⟩
  exact query_settled policy time certId ht hset hkey hne hd.verified hpol htime hfresh hc hout

/-- A third list settles what two lists left open. -/
theorem covering_list_recovers_gaps :
    ∃ (P : Primitives) (s t : RevocationStatusStateV2) (result : RevocationStatusResultV2),
      StatusRun P ⟨20, 10, 3⟩ gapRun s ∧ GapsLeft P s ∧
      applyRevocationListV2 P s (tabledList 210 230 3 ["a", "b"]) tabledIssuer 1 (tabledKey 1)
        ⟨20, 10, 3⟩ 210 = .ok t ∧ t.floor = 3 ∧ t.reconciliationRequired = false ∧
      revocationStatusForCertV2 P t tabledIssuer "c" 1 (tabledKey 1) ⟨20, 10, 3⟩ 212
        = .ok result ∧ result.status = .notRevoked := by
  have hwf : ListWellFormed (tabledList 210 230 3 ["a", "b"]) :=
    listWellFormed_tabled (by decide) (by decide) (by decide) (by decide) (by decide) (by decide)
      ⟨by decide, by decide, by decide⟩
  obtain ⟨s, hrun, hs⟩ := exists_run_gaps collisionFree_gapRun
  have hcov : Covers s (tabledList 210 230 3 ["a", "b"]) ⟨20, 10, 3⟩ 210 := by
    refine ⟨rfl, by rw [hs.observed]; decide, fun id hid => ?_⟩
    rw [denyUnion_eq hrun collisionFree_gapRun] at hid
    obtain rfl := List.mem_singleton.mp (show id ∈ ["a"] from hid)
    change "a" ∈ revokedIds (["a", "b"].map RevokedCertV2.mk)
    rw [revokedIds_mk]
    simp
  obtain ⟨t, happ, -, hfloor, -, hreconciled, -, -, hquery⟩ := covering_list_recovers hrun
    collisionFree_gapRun rfl rfl
    (deliverable_tabledList hwf (by decide) (by decide) (by decide) fun _ =>
      ⟨hs.bound.issuer.symm, hs.bound.epoch.symm, hs.bound.key⟩) hcov
  obtain ⟨result, hq, hstatus⟩ := hquery "c" (by decide) (by decide) 212 rfl rfl
  exact ⟨_, s, t, result, hrun, hs, happ, hfloor, hreconciled, hq, hstatus⟩

/-! ## A list too long for the wire -/

/-- Ten thousand identifiers of 451 characters. -/
def longIds : List String :=
  (List.range 10000).map fun i => String.ofList (Char.ofNat (i + 1000) :: List.replicate 450 'a')

theorem length_longIds : longIds.length = 10000 := by
  rw [longIds, List.length_map, List.length_range]

theorem namableIds_longIds : NamableIds longIds :=
  namableIds_numbered (Nat.le_refl _) (by rw [length_utf8Chars_replicate]; omega)

theorem sum_length_longIds :
    ((longIds.map RevokedCertV2.mk).map fun r => r.certId.toList.length).sum = 4510000 := by
  have hone : (longIds.map RevokedCertV2.mk).map (fun r => r.certId.toList.length)
      = List.replicate 10000 451 := by
    rw [List.eq_replicate_iff]
    refine ⟨by rw [List.length_map, List.length_map, length_longIds], ?_⟩
    intro n hn
    simp only [longIds, List.map_map, List.mem_map, Function.comp_apply] at hn
    obtain ⟨i, -, rfl⟩ := hn
    rw [String.toList_ofList, List.length_cons, List.length_replicate]
  rw [hone, List.sum_replicate]
  rfl

/-- A verified list covers the default state, and is refused: its canonical text is
longer than the wire limit.  And no state answers for the empty certificate ID. -/
theorem long_list_refused :
    StatusRun (tabled []) ⟨60, 60, 5⟩ [] {} ∧
      CollisionFree (tabled []) (objectsOf (deliveries [])) ∧
      validatePolicy ⟨60, 60, 5⟩ = .ok () ∧ validV2Timestamp 100 = true ∧
      verifyRevocationListV2Signature (tabled []) (tabledList 100 160 1 longIds) tabledIssuer
        (tabledKey 1) = .ok () ∧
      Covers {} (tabledList 100 160 1 longIds) ⟨60, 60, 5⟩ 100 ∧
      (∀ t, applyRevocationListV2 (tabled []) {} (tabledList 100 160 1 longIds) tabledIssuer 1
        (tabledKey 1) ⟨60, 60, 5⟩ 100 ≠ .ok t) ∧
      ∀ s result, revocationStatusForCertV2 (tabled []) s tabledIssuer "" 1 (tabledKey 1)
        ⟨60, 60, 5⟩ 100 ≠ .ok result := by
  have hwf : ListWellFormed (tabledList 100 160 1 longIds) :=
    listWellFormed_tabled (by decide) (by decide) (by decide) (by decide) (by decide)
      length_longIds.le namableIds_longIds
  refine ⟨.nil, ?_, rfl, rfl, verify_tabledList hwf 1, ⟨rfl, by decide, by simp⟩, ?_, ?_⟩
  · rintro a ⟨x, ⟨d, hd, -⟩, -⟩
    simp at hd
  · intro t happ
    simp only [applyRevocationListV2, classify_eq_ok_iff, bind_eq_ok_iff,
      applyListInner_eq_ok_iff (wellFormed_default _)] at happ
    obtain ⟨r, ⟨b, o, hc, -⟩, -⟩ := happ
    obtain ⟨e, he, -⟩ := CollisionFree.evidenceDigest_eq_ok_iff.mp hc.digest
    refine not_encode_list_of_long ?_ e he
    rw [tabledList_revoked, sum_length_longIds, maxRevocationListBytesV2]
    omega
  · intro s result hq
    exact (revocationStatusForCertV2_eq_ok_iff.mp hq).2.2.2.1 rfl

end RatifyProtocol.V2
