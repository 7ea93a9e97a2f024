import RatifyProtocol.V2.Status.History
import RatifyProtocol.V2.Status.TableHash
set_option autoImplicit false

/-!
# Status: a list that covers everything

A fresh list beyond everything observed that names everything denied conflicts
with nothing, whatever the state has recorded.  It is accepted and settles the
state (`apply_covering_list`).
-/

namespace RatifyProtocol.V2

open Foundation

variable {P : Primitives} {policy : RevocationStatusPolicyV2}
  {s t b r : RevocationStatusStateV2} {o : RevocationObservationV2} {l : RevocationListV2}
  {issuerId : String} {epoch : Nat} {key : HybridPublicKey} {now : Int}

/-! ## Building the checks -/

/-- A verified object that has a wire encoding, for the key and epoch the state is bound to. -/
structure Deliverable (P : Primitives) (s : RevocationStatusStateV2) (x : StatusObject)
    (issuerId : String) (epoch : Nat) (key : HybridPublicKey) : Prop where
  verified : x.verify P issuerId key = .ok ()
  encodes : ∃ e, x.encode = .ok e
  epoch_pos : 0 < epoch
  epoch_le : (epoch : Int) ≤ maxSafe
  bound : s.issuerId ≠ "" → issuerId = s.issuerId ∧ epoch = s.statusKeyEpoch ∧
    keyIdV2 P key = .ok s.statusKeyId

theorem exists_setDigest (x : StatusObject) : ∃ d, x.setDigest P = .ok d := by
  obtain ⟨e, he⟩ := (wireValue_strs 15 (sortedUnique x.ids)).exists_canonical
  exact ⟨_, CollisionFree.setDigest_eq_ok_iff.mpr ⟨e, he, rfl⟩⟩

/-- A deliverable object passes every check. -/
theorem Deliverable.exists_checks {x : StatusObject} (h : Deliverable P s x issuerId epoch key)
    (hpol : validatePolicy policy = .ok ()) (hnow : validV2Timestamp now = true) :
    ∃ b o, Checks P s x issuerId epoch key policy now b o := by
  obtain ⟨hv, henc, hpos, hle, hbind⟩ := h
  obtain ⟨-, text, htext, hsig⟩ := StatusObject.verify_eq_ok_iff.mp hv
  obtain ⟨hk₁, hk₂⟩ := key_lengths_of_verifyV2Statement P hsig
  obtain ⟨keyId, hkey⟩ : ∃ keyId, keyIdV2 P key = .ok keyId := by
    refine ⟨hexEncode (P.sha256 (utf8 "ratify-key-id-v2\x00" ++ key.ed25519 ++ key.mlDsa65)), ?_⟩
    simp [keyIdV2, hk₁, hk₂]
  obtain ⟨e, he⟩ := henc
  obtain ⟨set, hset⟩ := exists_setDigest (P := P) x
  refine ⟨_, x.observation epoch keyId (P.sha384 (statusDigestInput x.objectType e))
    (P.sha384 text) set policy now, hpol, hnow, hv, fun hi => ⟨(hbind hi).1, (hbind hi).2.1⟩,
    hpos, hle, ?_, ?_, ?_, ?_, ?_, ?_, rfl⟩
  · cases x <;> exact hkey
  · intro hi
    have := Except.ok.inj ((hbind hi).2.2.symm.trans hkey)
    cases x <;> exact this
  · have := CollisionFree.evidenceDigest_eq_ok_iff (P := P).mpr ⟨e, he, rfl⟩
    cases x <;> exact this
  · cases x <;> exact ⟨text, htext, rfl⟩
  · cases x <;> exact hset
  · cases x <;> rfl

/-- A well-formed tabled list of few references can be delivered under a tabled key. -/
theorem deliverable_tabledList {objects : List StatusObject} {updatedAt nextUpdate sequence : Int}
    {ids : List String} (h : ListWellFormed (tabledList updatedAt nextUpdate sequence ids))
    (hfew : ids.length ≤ 256) {n : UInt8} (hpos : 0 < epoch) (hle : (epoch : Int) ≤ maxSafe)
    (hbound : s.issuerId ≠ "" → tabledIssuer = s.issuerId ∧ epoch = s.statusKeyEpoch ∧
      keyIdV2 (tabled objects) (tabledKey n) = .ok s.statusKeyId) :
    Deliverable (tabled objects) s (.list (tabledList updatedAt nextUpdate sequence ids))
      tabledIssuer epoch (tabledKey n) where
  verified := verify_tabledList h n
  encodes := exists_encode_list h signatureLengths_tabled (by rwa [tabledList, List.length_map])
  epoch_pos := hpos
  epoch_le := hle
  bound := hbound

/-! ## A list beyond everything observed -/

/-- Nothing retained in the epoch is at a sequence beyond the high-water mark. -/
theorem no_observation_beyond (hb : WellFormed P b) {n : Int} (hn : b.maxObservedSequence < n)
    {a : RevocationObservationV2} (ha : a ∈ b.observations)
    (hep : a.statusKeyEpoch = b.statusKeyEpoch) : a.sequence ≠ n := by
  have := (hb.evidence.observations a ha).observed hep
  omega

theorem listSettled_beyond (hb : WellFormed P b) (digest : Bytes) (fresh : Bool)
    (hep : o.statusKeyEpoch = b.statusKeyEpoch) (hseq : o.sequence = l.sequence)
    (hbeyond : b.maxObservedSequence < l.sequence) :
    redelivers b l digest o = none ∧
      listSettled P b l digest o fresh (redelivers b l digest o) = false := by
  have hnone : redelivers b l digest o = none := by
    cases hr : redelivers b l digest o with
    | none => rfl
    | some a =>
      obtain ⟨ha, hea, -, hsa, -⟩ := findObservation_some hr
      exact absurd hsa (no_observation_beyond hb hbeyond ha (hea.trans hep))
  refine ⟨hnone, ?_⟩
  rw [hnone, listSettled]
  cases hs : findSetObservation b.observations o with
  | none => rfl
  | some a =>
    have hp := List.find?_some hs
    have ha := List.mem_reverse.mp (List.mem_of_find?_eq_some hs)
    simp only [Bool.and_eq_true, beq_iff_eq] at hp
    exact absurd (hp.1.2.trans hseq)
      (no_observation_beyond hb hbeyond ha (hp.1.1.1.trans hep))

/-- A list beyond everything observed that names everything denied conflicts with nothing. -/
theorem no_conflict_beyond (hb : WellFormed P b) (hep : o.statusKeyEpoch = b.statusKeyEpoch)
    (hbeyond : b.maxObservedSequence < o.sequence)
    (hids : ∀ id ∈ b.denyUnionCertIds, id ∈ o.revokedCertIds) : listConflicts b o = false := by
  have hfloor := hb.evidence.floor_le
  have hno : ∀ a ∈ b.observations, a.statusKeyEpoch = o.statusKeyEpoch → a.sequence ≠ o.sequence :=
    fun a ha he => no_observation_beyond hb hbeyond ha (he.trans hep)
  simp only [listConflicts, Bool.or_eq_false_iff]
  refine ⟨⟨?_, ?_⟩, ?_⟩
  · simp only [listContradictsFloor, Bool.or_eq_false_iff]
    refine ⟨⟨?_, ?_⟩, ?_⟩
    · rw [sequenceConflict, List.any_eq_false]
      intro a ha hc
      simp only [Bool.and_eq_true, beq_iff_eq] at hc
      exact hno a ha hc.1.1.1 hc.1.1.2
    · have : ¬ o.sequence = b.floor := by omega
      simp [this]
    · have : ¬ o.sequence < b.floor := by omega
      simp [this]
  · rw [listOmitsObserved, Bool.not_eq_false', containsAll_iff]
    intro id hid
    rw [requiredForSnapshot, mem_sortedUnique, List.mem_flatMap] at hid
    obtain ⟨a, ha, hmem⟩ := hid
    exact hids id ((hb.evidence.observations a (List.mem_filter.mp ha).1).denied id hmem)
  · rw [snapshotConflictsWithPush, List.any_eq_false]
    intro a ha _
    obtain ⟨ha, hc⟩ := List.mem_filter.mp ha
    simp only [Bool.and_eq_true, beq_iff_eq] at hc
    exact hno a ha hc.1.1 hc.2

/-- The bound state has recorded what the state has. -/
theorem Checks.bound_marks {x : StatusObject} (hs : WellFormed P s)
    (hc : Checks P s x issuerId epoch key policy now b o) :
    b.maxObservedSequence = s.maxObservedSequence ∧ b.denyUnionCertIds = s.denyUnionCertIds ∧
      b.observations = s.observations ∧ b.hasFloor = s.hasFloor := by
  rw [hc.bound, boundState]
  split
  · rename_i hi
    rw [hs.unbound hi]
    exact ⟨rfl, rfl, rfl, rfl⟩
  · exact ⟨rfl, rfl, rfl, rfl⟩

/-- A fresh list beyond everything observed that names everything denied. -/
structure Covers (s : RevocationStatusStateV2) (l : RevocationListV2)
    (policy : RevocationStatusPolicyV2) (now : Int) : Prop where
  fresh : listFresh l policy now = true
  beyond : s.maxObservedSequence < l.sequence
  denied : ∀ id ∈ s.denyUnionCertIds, id ∈ revokedIds l.revoked

/-- What an accepted covering list leaves. -/
structure Settled (t : RevocationStatusStateV2) (l : RevocationListV2) : Prop where
  hasFloor : t.hasFloor = true
  floor : t.floor = l.sequence
  snapshot : t.acceptedSnapshot = some l
  reconciled : t.reconciliationRequired = false
  notFuture : t.futureDatedObjectObserved = false
  noFork : t.forkSequence = 0
  observed : t.maxObservedSequence = l.sequence
  denied : ∀ id, id ∈ t.denyUnionCertIds ↔ id ∈ revokedIds l.revoked
  accepted : ∀ id, id ∈ t.acceptedCertIds ↔ id ∈ revokedIds l.revoked

/-- A covering list is accepted above the floor and settles everything open. -/
theorem settled_acceptedList (hb : WellFormed P b) (hseq : o.sequence = l.sequence)
    (hids : o.revokedCertIds = revokedIds l.revoked)
    (hfuture : o.futureDated = false) (h : Covers b l policy now) (digest : Bytes) :
    Settled (acceptedList P (sighted b o false none) l digest o) l := by
  have hev := hb.evidence
  have hfloor := hev.floor_le
  have hfork := hev.fork_le
  have hbeyond := h.beyond
  have hnonneg := hev.fork_nonneg
  have hraise : ((sighted b o false none).hasFloor
      && l.sequence == (sighted b o false none).floor) = false := by
    simp only [sighted_floor, Bool.and_eq_false_iff, beq_eq_false_iff_ne]
    exact .inr (by omega)
  have hmax : (sighted b o false none).maxObservedSequence = l.sequence := by
    change max b.maxObservedSequence o.sequence = l.sequence
    rw [hseq]
    exact max_eq_right hbeyond.le
  have hdeny : ∀ id, id ∈ (sighted b o false none).denyUnionCertIds ↔
      id ∈ revokedIds l.revoked := by
    intro id
    change id ∈ sortedUnique (b.denyUnionCertIds ++ o.revokedCertIds) ↔ _
    rw [mem_sortedUnique, List.mem_append, hids]
    exact ⟨fun hid => hid.elim (h.denied id) fun hid => hid, .inr⟩
  have hrec : (sighted b o false none).reconciliationRequired = b.reconciliationRequired := by
    simp [sighted, hfuture]
  have hfut : (sighted b o false none).futureDatedObjectObserved
      = b.futureDatedObjectObserved := by
    simp [sighted, hfuture]
  have hsettles : settles (sighted b o false none) l = true := by
    have hf : (sighted b o false none).forkSequence = b.forkSequence := rfl
    simp only [settles, Bool.and_eq_true, Bool.or_eq_true, beq_iff_eq, decide_eq_true_eq,
      containsAll_iff, hmax, hf]
    exact ⟨⟨.inr (by omega), le_refl _⟩, fun id hid => (hdeny id).mp hid⟩
  unfold acceptedList
  simp only [hraise, Bool.false_eq_true, ↓reduceIte, raiseFloor, hsettles, Bool.and_true, hrec,
    hfut]
  refine ⟨rfl, rfl, rfl, by simp, ?_, ?_, hmax, hdeny, fun id => mem_sortedUnique⟩
  · cases hr : b.reconciliationRequired with
    | true => simp
    | false =>
      cases hf : b.futureDatedObjectObserved with
      | false => rfl
      | true => rw [hev.future_open hf] at hr; cases hr
  · change (if b.reconciliationRequired = true then 0 else b.forkSequence) = 0
    split
    · rfl
    · rename_i hr
      by_contra hne
      exact hr (hev.fork_open (by omega))

theorem Settled.compact {t : RevocationStatusStateV2} (h : Settled t l) :
    Settled (compact P t) l :=
  { h with
    denied := fun id => by rw [compact_denyUnionCertIds, mem_sortedUnique, h.denied]
    accepted := fun id => by rw [compact_acceptedCertIds, mem_sortedUnique, h.accepted] }

/-! ## Applying it -/

/-- A covering list settles a well-formed state. -/
theorem apply_covering_list (hs : WellFormed P s) (hd : Deliverable P s (.list l) issuerId epoch key)
    (hpol : validatePolicy policy = .ok ()) (hnow : validV2Timestamp now = true)
    (h : Covers s l policy now) :
    ∃ t, applyRevocationListV2 P s l issuerId epoch key policy now = .ok t ∧
      WellFormed P t ∧ Settled t l ∧ t.issuerId ≠ "" ∧ t.issuerId = issuerId ∧ t.statusKeyEpoch = epoch ∧
      keyIdV2 P key = .ok t.statusKeyId := by
  obtain ⟨b, o, hc⟩ := hd.exists_checks hpol hnow
  have hb := hc.wellFormed hs
  have ho := hc.sightingOk
  obtain ⟨hmarks, hdeny, -⟩ := hc.bound_marks hs
  have hseq : o.sequence = l.sequence := hc.sequence
  have hids : o.revokedCertIds = revokedIds l.revoked := hc.ids
  have hcov : Covers b l policy now := ⟨h.fresh, hmarks ▸ h.beyond, hdeny ▸ h.denied⟩
  have hbeyond := hcov.beyond
  have hfuture : o.futureDated = false := hc.futureDated.trans (not_future_of_fresh h.fresh)
  obtain ⟨hfork, hgap, -⟩ := hc.unmarked
  obtain ⟨hnone, hset⟩ := listSettled_beyond hb o.evidenceDigest
    (listFresh l policy now) ho.epoch hseq hbeyond
  have hconf : listConflicts b o = false :=
    no_conflict_beyond hb ho.epoch (hseq ▸ hbeyond) fun id hid => hids ▸ hcov.denied id hid
  have hfloor := hb.evidence.floor_le
  have hplace : listPlacement (sighted b o false none) o (listFresh l policy now)
      (listConflicts b o) = .accepted := by
    rw [listPlacement_eq_accepted_iff]
    refine ⟨h.fresh, hconf, fun _ => ?_, fun _ => ⟨fun id hid => ?_, ?_⟩⟩
    · rw [sighted_floor]
      omega
    · rcases List.mem_append.mp (mem_sortedUnique.mp hid) with hid | hid
      · exact hids ▸ hcov.denied id hid
      · exact hid
    · change max b.maxObservedSequence o.sequence ≤ o.sequence
      omega
  have hred : reduceList P b l o.evidenceDigest o (listFresh l policy now)
      = .ok (acceptedList P (sighted b o false none) l o.evidenceDigest o) := by
    rw [reduceList_eq (cloneList_of_digest hc.digest) hseq hids hfork hgap, hset, hnone]
    simp only [Option.isSome_none, Bool.false_eq_true, ↓reduceIte, hplace]
  have hacc := hc.acceptable hplace
  have hwf := hb.acceptedList hc.bound_ne ho hacc (d := false) (by simp)
  obtain ⟨e₁, e₂, e₃, -⟩ := acceptedList_same (P := P) (s := sighted b o false none) (o := o)
    l o.evidenceDigest
  obtain ⟨f₁, f₂, f₃⟩ := hc.bound_fields
  have hne : (acceptedList P (sighted b o false none) l o.evidenceDigest o).issuerId ≠ "" :=
    e₁ ▸ hc.bound_ne
  refine ⟨compact P (acceptedList P (sighted b o false none) l o.evidenceDigest o), ?_,
    hwf.compact hne, (settled_acceptedList hb hseq hids hfuture hcov _).compact, hne,
    e₁.trans f₁, e₂.trans f₂, ?_⟩
  · rw [← compactBound_of_bound hne]
    simp only [applyRevocationListV2, classify_eq_ok_iff, bind_eq_ok_iff,
      applyListInner_eq_ok_iff hs]
    exact ⟨_, ⟨b, o, hc, hred⟩, rfl⟩
  · rw [compact_statusKeyId, e₃, sighted_statusKeyId, f₃]
    exact hc.key_ok

/-! ## Covering lists one after another -/

/-- One more covering list extends a run. -/
theorem exists_run_covering {is : List StatusStep} (hrun : StatusRun P policy is s)
    (hs : WellFormed P s) (hd : Deliverable P s (.list l) issuerId epoch key)
    (hpol : validatePolicy policy = .ok ()) (hnow : validV2Timestamp now = true)
    (h : Covers s l policy now) :
    ∃ t, StatusRun P policy (is ++ [.deliver ⟨.list l, issuerId, epoch, key, now⟩]) t ∧
      WellFormed P t ∧ Settled t l ∧ t.issuerId = issuerId ∧ t.statusKeyEpoch = epoch ∧
      keyIdV2 P key = .ok t.statusKeyId := by
  obtain ⟨t, happ, ht, hset, -, hrest⟩ := apply_covering_list hs hd hpol hnow h
  exact ⟨t, .snoc hrun happ, ht, hset, hrest⟩

theorem collisionFree_objectsOf {objects : List StatusObject} {H : List Delivery}
    (hin : ∀ d ∈ H, d.object ∈ objects) (hlen : objects.length ≤ 20000) :
    CollisionFree (tabled objects) (objectsOf H) := by
  refine (collisionFree_tabled hlen).mono ?_
  rintro x ⟨d, hd, rfl⟩
  exact hin d hd

/-- A first tabled list settles the default state. -/
theorem exists_run_first (objects : List StatusObject) (policy : RevocationStatusPolicyV2)
    (now : Int) {updatedAt nextUpdate sequence : Int} {ids : List String}
    (h : ListWellFormed (tabledList updatedAt nextUpdate sequence ids))
    (hfew : ids.length ≤ 256) (hpol : validatePolicy policy = .ok ())
    (hnow : validV2Timestamp now = true)
    (hfresh : listFresh (tabledList updatedAt nextUpdate sequence ids) policy now = true) :
    ∃ t, StatusRun (tabled objects) policy [.deliver
        ⟨.list (tabledList updatedAt nextUpdate sequence ids), tabledIssuer, 1, tabledKey 1, now⟩] t ∧
      WellFormed (tabled objects) t ∧ Settled t (tabledList updatedAt nextUpdate sequence ids) ∧
      t.issuerId = tabledIssuer ∧ t.statusKeyEpoch = 1 ∧
      keyIdV2 (tabled objects) (tabledKey 1) = .ok t.statusKeyId :=
  exists_run_covering .nil (wellFormed_default _)
    (deliverable_tabledList h hfew (by decide) (by decide) (by simp)) hpol hnow
    ⟨hfresh, h.sequence_pos, by simp⟩

end RatifyProtocol.V2
