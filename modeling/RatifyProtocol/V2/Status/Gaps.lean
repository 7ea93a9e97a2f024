import RatifyProtocol.V2.Status.Covering
set_option autoImplicit false

/-!
# Status: lists that leave a gap

A list that is stale when it comes, and older than everything retained, is kept as
evidence of a gap and settles nothing.  Two signed lists leave a state without a
floor and with both their observations.
-/

namespace RatifyProtocol.V2

open Foundation

variable {P : Primitives} {policy : RevocationStatusPolicyV2} {d : Delivery}
  {s b : RevocationStatusStateV2} {o : RevocationObservationV2}

/-! ## A stale list -/

/-- A state without a floor in which nothing is marked as a fork. -/
structure Pending (s : RevocationStatusStateV2) : Prop where
  noFloor : s.hasFloor = false
  keys : (s.observations.map semanticKey).Nodup
  unmarked : ∀ a ∈ s.observations, a.fork = false ∧ a.accepted = false

theorem pending_default : Pending {} := ⟨rfl, List.nodup_nil, by simp⟩

/-- A stale list older than everything retained leaves a gap. -/
theorem reduceList_stale {l : RevocationListV2} (hs : WellFormed P s) (hp : Pending s)
    (hc : d.Checks P policy s b o) (hx : d.object = .list l)
    (hstale : listFresh l policy d.now = false)
    (holder : ∀ a ∈ s.observations, l.sequence < a.sequence) :
    reduceObject P policy d.now b d.object o = .ok (retain b o false none true) := by
  have hcl : V2.Checks P s (.list l) d.issuerId d.epoch d.key policy d.now b o := hx ▸ hc
  obtain ⟨-, -, hobs, hfloor⟩ := hc.bound_marks hs
  have hseq : o.sequence = l.sequence := hcl.sequence
  have hbefore : ∀ a ∈ b.observations, l.sequence < a.sequence := hobs ▸ holder
  have hf : b.hasFloor = false := hfloor.trans hp.noFloor
  have hnone : redelivers b l o.evidenceDigest o = none := by
    cases hr : redelivers b l o.evidenceDigest o with
    | none => rfl
    | some a =>
      obtain ⟨ha, -, -, hsa, -⟩ := findObservation_some hr
      exact absurd hsa (hbefore a ha).ne'
  have hset : findSetObservation b.observations o = none := by
    cases hr : findSetObservation b.observations o with
    | none => rfl
    | some a =>
      have hpa := List.find?_some hr
      have ha := List.mem_reverse.mp (List.mem_of_find?_eq_some hr)
      simp only [Bool.and_eq_true, beq_iff_eq] at hpa
      exact absurd (hpa.1.2.trans hseq) (hbefore a ha).ne'
  have hconf : listConflicts b o = false := by
    simp only [listConflicts, listContradictsFloor, hf, Bool.false_and, Bool.or_false,
      Bool.or_eq_false_iff]
    refine ⟨⟨?_, ?_⟩, ?_⟩
    · rw [sequenceConflict, List.any_eq_false]
      intro a ha hcontra
      simp only [Bool.and_eq_true, beq_iff_eq] at hcontra
      exact absurd (hcontra.1.1.2.trans hseq) (hbefore a ha).ne'
    · rw [listOmitsObserved, Bool.not_eq_false', containsAll_iff]
      intro id hid
      rw [requiredForSnapshot, mem_sortedUnique, List.mem_flatMap] at hid
      obtain ⟨a, ha, -⟩ := hid
      obtain ⟨ha, hle⟩ := List.mem_filter.mp ha
      simp only [Bool.and_eq_true, decide_eq_true_eq] at hle
      exact absurd (hbefore a ha) (not_lt.mpr (hseq ▸ hle.2))
    · rw [snapshotConflictsWithPush, List.any_eq_false]
      intro a ha _
      obtain ⟨ha, hcontra⟩ := List.mem_filter.mp ha
      simp only [Bool.and_eq_true, beq_iff_eq] at hcontra
      exact absurd (hcontra.2.trans hseq) (hbefore a ha).ne'
  obtain ⟨hfork, hgap, -⟩ := hcl.unmarked
  rw [hx, reduceObject, reduceList_eq (cloneList_of_digest hcl.digest) hseq hcl.ids hfork hgap,
    hnone]
  have hfork' : listFork b o = none := by rw [listFork, hconf]; rfl
  have hsettled : listSettled P b l o.evidenceDigest o (listFresh l policy d.now) none = false := by
    rw [listSettled, hset]
  have hplace : listPlacement (sighted b o false none) o (listFresh l policy d.now)
      (listConflicts b o) = .gap := by
    simp [listPlacement, hstale, hf]
  simp only [hsettled, Option.isSome_none, hplace, hfork', Bool.false_eq_true, ↓reduceIte]

/-- The observation a stale list leaves. -/
def gapOf (o : RevocationObservationV2) : RevocationObservationV2 :=
  { o with fork := false, gap := true }

/-- The state a stale list leaves, before compaction. -/
abbrev leftBy (b : RevocationStatusStateV2) (o : RevocationObservationV2) :
    RevocationStatusStateV2 :=
  retain b o false none true

theorem leftBy_observations (hs : WellFormed P s) (hc : d.Checks P policy s b o) :
    (leftBy b o).observations = s.observations ++ [gapOf o] := by
  rw [← (hc.bound_marks hs).2.2.1]
  rfl

/-- Every observation of the current epoch keeps its IDs while a gap is open. -/
theorem mustRetain_leftBy {a : RevocationObservationV2} (hs : WellFormed P s) (hp : Pending s)
    (hc : d.Checks P policy s b o) (ha : a.statusKeyEpoch = d.epoch) (hpos : 0 < a.sequence) :
    mustRetain (leftBy b o) a = true := by
  have hb := hc.wellFormed hs
  have hf : b.hasFloor = false := (hc.bound_marks hs).2.2.2.trans hp.noFloor
  obtain ⟨hzero, hsnap, -⟩ := hb.floor.absent hf
  have hep : a.statusKeyEpoch = b.statusKeyEpoch := ha.trans hc.bound_fields.2.1.symm
  simp [mustRetain, hep, hsnap, hzero, hpos, V2.retain]

/-- A stale older list is retained and the state is pending again. -/
theorem deliver_stale {l : RevocationListV2} (hs : WellFormed P s) (hp : Pending s)
    (hc : d.Checks P policy s b o) (hx : d.object = .list l)
    (hstale : listFresh l policy d.now = false)
    (holder : ∀ a ∈ s.observations, l.sequence < a.sequence) :
    applyDelivery P policy s d = .ok (compact P (leftBy b o)) ∧
      ((leftBy b o).observations.map semanticKey).Nodup ∧ Pending (compact P (leftBy b o)) := by
  have hred := reduceList_stale hs hp hc hx hstale holder
  have hseq : o.sequence = l.sequence := hc.sequence.trans (by rw [hx]; rfl)
  have hobs := leftBy_observations hs hc
  have hf : b.hasFloor = false := (hc.bound_marks hs).2.2.2.trans hp.noFloor
  have hkeys : ((leftBy b o).observations.map semanticKey).Nodup := by
    rw [hobs, List.map_append, List.nodup_append]
    refine ⟨hp.keys, by simp, fun k hk k' hk' heq => ?_⟩
    obtain ⟨a, ha, rfl⟩ := List.mem_map.mp hk
    rw [List.map_singleton, List.mem_singleton] at hk'
    have hsame : a.sequence = o.sequence := congrArg SemanticKey.sequence (heq.trans hk')
    have := holder a ha
    omega
  refine ⟨?_, hkeys, hf, nodup_keys_compact hkeys, fun c hcm => ?_⟩
  · rw [applyDelivery_eq_ok_iff hs]
    exact ⟨b, o, _, hc, hred, (compactBound_of_bound (r := leftBy b o) hc.bound_ne).symm⟩
  · obtain ⟨a, ha, hk⟩ := (exists_kept hkeys).2 c hcm
    obtain ⟨-, hsnap, -⟩ := (hc.wellFormed hs).floor.absent hf
    rw [hk.fork, hk.accepted hsnap]
    rw [hobs] at ha
    rcases List.mem_append.mp ha with ha | ha
    · exact hp.unmarked a ha
    · rw [List.mem_singleton.mp ha]
      exact ⟨rfl, hc.unmarked.2.2⟩

/-! ## Two lists -/

/-- The list at sequence 2 of the runs below, stale or early except at 100. -/
def earlyList : RevocationListV2 := tabledList 100 120 2 []

/-- The older list that names one more certificate, stale whenever it is delivered. -/
def olderList : RevocationListV2 := tabledList 130 190 1 ["a"]

/-- A delivery under the first tabled key. -/
def sends (l : RevocationListV2) (now : Int) : Delivery :=
  ⟨.list l, tabledIssuer, 1, tabledKey 1, now⟩

/-- The early list, and the older one after it. -/
def gapRun : List StatusStep := [.deliver (sends earlyList 95), .deliver (sends olderList 200)]

theorem listWellFormed_early : ListWellFormed earlyList :=
  listWellFormed_tabled (by decide) (by decide) (by decide) (by decide) (by decide) (by decide)
    ⟨by decide, by decide, by decide⟩

theorem listWellFormed_older : ListWellFormed olderList :=
  listWellFormed_tabled (by decide) (by decide) (by decide) (by decide) (by decide) (by decide)
    ⟨by decide, by decide, by decide⟩

/-- A state bound to the tabled issuer, its first epoch and its key. -/
structure TabledBound (P : Primitives) (s : RevocationStatusStateV2) : Prop where
  issuer : s.issuerId = tabledIssuer
  epoch : s.statusKeyEpoch = 1
  key : keyIdV2 P (tabledKey 1) = .ok s.statusKeyId

theorem tabledBound_leftBy {l : RevocationListV2} {now : Int}
    (hc : (sends l now).Checks P policy s b o) : TabledBound P (compact P (leftBy b o)) := by
  obtain ⟨hissuer, hepoch, hkey⟩ := hc.bound_fields
  exact ⟨hissuer, hepoch, hkey ▸ hc.key_ok⟩

/-- Both lists pass the checks of a state that is bound to their issuer. -/
theorem exists_checks_sends {objects : List StatusObject} {l : RevocationListV2} {now : Int}
    (hl : l = earlyList ∨ l = olderList) (hnow : validV2Timestamp now = true)
    (hbound : s.issuerId ≠ "" → TabledBound (tabled objects) s) :
    ∃ b o, (sends l now).Checks (tabled objects) ⟨20, 10, 3⟩ s b o := by
  have hbound' : s.issuerId ≠ "" → tabledIssuer = s.issuerId ∧ 1 = s.statusKeyEpoch ∧
      keyIdV2 (tabled objects) (tabledKey 1) = .ok s.statusKeyId :=
    fun hne => ⟨(hbound hne).issuer.symm, (hbound hne).epoch.symm, (hbound hne).key⟩
  suffices h : Deliverable (tabled objects) s (.list l) tabledIssuer 1 (tabledKey 1) from
    h.exists_checks rfl hnow
  obtain rfl | rfl := hl
  · exact deliverable_tabledList listWellFormed_early (by decide) (by decide) (by decide) hbound'
  · exact deliverable_tabledList listWellFormed_older (by decide) (by decide) (by decide) hbound'

/-- What the two lists leave: no floor, and an observation of each. -/
structure GapsLeft (P : Primitives) (s : RevocationStatusStateV2) : Prop where
  wellFormed : WellFormed P s
  pending : Pending s
  bound : TabledBound P s
  early : ∃ a ∈ s.observations, a.statusKeyEpoch = 1 ∧ a.objectType = LIST ∧ a.sequence = 2 ∧
    (StatusObject.list earlyList).evidenceDigest P = .ok a.evidenceDigest
  older : ∃ a ∈ s.observations, a.statusKeyEpoch = 1 ∧ a.sequence = 1 ∧ "a" ∈ a.revokedCertIds
  future : ∀ a ∈ s.observations, a.sequence = 2 → a.futureDated = true
  observed : s.maxObservedSequence = 2
  reconciliation : s.reconciliationRequired = true

theorem collisionFree_gapRun : CollisionFree (tabled [.list earlyList, .list olderList])
    (objectsOf (deliveries gapRun)) :=
  collisionFree_objectsOf (by simp [deliveries, gapRun, sends]) (by decide)

theorem exists_run_gaps {objects : List StatusObject}
    (hfree : CollisionFree (tabled objects) (objectsOf (deliveries gapRun))) :
    ∃ s, StatusRun (tabled objects) ⟨20, 10, 3⟩ gapRun s ∧ GapsLeft (tabled objects) s := by
  -- The early list is future-dated at 95.
  have hs₀ := wellFormed_default (tabled objects)
  obtain ⟨b₁, o₁, hc₁⟩ := @exists_checks_sends {} objects _ 95 (.inl rfl) rfl (by simp)
  obtain ⟨happ₁, hkeys₁, hp₁⟩ := deliver_stale hs₀ pending_default hc₁ rfl rfl (by simp)
  have hobs₁ := leftBy_observations hs₀ hc₁
  have hrun₁ : StatusRun (tabled objects) ⟨20, 10, 3⟩ [.deliver (sends earlyList 95)] _ :=
    Run.single happ₁
  have hs₁ := (reachable_keeps hrun₁ (hfree.mono (objectsOf_append_left
    (deliveries [.deliver (sends earlyList 95)]) [sends olderList 200]))).1
  have hseen₁ : ∀ a ∈ (compact (tabled objects) (leftBy b₁ o₁)).observations,
      Kept (leftBy b₁ o₁) (gapOf o₁) a := by
    intro a ha
    obtain ⟨x, hx, hk⟩ := (exists_kept hkeys₁).2 a ha
    rw [hobs₁] at hx
    exact List.mem_singleton.mp hx ▸ hk
  have hseq₁ : o₁.sequence = 2 := hc₁.sequence
  -- The older list is stale at 200.
  obtain ⟨b₂, o₂, hc₂⟩ := @exists_checks_sends _ objects _ 200 (.inr rfl) rfl
    fun _ => tabledBound_leftBy hc₁
  obtain ⟨happ₂, hkeys₂, hp₂⟩ := deliver_stale hs₁ hp₁ hc₂ rfl rfl fun a ha => by
    rw [(hseen₁ a ha).sequence]
    change (1 : Int) < o₁.sequence
    omega
  have hobs₂ := leftBy_observations hs₁ hc₂
  have hrun₂ : StatusRun (tabled objects) ⟨20, 10, 3⟩ gapRun _ := Run.snoc hrun₁ happ₂
  have hseq₂ : o₂.sequence = 1 := hc₂.sequence
  have hmax : (compact (tabled objects) (leftBy b₂ o₂)).maxObservedSequence = 2 := by
    change max b₂.maxObservedSequence o₂.sequence = 2
    rw [(hc₂.bound_marks hs₁).1, hseq₂]
    change max (max b₁.maxObservedSequence o₁.sequence) 1 = 2
    rw [(hc₁.bound_marks hs₀).1, hseq₁]
    rfl
  refine ⟨_, hrun₂, ?_⟩
  exact
    { wellFormed := (reachable_keeps hrun₂ hfree).1
      pending := hp₂
      bound := tabledBound_leftBy hc₂
      early := by
        obtain ⟨c₁, hcm₁, hk₁⟩ :=
          (exists_kept (P := tabled objects) hkeys₁).1 (gapOf o₁) (by rw [hobs₁]; simp)
        obtain ⟨c₂, hcm₂, hk₂⟩ :=
          (exists_kept (P := tabled objects) hkeys₂).1 c₁ (by rw [hobs₂]; simp [hcm₁])
        refine ⟨c₂, hcm₂, ?_, ?_, ?_, ?_⟩
        · rw [hk₂.epoch, hk₁.epoch]
          exact hc₁.epoch_eq
        · rw [hk₂.objectType, hk₁.objectType]
          exact hc₁.objectType
        · rw [hk₂.sequence, hk₁.sequence]
          exact hseq₁
        · rw [hk₂.evidence, hk₁.evidence]
          exact hc₁.digest
      older := by
        obtain ⟨c, hcm, hk⟩ :=
          (exists_kept (P := tabled objects) hkeys₂).1 (gapOf o₂) (by rw [hobs₂]; simp)
        have hret := mustRetain_leftBy (a := gapOf o₂) hs₁ hp₁ hc₂ hc₂.epoch_eq
          hc₂.sightingOk.sequence_pos
        refine ⟨c, hcm, hk.epoch.trans hc₂.epoch_eq, hk.sequence.trans hseq₂,
          hk.ids_to hret "a" ?_⟩
        change "a" ∈ o₂.revokedCertIds
        rw [hc₂.ids]
        change "a" ∈ revokedIds (["a"].map RevokedCertV2.mk)
        rw [revokedIds_mk]
        simp
      future := by
        intro a ha hseq
        obtain ⟨x, hx, hk⟩ := (exists_kept hkeys₂).2 a ha
        rw [hobs₂] at hx
        obtain hx | hx := List.mem_append.mp hx
        · rw [hk.futureDated, (hseen₁ x hx).futureDated]
          exact hc₁.futureDated
        · rw [hk.sequence, List.mem_singleton.mp hx] at hseq
          have hne : o₂.sequence = 2 := hseq
          omega
      observed := hmax
      reconciliation := by simp [V2.retain] }

end RatifyProtocol.V2
