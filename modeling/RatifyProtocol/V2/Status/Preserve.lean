import RatifyProtocol.V2.Status.CompactInvariant
import RatifyProtocol.V2.Status.Steps
set_option autoImplicit false

/-!
# Status: every outcome keeps the invariant

One lemma for each closed form of `Steps`: a retained sighting, an accepted list,
an accepted push.  `EvidenceOk.append` and `AcceptedOk.append` carry the argument
for the observation each of them adds.
-/

namespace RatifyProtocol.V2

open Foundation

variable {P : Primitives}
variable {s s' : RevocationStatusStateV2} {o : RevocationObservationV2}

/-- What the reducer knows of the observation of an object it has verified. -/
structure SightingOk (s : RevocationStatusStateV2) (o : RevocationObservationV2) : Prop where
  sequence_pos : 0 < o.sequence
  sequence_le : o.sequence ≤ maxSafe
  keyId : validV2Id o.statusKeyId = true
  objectType : o.objectType = LIST ∨ o.objectType = PUSH
  evidence : o.evidenceDigest.length = 48
  body : o.bodyDigest.length = 48
  revokedSet : o.revokedSetDigest.length = 48
  distinct : o.revokedCertIds.Nodup
  nonempty : ∀ id ∈ o.revokedCertIds, id ≠ ""
  epoch : o.statusKeyEpoch = s.statusKeyEpoch

/-- A redelivered object adds nothing to the deny union or the high-water mark. -/
def Redelivered (s : RevocationStatusStateV2) (o : RevocationObservationV2) : Prop :=
  o.sequence ≤ s.maxObservedSequence ∧ ∀ id ∈ o.revokedCertIds, id ∈ s.denyUnionCertIds

theorem sighted_denyUnion (h : EvidenceOk s) {d : Bool} {f : Option Int}
    (hd : d = true → Redelivered s o) :
    (sighted s o d f).denyUnionCertIds = sortedUnique (s.denyUnionCertIds ++ o.revokedCertIds) := by
  cases d with
  | false => rfl
  | true =>
    change s.denyUnionCertIds = _
    rw [← h.deny_sorted]
    refine sortedUnique_congr fun id => ?_
    rw [List.mem_append, mem_sortedUnique]
    exact ⟨.inl, fun hid => hid.elim (fun h => h) ((hd rfl).2 id)⟩

theorem sighted_maxObserved {d : Bool} {f : Option Int} (hd : d = true → Redelivered s o) :
    (sighted s o d f).maxObservedSequence = max s.maxObservedSequence o.sequence := by
  cases d with
  | false => rfl
  | true => exact (max_eq_left (hd rfl).1).symm

/-! ## Evidence -/

/-- The high-water marks and flags of `s'` agree with each other. -/
structure MarksOk (s : RevocationStatusStateV2) : Prop where
  max_le : s.maxObservedSequence ≤ maxSafe
  floor_le : s.floor ≤ s.maxObservedSequence
  fork_nonneg : 0 ≤ s.forkSequence
  fork_le : s.forkSequence ≤ s.maxObservedSequence
  fork_open : 0 < s.forkSequence → s.reconciliationRequired = true
  future_open : s.futureDatedObjectObserved = true → s.reconciliationRequired = true

theorem SightingOk.observationOk (ho : SightingOk s o) (hep : s'.statusKeyEpoch = s.statusKeyEpoch)
    (hmax : o.sequence ≤ s'.maxObservedSequence)
    (hdeny : ∀ id ∈ o.revokedCertIds, id ∈ s'.denyUnionCertIds) : ObservationOk s' o where
  sequence_pos := ho.sequence_pos
  sequence_le := ho.sequence_le
  keyId := ho.keyId
  objectType := ho.objectType
  evidence := ho.evidence
  body := ho.body
  revokedSet := ho.revokedSet
  distinct := ho.distinct
  nonempty := ho.nonempty
  epoch_le := by rw [hep, ho.epoch]
  observed := fun _ => hmax
  denied := hdeny

/-- A retained observation stays in order when the marks of its state only grow. -/
theorem ObservationOk.mono {a : RevocationObservationV2} (h : ObservationOk s a)
    (hep : s'.statusKeyEpoch = s.statusKeyEpoch)
    (hmax : s.maxObservedSequence ≤ s'.maxObservedSequence)
    (hdeny : ∀ id ∈ s.denyUnionCertIds, id ∈ s'.denyUnionCertIds) : ObservationOk s' a :=
  { h with
    epoch_le := by rw [hep]; exact h.epoch_le
    observed := fun he => (h.observed (he.trans hep)).trans hmax
    denied := fun id hid => hdeny id (h.denied id hid) }

/-- One more observation, with the deny union and the high-water mark raised by it. -/
theorem EvidenceOk.append (h : EvidenceOk s) (ho : SightingOk s o)
    (hep : s'.statusKeyEpoch = s.statusKeyEpoch)
    (hobs : s'.observations = s.observations ++ [o])
    (hdeny : s'.denyUnionCertIds = sortedUnique (s.denyUnionCertIds ++ o.revokedCertIds))
    (hmax : s'.maxObservedSequence = max s.maxObservedSequence o.sequence)
    (hmarks : MarksOk s') (hfloor : s.floor ≤ s'.floor)
    (hacc : o.accepted = true → o.sequence ≤ s'.floor)
    (hpush : ∀ a ∈ s.observations, PushesDiffer a o)
    (haccepted : ∀ a ∈ s.observations, AcceptedDiffer a o) : EvidenceOk s' := by
  have hin : ∀ id, id ∈ s'.denyUnionCertIds ↔ id ∈ s.denyUnionCertIds ∨ id ∈ o.revokedCertIds := by
    intro id
    rw [hdeny, mem_sortedUnique, List.mem_append]
  constructor
  · intro a ha
    rw [hobs] at ha
    rcases List.mem_append.mp ha with ha | ha
    · refine (h.observations a ha).mono hep ?_ fun id hid => (hin id).mpr (.inl hid)
      rw [hmax]
      exact le_max_left _ _
    · obtain rfl := List.mem_singleton.mp ha
      refine ho.observationOk hep ?_ fun id hid => (hin id).mpr (.inr hid)
      rw [hmax]
      exact le_max_right _ _
  · rw [hobs, List.pairwise_append]
    exact ⟨h.pushes, List.pairwise_singleton _ _, fun a ha b hb => List.mem_singleton.mp hb ▸ hpush a ha⟩
  · rw [hobs, List.pairwise_append]
    exact ⟨h.accepted, List.pairwise_singleton _ _,
      fun a ha b hb => List.mem_singleton.mp hb ▸ haccepted a ha⟩
  · intro a ha he hacca
    rw [hobs] at ha
    rcases List.mem_append.mp ha with ha | ha
    · exact (h.accepted_le a ha (he.trans hep) hacca).trans hfloor
    · obtain rfl := List.mem_singleton.mp ha
      exact hacc hacca
  · rw [hdeny, sortedUnique_idem]
  · intro id hid
    rw [hobs]
    rcases (hin id).mp hid with hid | hid
    · obtain ⟨a, ha, hmem⟩ := h.witnessed id hid
      exact ⟨a, by simp [ha], hmem⟩
    · exact ⟨o, by simp, hid⟩
  · have := h.max_nonneg
    rw [hmax]
    exact this.trans (le_max_left _ _)
  · exact hmarks.max_le
  · exact hmarks.floor_le
  · exact hmarks.fork_nonneg
  · exact hmarks.fork_le
  · exact hmarks.fork_open
  · exact hmarks.future_open

/-- The evidence is in order as long as only marks and flags change. -/
theorem EvidenceOk.remark (h : EvidenceOk s) (hep : s'.statusKeyEpoch = s.statusKeyEpoch)
    (hobs : s'.observations = s.observations) (hdeny : s'.denyUnionCertIds = s.denyUnionCertIds)
    (hmax : s'.maxObservedSequence = s.maxObservedSequence) (hfloor : s'.floor = s.floor)
    (hmarks : MarksOk s') : EvidenceOk s' where
  observations := fun a ha => (h.observations a (hobs ▸ ha)).mono hep (by rw [hmax])
    fun id hid => by rwa [hdeny]
  pushes := hobs ▸ h.pushes
  accepted := hobs ▸ h.accepted
  accepted_le := fun a ha he hacc => by
    rw [hfloor]
    exact h.accepted_le a (hobs ▸ ha) (he.trans hep) hacc
  deny_sorted := hdeny ▸ h.deny_sorted
  witnessed := fun id hid => by
    rw [hobs]
    exact h.witnessed id (hdeny ▸ hid)
  max_nonneg := hmax ▸ h.max_nonneg
  max_le := hmarks.max_le
  floor_le := hmarks.floor_le
  fork_nonneg := hmarks.fork_nonneg
  fork_le := hmarks.fork_le
  fork_open := hmarks.fork_open
  future_open := hmarks.future_open

/-! ## Accepted history -/

/-- The fields `FloorOk` reads, observations apart, are those of `s`. -/
structure SameFloor (s s' : RevocationStatusStateV2) : Prop where
  issuerId : s'.issuerId = s.issuerId
  epoch : s'.statusKeyEpoch = s.statusKeyEpoch
  hasFloor : s'.hasFloor = s.hasFloor
  floor : s'.floor = s.floor
  snapshot : s'.acceptedSnapshot = s.acceptedSnapshot
  accepted : s'.acceptedCertIds = s.acceptedCertIds
  precedingFloor : s'.precedingFloor = s.precedingFloor
  preceding : s'.precedingAcceptedCertIds = s.precedingAcceptedCertIds

theorem acceptedPushInRange_congr (h : SameFloor s s') (snap : RevocationListV2)
    (a : RevocationObservationV2) :
    acceptedPushInRange s' snap a = acceptedPushInRange s snap a := by
  simp only [acceptedPushInRange, h.epoch, h.floor]

/-- The accepted history does not depend on an observation that is no accepted push. -/
theorem AcceptedOk.extend {snap : RevocationListV2} (h : AcceptedOk P s snap)
    (hsame : SameFloor s s') {l : List RevocationObservationV2}
    (hobs : s'.observations = s.observations ++ l)
    (hno : ∀ a ∈ l, acceptedPushInRange s snap a = false) : AcceptedOk P s' snap := by
  have hin : ∀ a, (a ∈ s'.observations ∧ acceptedPushInRange s' snap a = true) ↔
      (a ∈ s.observations ∧ acceptedPushInRange s snap a = true) := by
    intro a
    rw [hobs, List.mem_append, acceptedPushInRange_congr hsame]
    constructor
    · rintro ⟨ha | ha, hr⟩
      · exact ⟨ha, hr⟩
      · rw [hno a ha] at hr
        cases hr
    · rintro ⟨ha, hr⟩
      exact ⟨.inl ha, hr⟩
  constructor
  · rw [hsame.issuerId]
    exact h.issuer
  · exact h.sequence_pos
  · rw [hsame.floor]
    exact h.sequence_le
  · obtain ⟨digest, hd, a, ha, hb⟩ := h.base
    refine ⟨digest, hd, a, ?_, hb.1.trans hsame.epoch.symm, hb.2⟩
    rw [hobs]
    exact List.mem_append_left _ ha
  · intro n hn hnf
    obtain ⟨a, ha, hr, hseq⟩ := h.contiguous n hn (hsame.floor ▸ hnf)
    exact ⟨a, ((hin a).mpr ⟨ha, hr⟩).1, ((hin a).mpr ⟨ha, hr⟩).2, hseq⟩
  · intro id
    rw [hsame.accepted, h.accepted_ids]
    constructor
    · rintro (hid | ⟨a, ha, hr, hid⟩)
      · exact .inl hid
      · exact .inr ⟨a, ((hin a).mpr ⟨ha, hr⟩).1, ((hin a).mpr ⟨ha, hr⟩).2, hid⟩
    · rintro (hid | ⟨a, ha, hr, hid⟩)
      · exact .inl hid
      · exact .inr ⟨a, ((hin a).mp ⟨ha, hr⟩).1, ((hin a).mp ⟨ha, hr⟩).2, hid⟩

theorem FloorOk.extend (h : FloorOk P s) (hsame : SameFloor s s')
    {l : List RevocationObservationV2} (hobs : s'.observations = s.observations ++ l)
    (hno : ∀ snap, ∀ a ∈ l, acceptedPushInRange s snap a = false) : FloorOk P s' where
  accepted_sorted := hsame.accepted ▸ h.accepted_sorted
  preceding_sorted := hsame.preceding ▸ h.preceding_sorted
  preceding_nonneg := hsame.precedingFloor ▸ h.preceding_nonneg
  preceding_le := hsame.precedingFloor ▸ h.preceding_le
  preceding_empty := fun hz => hsame.preceding ▸ h.preceding_empty (hsame.precedingFloor ▸ hz)
  absent := fun hf => by
    rw [hsame.floor, hsame.snapshot, hsame.accepted]
    exact h.absent (hsame.hasFloor ▸ hf)
  present := fun hf => by
    obtain ⟨snap, hsnap, hacc⟩ := h.present (hsame.hasFloor ▸ hf)
    exact ⟨snap, hsame.snapshot ▸ hsnap, hacc.extend hsame hobs (hno snap)⟩

/-- A list accepted at its own sequence is a complete history of one object. -/
theorem AcceptedOk.of_list {list : RevocationListV2} {digest : Bytes}
    (hissuer : list.issuerId = s.issuerId) (hpos : 0 < list.sequence)
    (hfloor : s.floor = list.sequence) (hd : statusEvidenceDigestListV2 P list = .ok digest)
    (ho : o ∈ s.observations) (hb : IsBase s list digest o)
    (hids : ∀ id, id ∈ s.acceptedCertIds ↔ id ∈ revokedIds list.revoked) :
    AcceptedOk P s list where
  issuer := hissuer
  sequence_pos := hpos
  sequence_le := hfloor.ge
  base := ⟨digest, hd, o, ho, hb⟩
  contiguous := fun n hn hnf => by omega
  accepted_ids := fun id => by
    rw [hids]
    refine ⟨.inl, fun h => h.elim (fun h => h) ?_⟩
    rintro ⟨a, -, hr, -⟩
    have := (acceptedPushInRange_iff.mp hr).2.2.2
    omega

/-! ## The three outcomes -/

theorem BindingOk.congr (h : BindingOk s) (hissuer : s'.issuerId = s.issuerId)
    (hepoch : s'.statusKeyEpoch = s.statusKeyEpoch) (hkey : s'.statusKeyId = s.statusKeyId)
    (hretired : s'.retiredStatusKeyIds = s.retiredStatusKeyIds) : BindingOk s' where
  epoch_pos := by rw [hissuer, hepoch]; exact h.epoch_pos
  epoch_le := by rw [hepoch]; exact h.epoch_le
  keyId := by rw [hissuer, hkey]; exact h.keyId
  retired_sorted := by rw [hretired]; exact h.retired_sorted
  retired_other := by rw [hretired, hkey]; exact h.retired_other
  retired_valid := by rw [hretired]; exact h.retired_valid

/-- The marks of a sighted state agree. -/
theorem marksOk_sighted (h : EvidenceOk s) (ho : SightingOk s o) {d : Bool} {f : Option Int}
    (hd : d = true → Redelivered s o)
    (hf : ∀ n, f = some n → n ≤ max s.maxObservedSequence o.sequence) :
    MarksOk (sighted s o d f) := by
  have h₁ := h.max_le
  have h₂ := h.floor_le
  have h₃ := h.fork_nonneg
  have h₄ := h.fork_le
  have h₅ := h.max_nonneg
  have h₆ := ho.sequence_le
  have hmax := sighted_maxObserved (f := f) hd
  constructor
  · rw [hmax]
    exact max_le h₁ h₆
  · rw [hmax, sighted_floor]
    omega
  · cases f with
    | none => exact h₃
    | some n => exact le_max_right _ _
  · rw [hmax]
    cases f with
    | none => exact h₄.trans (le_max_left _ _)
    | some n =>
      have := hf n rfl
      change max (max (max s.forkSequence s.floor) n) 0 ≤ _
      omega
  · cases f with
    | none =>
      intro hpos
      simp [sighted, h.fork_open hpos]
    | some n => simp [sighted]
  · simp only [sighted, Bool.or_eq_true]
    rintro (hfut | hfut)
    · exact .inl (.inl (h.future_open hfut))
    · exact .inl (.inr hfut)

theorem MarksOk.raise (h : MarksOk s) (b : Bool) (hmax : s'.maxObservedSequence = s.maxObservedSequence)
    (hfloor : s'.floor = s.floor) (hfork : s'.forkSequence = s.forkSequence)
    (hrec : s'.reconciliationRequired = (s.reconciliationRequired || b))
    (hfut : s'.futureDatedObjectObserved = s.futureDatedObjectObserved) : MarksOk s' where
  max_le := hmax ▸ h.max_le
  floor_le := by rw [hmax, hfloor]; exact h.floor_le
  fork_nonneg := hfork ▸ h.fork_nonneg
  fork_le := by rw [hmax, hfork]; exact h.fork_le
  fork_open := by
    rw [hfork, hrec]
    intro hpos
    simp [h.fork_open hpos]
  future_open := by
    rw [hfut, hrec]
    intro hf
    simp [h.future_open hf]

/-- A sighting that is not accepted keeps the invariant. -/
theorem WellFormed.retain (h : WellFormed P s) (hbound : s.issuerId ≠ "") (ho : SightingOk s o)
    (hacc : o.accepted = false) {d : Bool} {f : Option Int} {g : Bool}
    (hd : d = true → Redelivered s o)
    (hf : ∀ n, f = some n → n ≤ max s.maxObservedSequence o.sequence)
    (hpush : d = false → ∀ a ∈ s.observations, PushesDiffer a o) :
    WellFormed P (retain s o d f g) := by
  have hmarks : MarksOk (V2.retain s o d f g) :=
    (marksOk_sighted h.evidence ho hd hf).raise g rfl rfl rfl rfl rfl
  have hsame : SameFloor s (V2.retain s o d f g) := ⟨rfl, rfl, rfl, rfl, rfl, rfl, rfl, rfl⟩
  refine ⟨fun he => absurd he hbound, h.binding.congr rfl rfl rfl rfl, ?_, ?_⟩
  · cases d with
    | true =>
      exact h.evidence.remark rfl rfl rfl rfl rfl hmarks
    | false =>
      refine h.evidence.append (o := { o with fork := f.isSome, gap := g }) ?_ rfl rfl rfl rfl
        hmarks (le_refl _) ?_ ?_ ?_
      · exact { ho with }
      · intro ha
        rw [hacc] at ha
        cases ha
      · exact hpush rfl
      · rintro a - ⟨-, -, -, -, -, ha⟩
        rw [hacc] at ha
        cases ha
  · cases d with
    | true => exact h.floor.extend hsame (l := []) (by simp [V2.retain]) (by simp)
    | false =>
      refine h.floor.extend hsame (l := [{ o with fork := f.isSome, gap := g }]) rfl ?_
      intro snap a ha
      obtain rfl := List.mem_singleton.mp ha
      simp [acceptedPushInRange, hacc]

theorem FloorOk.floor_pos (h : FloorOk P s) (hf : s.hasFloor = true) : 0 < s.floor := by
  obtain ⟨snap, -, hacc⟩ := h.present hf
  have h₁ := hacc.sequence_pos
  have h₂ := hacc.sequence_le
  omega

theorem FloorOk.floor_nonneg (h : FloorOk P s) : 0 ≤ s.floor := by
  cases hf : s.hasFloor with
  | false => rw [(h.absent hf).1]
  | true => exact (h.floor_pos hf).le

@[simp] theorem acceptedList_floor {list : RevocationListV2} {digest : Bytes} :
    (acceptedList P s list digest o).floor = list.sequence := by
  unfold acceptedList
  dsimp only
  split
  · rename_i h
    simp only [Bool.and_eq_true, beq_iff_eq] at h
    exact h.2.symm
  · rfl

theorem acceptedList_same (list : RevocationListV2) (digest : Bytes) :
    (acceptedList P s list digest o).issuerId = s.issuerId ∧
      (acceptedList P s list digest o).statusKeyEpoch = s.statusKeyEpoch ∧
      (acceptedList P s list digest o).statusKeyId = s.statusKeyId ∧
      (acceptedList P s list digest o).retiredStatusKeyIds = s.retiredStatusKeyIds ∧
      (acceptedList P s list digest o).denyUnionCertIds = s.denyUnionCertIds ∧
      (acceptedList P s list digest o).maxObservedSequence = s.maxObservedSequence := by
  unfold acceptedList
  dsimp only
  split <;> exact ⟨rfl, rfl, rfl, rfl, rfl, rfl⟩

/-- A list the reducer may accept in `s`. -/
structure Acceptable (P : Primitives) (s : RevocationStatusStateV2) (list : RevocationListV2)
    (digest : Bytes) (o : RevocationObservationV2) : Prop where
  encodes : statusEvidenceDigestListV2 P list = .ok digest
  issuer : list.issuerId = s.issuerId
  objectType : o.objectType = LIST
  sequence : o.sequence = list.sequence
  evidence : o.evidenceDigest = digest
  ids : o.revokedCertIds = revokedIds list.revoked
  notFork : o.fork = false
  notFuture : o.futureDated = false
  noConflict : listConflicts s o = false
  floor_le : s.hasFloor = true → s.floor ≤ o.sequence

/-- The observation an accepted list leaves is the base of its history. -/
theorem Acceptable.isBase {list : RevocationListV2} {digest : Bytes}
    (h : Acceptable P s list digest o) (ho : SightingOk s o)
    (hep : s'.statusKeyEpoch = s.statusKeyEpoch) :
    IsBase s' list digest { o with accepted := true } :=
  ⟨ho.epoch.trans hep.symm, h.objectType, h.sequence, h.evidence, rfl, h.notFork, h.notFuture⟩

theorem FloorOk.acceptedList {list : RevocationListV2} {digest : Bytes} (h : FloorOk P s)
    (hle : s.floor ≤ maxSafe) (ho : SightingOk s o) (ha : Acceptable P s list digest o)
    {d : Bool} : FloorOk P (acceptedList P (sighted s o d none) list digest o) := by
  have hpos : 0 < list.sequence := ha.sequence ▸ ho.sequence_pos
  have hmem : { o with accepted := true } ∈ s.observations ++ [{ o with accepted := true }] := by
    simp
  have hnot : ∀ snap, acceptedPushInRange s snap { o with accepted := true } = false := by
    intro snap
    simp [acceptedPushInRange, ha.objectType, show ¬ LIST = PUSH by decide]
  unfold V2.acceptedList
  dsimp only
  split
  · rename_i hat
    simp only [sighted_hasFloor, sighted_floor, Bool.and_eq_true, beq_iff_eq] at hat
    obtain ⟨hf, hat⟩ := hat
    obtain ⟨snap, hsnap, hacc⟩ := h.present hf
    refine ⟨h.accepted_sorted, h.preceding_sorted, h.preceding_nonneg, h.preceding_le,
      h.preceding_empty, fun hno => absurd (hf.symm.trans hno) (by simp), fun _ => ?_⟩
    by_cases hr : replacesSnapshot P (sighted s o d none) list digest = true
    · refine ⟨list, by simp [refreshSnapshot, hr], ?_⟩
      refine .of_list ha.issuer hpos hat.symm ha.encodes hmem (ha.isBase ho rfl) ?_
      intro id
      have heq := equalSets_of_not_conflicts ha.noConflict hf (ha.sequence.trans hat)
      rw [← ha.ids]
      exact (equalSets_iff.mp heq id).symm
    · refine ⟨snap, by simpa [refreshSnapshot, hr] using hsnap, ?_⟩
      refine hacc.extend (l := [{ o with accepted := true }]) ?_ rfl ?_
      · exact ⟨rfl, rfl, rfl, rfl, by simp [refreshSnapshot, hr], rfl, rfl, rfl⟩
      · simpa using hnot snap
  · have hnn := h.floor_nonneg
    refine ⟨sortedUnique_idem _, ?_, ?_, ?_, ?_, fun hno => ?_, fun _ => ⟨list, rfl, ?_⟩⟩
    · simp only [raiseFloor]
      split
      · exact sortedUnique_idem _
      · rfl
    · simp only [raiseFloor]
      split
      · exact hnn
      · exact le_refl _
    · simp only [raiseFloor]
      split
      · exact hle
      · decide
    · simp only [raiseFloor]
      split
      · rename_i hnext
        simp only [sighted_hasFloor, sighted_floor, Bool.and_eq_true] at hnext
        have := h.floor_pos hnext.1
        intro hz
        simp only [sighted_floor] at hz
        omega
      · exact fun _ => rfl
    · exact absurd hno (by simp [raiseFloor])
    · refine .of_list ha.issuer hpos rfl ha.encodes hmem (ha.isBase ho rfl) ?_
      exact fun id => mem_sortedUnique

/-- An accepted list keeps the invariant. -/
theorem WellFormed.acceptedList {list : RevocationListV2} {digest : Bytes} (h : WellFormed P s)
    (hbound : s.issuerId ≠ "") (ho : SightingOk s o) (ha : Acceptable P s list digest o)
    {d : Bool} (hd : d = true → Redelivered s o) :
    WellFormed P (acceptedList P (sighted s o d none) list digest o) := by
  have hev := h.evidence
  have hm := marksOk_sighted hev ho (f := none) hd (by simp)
  have hmax := sighted_maxObserved (f := none) hd
  have hfl := hev.floor_le
  have hmle := hev.max_le
  obtain ⟨e₁, e₂, e₃, e₄, e₅, e₆⟩ := acceptedList_same (P := P) (s := sighted s o d none) (o := o)
    list digest
  refine ⟨fun he => absurd (e₁ ▸ he) hbound, h.binding.congr e₁ e₂ e₃ e₄, ?_,
    h.floor.acceptedList (hfl.trans hmle) ho ha⟩
  refine hev.append (o := { o with accepted := true }) { ho with } e₂ rfl
    (e₅.trans (sighted_denyUnion hev hd)) (e₆.trans hmax) ?_ ?_ ?_ ?_ ?_
  · constructor
    · rw [e₆]; exact hm.max_le
    · rw [e₆, hmax, acceptedList_floor, ← ha.sequence]
      exact le_max_right _ _
    · simp only [V2.acceptedList]
      split
      · exact le_refl _
      · exact hm.fork_nonneg
    · rw [e₆]
      simp only [V2.acceptedList]
      split
      · rw [hmax]
        exact hev.max_nonneg.trans (le_max_left _ _)
      · exact hm.fork_le
    · simp only [V2.acceptedList]
      split
      · exact fun hpos => absurd hpos (lt_irrefl _)
      · rename_i hset
        intro hpos
        rw [hm.fork_open hpos, Bool.true_and]
        simpa [hm.fork_open hpos] using hset
    · simp only [V2.acceptedList, Bool.and_eq_true]
      exact fun hfut => ⟨hm.future_open hfut.1, hfut.2⟩
  · rw [acceptedList_floor, ← ha.sequence]
    cases hf : s.hasFloor with
    | true => exact ha.floor_le hf
    | false => rw [(h.floor.absent hf).1]; exact ho.sequence_pos.le
  · intro _
    rw [acceptedList_floor, ← ha.sequence]
  · rintro a - ⟨-, ht, -⟩
    rw [ha.objectType] at ht
    exact absurd ht (by decide)
  · rintro a - ⟨-, ht, -⟩
    rw [ha.objectType] at ht
    exact absurd ht (by decide)

/-- A push that continues the floor and conflicts with nothing open. -/
theorem pushContinues_iff :
    pushContinues s o = true ↔ s.hasFloor = true ∧ o.sequence = s.floor + 1 ∧
      s.reconciliationRequired = false ∧ o.futureDated = false ∧ pushSightingFork s o = none := by
  cases h : pushSightingFork s o <;> simp [pushContinues, h, sighted, and_assoc]

theorem FloorOk.acceptedPush (h : FloorOk P s) (hev : EvidenceOk s) (ho : SightingOk s o)
    (ht : o.objectType = PUSH) (hf : s.hasFloor = true) (hseq : o.sequence = s.floor + 1) :
    FloorOk P (acceptedPush (sighted s o false none) o) := by
  obtain ⟨snap, hsnap, hacc⟩ := h.present hf
  have hle := hacc.sequence_le
  have hold : ∀ a ∈ s.observations,
      acceptedPushInRange (V2.acceptedPush (sighted s o false none) o) snap a
        = acceptedPushInRange s snap a := by
    intro a ha
    rw [Bool.eq_iff_iff, acceptedPushInRange_iff, acceptedPushInRange_iff]
    constructor
    · rintro ⟨h₁, h₂, h₃, h₄, -⟩
      exact ⟨h₁, h₂, h₃, h₄, hev.accepted_le a ha h₁ h₃⟩
    · rintro ⟨h₁, h₂, h₃, h₄, h₅⟩
      refine ⟨h₁, h₂, h₃, h₄, ?_⟩
      change a.sequence ≤ o.sequence
      omega
  have hnew : acceptedPushInRange (V2.acceptedPush (sighted s o false none) o) snap
      { o with accepted := true } = true := by
    refine acceptedPushInRange_iff.mpr ⟨ho.epoch, ht, rfl, ?_, le_refl _⟩
    change snap.sequence < o.sequence
    omega
  have hmem : ∀ a, a ∈ (V2.acceptedPush (sighted s o false none) o).observations ↔
      a ∈ s.observations ∨ a = { o with accepted := true } := by
    intro a
    simp [V2.acceptedPush]
  have hsafe : (0 : Int) ≤ maxSafe := by decide
  refine ⟨sortedUnique_idem _, rfl, le_refl _, hsafe, fun _ => rfl, fun hno => ?_,
    fun _ => ⟨snap, hsnap, ?_⟩⟩
  · exact absurd (hf.symm.trans hno) (by simp)
  constructor
  · exact hacc.issuer
  · exact hacc.sequence_pos
  · change snap.sequence ≤ o.sequence
    omega
  · obtain ⟨digest, hd, a, ha, hb⟩ := hacc.base
    exact ⟨digest, hd, a, (hmem a).mpr (.inl ha), hb⟩
  · intro n hn hnf
    change n ≤ o.sequence at hnf
    by_cases hlast : n = o.sequence
    · exact ⟨_, (hmem _).mpr (.inr rfl), hnew, hlast.symm⟩
    · obtain ⟨a, ha, hr, hs⟩ := hacc.contiguous n hn (by omega)
      exact ⟨a, (hmem a).mpr (.inl ha), (hold a ha).trans hr, hs⟩
  · intro id
    change id ∈ sortedUnique (s.acceptedCertIds ++ o.revokedCertIds) ↔ _
    rw [mem_sortedUnique, List.mem_append, hacc.accepted_ids]
    constructor
    · rintro ((hid | ⟨a, ha, hr, hid⟩) | hid)
      · exact .inl hid
      · exact .inr ⟨a, (hmem a).mpr (.inl ha), (hold a ha).trans hr, hid⟩
      · exact .inr ⟨_, (hmem _).mpr (.inr rfl), hnew, hid⟩
    · rintro (hid | ⟨a, ha, hr, hid⟩)
      · exact .inl (.inl hid)
      · rcases (hmem a).mp ha with ha | rfl
        · exact .inl (.inr ⟨a, ha, (hold a ha).symm.trans hr, hid⟩)
        · exact .inr hid

/-- An accepted push keeps the invariant. -/
theorem WellFormed.acceptedPush (h : WellFormed P s) (hbound : s.issuerId ≠ "")
    (ho : SightingOk s o) (ht : o.objectType = PUSH) (hcont : pushContinues s o = true)
    (hpush : ∀ a ∈ s.observations, PushesDiffer a o) :
    WellFormed P (acceptedPush (sighted s o false none) o) := by
  obtain ⟨hf, hseq, -⟩ := pushContinues_iff.mp hcont
  have hev := h.evidence
  have hm := marksOk_sighted hev ho (d := false) (f := none) (by simp) (by simp)
  refine ⟨fun he => absurd he hbound, h.binding.congr rfl rfl rfl rfl, ?_,
    h.floor.acceptedPush hev ho ht hf hseq⟩
  refine hev.append (o := { o with accepted := true }) { ho with } rfl rfl rfl rfl ?_ ?_ ?_ ?_ ?_
  · exact ⟨hm.max_le, le_max_right _ _, hm.fork_nonneg, hm.fork_le, hm.fork_open, hm.future_open⟩
  · change s.floor ≤ o.sequence
    omega
  · exact fun _ => le_refl _
  · exact hpush
  · rintro a ha ⟨-, -, h₃, h₄, h₅, -⟩
    have := hev.accepted_le a ha (h₃.trans ho.epoch) h₅
    have : a.sequence = o.sequence := h₄
    omega

end RatifyProtocol.V2
