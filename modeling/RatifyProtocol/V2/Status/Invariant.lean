import RatifyProtocol.V2.Status.Query
set_option autoImplicit false

/-!
# Status: the invariant of the reducer

`WellFormed` is what every reachable state satisfies, in three parts: the
binding to an issuer and key, the retained evidence, and the accepted history.
`ForkMarked` stands apart, because one path of the reducer raises the fork
sequence without retaining a marked observation.  Together they give both
validations.
-/

namespace RatifyProtocol.V2

open Foundation

variable (P : Primitives)

/-- The issuer, epoch and key a state is bound to, and the keys it retired. -/
structure BindingOk (s : RevocationStatusStateV2) : Prop where
  epoch_pos : s.issuerId ≠ "" → 0 < s.statusKeyEpoch
  epoch_le : (s.statusKeyEpoch : Int) ≤ maxSafe
  keyId : s.issuerId ≠ "" → validV2Id s.statusKeyId = true
  retired_sorted : sortedUnique s.retiredStatusKeyIds = s.retiredStatusKeyIds
  retired_other : s.statusKeyId ∉ s.retiredStatusKeyIds
  retired_valid : ∀ k ∈ s.retiredStatusKeyIds, validV2Id k = true

/-- One retained observation of `s`. -/
structure ObservationOk (s : RevocationStatusStateV2) (o : RevocationObservationV2) : Prop where
  sequence_pos : 0 < o.sequence
  sequence_le : o.sequence ≤ maxSafe
  keyId : validV2Id o.statusKeyId = true
  objectType : o.objectType = LIST ∨ o.objectType = PUSH
  evidence : o.evidenceDigest.length = 48
  body : o.bodyDigest.length = 48
  revokedSet : o.revokedSetDigest.length = 48
  distinct : o.revokedCertIds.Nodup
  nonempty : ∀ id ∈ o.revokedCertIds, id ≠ ""
  epoch_le : o.statusKeyEpoch ≤ s.statusKeyEpoch
  observed : o.statusKeyEpoch = s.statusKeyEpoch → o.sequence ≤ s.maxObservedSequence
  denied : ∀ id ∈ o.revokedCertIds, id ∈ s.denyUnionCertIds

/-- Two different sightings of pushes never share their signed body. -/
def PushesDiffer (a b : RevocationObservationV2) : Prop :=
  ¬ (a.objectType = PUSH ∧ b.objectType = PUSH ∧ a.statusKeyEpoch = b.statusKeyEpoch ∧
    a.sequence = b.sequence ∧ a.bodyDigest = b.bodyDigest)

/-- At most one accepted push per sequence. -/
def AcceptedDiffer (a b : RevocationObservationV2) : Prop :=
  ¬ (a.objectType = PUSH ∧ b.objectType = PUSH ∧ a.statusKeyEpoch = b.statusKeyEpoch ∧
    a.sequence = b.sequence ∧ a.accepted = true ∧ b.accepted = true)

/-- The retained observations, the deny union they witness and the high-water marks. -/
structure EvidenceOk (s : RevocationStatusStateV2) : Prop where
  observations : ∀ o ∈ s.observations, ObservationOk s o
  pushes : s.observations.Pairwise PushesDiffer
  accepted : s.observations.Pairwise AcceptedDiffer
  accepted_le : ∀ o ∈ s.observations, o.statusKeyEpoch = s.statusKeyEpoch →
    o.accepted = true → o.sequence ≤ s.floor
  deny_sorted : sortedUnique s.denyUnionCertIds = s.denyUnionCertIds
  witnessed : ∀ id ∈ s.denyUnionCertIds, ∃ o ∈ s.observations, id ∈ o.revokedCertIds
  max_nonneg : 0 ≤ s.maxObservedSequence
  max_le : s.maxObservedSequence ≤ maxSafe
  floor_le : s.floor ≤ s.maxObservedSequence
  fork_nonneg : 0 ≤ s.forkSequence
  fork_le : s.forkSequence ≤ s.maxObservedSequence
  fork_open : 0 < s.forkSequence → s.reconciliationRequired = true
  future_open : s.futureDatedObjectObserved = true → s.reconciliationRequired = true

/-- The observation of the accepted snapshot. -/
def IsBase (s : RevocationStatusStateV2) (snap : RevocationListV2) (digest : Bytes)
    (o : RevocationObservationV2) : Prop :=
  o.statusKeyEpoch = s.statusKeyEpoch ∧ o.objectType = LIST ∧ o.sequence = snap.sequence ∧
    o.evidenceDigest = digest ∧ o.accepted = true ∧ o.fork = false ∧ o.futureDated = false

/-- The accepted snapshot, and the pushes that lead from it to the floor. -/
structure AcceptedOk (s : RevocationStatusStateV2) (snap : RevocationListV2) : Prop where
  issuer : snap.issuerId = s.issuerId
  sequence_pos : 0 < snap.sequence
  sequence_le : snap.sequence ≤ s.floor
  base : ∃ digest, statusEvidenceDigestListV2 P snap = .ok digest ∧
    ∃ o ∈ s.observations, IsBase s snap digest o
  contiguous : ∀ n, snap.sequence < n → n ≤ s.floor →
    ∃ o ∈ s.observations, acceptedPushInRange s snap o = true ∧ o.sequence = n
  accepted_ids : ∀ id, id ∈ s.acceptedCertIds ↔ id ∈ revokedIds snap.revoked ∨
    ∃ o ∈ s.observations, acceptedPushInRange s snap o = true ∧ id ∈ o.revokedCertIds

/-- The floor, the accepted history and the preceding checkpoint. -/
structure FloorOk (s : RevocationStatusStateV2) : Prop where
  accepted_sorted : sortedUnique s.acceptedCertIds = s.acceptedCertIds
  preceding_sorted : sortedUnique s.precedingAcceptedCertIds = s.precedingAcceptedCertIds
  preceding_nonneg : 0 ≤ s.precedingFloor
  preceding_le : s.precedingFloor ≤ maxSafe
  preceding_empty : s.precedingFloor = 0 → s.precedingAcceptedCertIds = []
  absent : s.hasFloor = false →
    s.floor = 0 ∧ s.acceptedSnapshot = none ∧ s.acceptedCertIds = []
  present : s.hasFloor = true →
    ∃ snap, s.acceptedSnapshot = some snap ∧ AcceptedOk P s snap

/-- What every reachable state satisfies. -/
structure WellFormed (s : RevocationStatusStateV2) : Prop where
  unbound : s.issuerId = "" → s = {}
  binding : BindingOk s
  evidence : EvidenceOk s
  floor : FloorOk P s

/-- An unresolved fork has a retained observation of the current epoch that
carries the fork mark. -/
def ForkMarked (s : RevocationStatusStateV2) : Prop :=
  0 < s.forkSequence → ∃ o ∈ s.observations, o.statusKeyEpoch = s.statusKeyEpoch ∧ o.fork = true

/-! ## The invariant gives both validations -/

theorem distinctIds_of_sorted {xs : List String} (h : sortedUnique xs = xs) :
    distinctIds xs = true := by
  simp [distinctIds, h]

theorem distinctIds_iff {xs : List String} : distinctIds xs = true ↔ xs.Nodup := by
  simp only [distinctIds, beq_iff_eq, length_sortedUnique_eq_iff]

/-- A bound state validates against its own issuer and epoch; the unbound state
validates against any. -/
theorem validateBinding_of_wellFormed {s : RevocationStatusStateV2} (h : WellFormed P s)
    {issuerId : String} {epoch : Nat}
    (hbound : s.issuerId ≠ "" → issuerId = s.issuerId ∧ epoch = s.statusKeyEpoch)
    (hpos : 0 < epoch) (hle : (epoch : Int) ≤ maxSafe) :
    validateBinding s issuerId epoch = .ok () := by
  have hev := h.evidence
  have hfl := h.floor
  have hfloor_nonneg : 0 ≤ s.floor := by
    cases hf : s.hasFloor with
    | false => simp [(hfl.absent hf).1]
    | true =>
      obtain ⟨snap, -, hacc⟩ := hfl.present hf
      have := hacc.sequence_pos
      have := hacc.sequence_le
      omega
  have hmax := hev.max_nonneg
  have hmaxle := hev.max_le
  have hforkle := hev.fork_le
  simp only [validateBinding, refuseIf_bind_eq_ok_iff, refuseIf_eq_ok_iff]
  refine ⟨?_, ?_, ?_, ?_, ?_, ?_, ?_, ?_, ?_, ?_⟩
  · by_cases hi : s.issuerId = ""
    · simp [hi]
    · simp [(hbound hi).1]
  · by_cases hi : s.issuerId = ""
    · simp [hi]
    · simp [(hbound hi).2]
  · have := hev.fork_nonneg
    simp only [Bool.or_eq_false_iff, decide_eq_false_iff_not, not_lt]
    exact ⟨⟨hfloor_nonneg, hmax⟩, this⟩
  · simp only [Bool.or_eq_false_iff, decide_eq_false_iff_not, not_lt,
      distinctIds_of_sorted hfl.preceding_sorted, Bool.not_true, and_true]
    refine ⟨⟨hfl.preceding_nonneg, hfl.preceding_le⟩, ?_⟩
    by_cases hp : s.precedingFloor = 0
    · simp [hfl.preceding_empty hp]
    · simp [hp]
  · cases hf : s.hasFloor with
    | false => rfl
    | true =>
      obtain ⟨snap, hsnap, hacc⟩ := hfl.present hf
      have h₁ := hacc.sequence_pos
      have h₂ := hacc.sequence_le
      have h₃ := hev.floor_le
      simp only [hsnap, Option.all_some, Bool.true_and, Bool.or_eq_false_iff,
        beq_eq_false_iff_ne, ne_eq, decide_eq_false_iff_not, not_lt, not_le]
      exact ⟨⟨by omega, by omega⟩, h₁, h₂⟩
  · cases hf : s.hasFloor with
    | true => rfl
    | false =>
      obtain ⟨h₁, h₂, h₃⟩ := hfl.absent hf
      simp [h₁, h₂, h₃]
  · simp only [Bool.or_eq_false_iff, decide_eq_false_iff_not, not_lt, beq_eq_false_iff_ne]
    exact ⟨⟨⟨hmaxle, by omega⟩, by omega⟩, hle⟩
  · by_cases hi : s.issuerId = ""
    · simp [hi]
    · simp [h.binding.keyId hi]
  · simp [distinctIds_of_sorted h.binding.retired_sorted, h.binding.retired_other]
  · simp only [List.any_eq_false, Bool.not_eq_true', Bool.not_eq_false]
    intro k hk
    simp [h.binding.retired_valid k hk]

theorem validateObservation_of_ok {s : RevocationStatusStateV2} {o : RevocationObservationV2}
    (h : ObservationOk s o) : validateObservation s o = .ok () := by
  simp only [validateObservation, refuseIf_bind_eq_ok_iff, refuseIf_eq_ok_iff]
  refine ⟨?_, ?_, ?_, ?_⟩
  · simp only [Bool.or_eq_false_iff, decide_eq_false_iff_not, not_le, not_lt, h.keyId,
      Bool.not_true, bne_eq_false_iff_eq, h.evidence, h.body, h.revokedSet,
      distinctIds_iff.mpr h.distinct, and_true]
    refine ⟨⟨h.sequence_pos, h.sequence_le⟩, ?_⟩
    rcases h.objectType with ht | ht <;> simp [ht]
  · rw [List.any_eq_false]
    intro id hid
    simpa using h.nonempty id hid
  · by_cases he : o.statusKeyEpoch = s.statusKeyEpoch
    · have := h.observed he
      simp [he, this]
    · simp [he]
  · have : containsAll s.denyUnionCertIds o.revokedCertIds = true :=
      containsAll_iff.mpr h.denied
    simp [this]

theorem validateObservations_of_ok {s : RevocationStatusStateV2}
    {obs : List RevocationObservationV2} (h : ∀ o ∈ obs, ObservationOk s o) :
    validateObservations s obs = .ok () := by
  induction obs with
  | nil => rfl
  | cons o obs ih =>
    rw [validateObservations, validateObservation_of_ok (h o (by simp)), ok_bind]
    exact ih fun o' ho' => h o' (by simp [ho'])

/-- A strictly ascending list of observations that covers `(a, b]` walks from `a` to `b`. -/
theorem walkPushes_of_cover {obs : List RevocationObservationV2} {a b : Int} (hab : a ≤ b)
    (hb : b ≤ maxSafe) (hsorted : obs.Pairwise fun x y => x.sequence < y.sequence)
    (hrange : ∀ o ∈ obs, a < o.sequence ∧ o.sequence ≤ b)
    (hcover : ∀ n, a < n → n ≤ b → ∃ o ∈ obs, o.sequence = n) :
    walkPushes a obs = .ok b := by
  induction obs generalizing a with
  | nil =>
    have : ¬ a < b := by
      intro hlt
      obtain ⟨o, ho, -⟩ := hcover (a + 1) (by omega) (by omega)
      simp at ho
    rw [walkPushes, le_antisymm hab (by omega)]
  | cons o obs ih =>
    obtain ⟨hfirst, hrest⟩ := List.pairwise_cons.mp hsorted
    have ho := hrange o (by simp)
    have hseq : o.sequence = a + 1 := by
      obtain ⟨o', ho', hn⟩ := hcover (a + 1) (by omega) (by omega)
      rcases List.mem_cons.mp ho' with rfl | ho'
      · exact hn
      · have := hfirst o' ho'
        omega
    rw [walkPushes, refuseIf_bind_eq_ok_iff]
    refine ⟨?_, ?_⟩
    · simp only [Bool.or_eq_false_iff, decide_eq_false_iff_not, not_le, bne_eq_false_iff_eq]
      exact ⟨by omega, hseq⟩
    · refine ih (by omega) hrest ?_ ?_
      · intro o' ho'
        exact ⟨hfirst o' ho', (hrange o' (by simp [ho'])).2⟩
      · intro n hn hnb
        obtain ⟨o', ho', hn'⟩ := hcover n (by omega) hnb
        rcases List.mem_cons.mp ho' with rfl | ho'
        · omega
        · exact ⟨o', ho', hn'⟩

theorem acceptedPushInRange_iff {s : RevocationStatusStateV2} {snap : RevocationListV2}
    {o : RevocationObservationV2} :
    acceptedPushInRange s snap o = true ↔
      o.statusKeyEpoch = s.statusKeyEpoch ∧ o.objectType = PUSH ∧ o.accepted = true ∧
        snap.sequence < o.sequence ∧ o.sequence ≤ s.floor := by
  simp [acceptedPushInRange, and_assoc]

/-- The accepted pushes in range, sorted by sequence, ascend strictly. -/
theorem pairwise_sorted_pushes {s : RevocationStatusStateV2} {snap : RevocationListV2}
    (h : s.observations.Pairwise AcceptedDiffer) :
    ((s.observations.filter (acceptedPushInRange s snap)).insertionSort
      fun a b => a.sequence ≤ b.sequence).Pairwise fun x y => x.sequence < y.sequence := by
  have hne : (s.observations.filter (acceptedPushInRange s snap)).Pairwise
      fun x y => x.sequence ≠ y.sequence := by
    refine (List.Pairwise.filter _ h).imp_of_mem ?_
    intro a b ha hb hdiff heq
    obtain ⟨h₁, h₂, h₃, -⟩ := acceptedPushInRange_iff.mp (List.mem_filter.mp ha).2
    obtain ⟨h₁', h₂', h₃', -⟩ := acceptedPushInRange_iff.mp (List.mem_filter.mp hb).2
    exact hdiff ⟨h₂, h₂', h₁.trans h₁'.symm, heq, h₃, h₃'⟩
  have hne' := (List.perm_insertionSort (fun a b : RevocationObservationV2 =>
    a.sequence ≤ b.sequence) _).symm.pairwise hne fun h => Ne.symm h
  have hle := List.pairwise_insertionSort (fun a b : RevocationObservationV2 =>
    a.sequence ≤ b.sequence) (s.observations.filter (acceptedPushInRange s snap))
  exact (hle.and hne').imp fun h => lt_of_le_of_ne h.1 h.2

theorem hasAcceptedObservation_of_base {s : RevocationStatusStateV2} {snap : RevocationListV2}
    {digest : Bytes} {o : RevocationObservationV2} (ho : o ∈ s.observations)
    (h : IsBase s snap digest o) :
    hasAcceptedObservation s.observations s.statusKeyEpoch LIST snap.sequence digest = true := by
  obtain ⟨h₁, h₂, h₃, h₄, h₅, h₆, h₇⟩ := h
  exact List.any_eq_true.mpr ⟨o, ho, by simp [h₁, h₂, h₃, h₄, h₅, h₆, h₇]⟩

theorem validateAcceptedHistory_of_ok {s : RevocationStatusStateV2} {snap : RevocationListV2}
    (h : AcceptedOk P s snap) (hev : EvidenceOk s) :
    validateAcceptedHistory P s snap = .ok () := by
  obtain ⟨digest, hdigest, o, ho, hbase⟩ := h.base
  have hmax := hev.max_le
  have hfl := hev.floor_le
  have hwalk : walkPushes snap.sequence ((s.observations.filter
      (acceptedPushInRange s snap)).insertionSort fun a b => a.sequence ≤ b.sequence)
      = .ok s.floor := by
    refine walkPushes_of_cover h.sequence_le (by omega)
      (pairwise_sorted_pushes hev.accepted) ?_ ?_
    · intro p hp
      have hp := (List.mem_filter.mp ((List.perm_insertionSort _ _).mem_iff.mp hp)).2
      exact (acceptedPushInRange_iff.mp hp).2.2.2
    · intro n hn hnb
      obtain ⟨p, hp, hin, hseq⟩ := h.contiguous n hn hnb
      exact ⟨p, (List.perm_insertionSort _ _).mem_iff.mpr (List.mem_filter.mpr ⟨hp, hin⟩), hseq⟩
  simp only [validateAcceptedHistory, refuseIf_bind_eq_ok_iff, hdigest, ok_bind,
    hasAcceptedObservation_of_base ho hbase, Bool.not_true, true_and, hwalk]
  refine ⟨?_, ?_, ?_⟩
  · simp [h.issuer, h.sequence_le]
  · simp
  · rw [refuseIf_eq_ok_iff, Bool.not_eq_false', equalSets_iff]
    intro id
    rw [h.accepted_ids, List.mem_append, List.mem_flatMap]
    simp only [List.mem_filter, and_assoc]

theorem validateAcceptedState_of_wellFormed {s : RevocationStatusStateV2} (h : WellFormed P s)
    (hfork : ForkMarked s) : validateAcceptedState P s = .ok () := by
  have hev := h.evidence
  have hwit : containsAll (s.observations.flatMap (·.revokedCertIds)) s.denyUnionCertIds
      = true := by
    rw [containsAll_iff]
    intro id hid
    exact List.mem_flatMap.mpr (hev.witnessed id hid)
  simp only [validateAcceptedState, refuseIf_bind_eq_ok_iff,
    validateObservations_of_ok hev.observations, ok_bind, hwit, Bool.not_true, true_and,
    distinctIds_of_sorted hev.deny_sorted, distinctIds_of_sorted h.floor.accepted_sorted,
    Bool.or_self]
  refine ⟨?_, ?_, ?_⟩
  · by_cases hpos : 0 < s.forkSequence
    · obtain ⟨o, ho, hep, hf⟩ := hfork hpos
      have hany : (s.observations.any fun o => o.statusKeyEpoch == s.statusKeyEpoch && o.fork)
          = true := List.any_eq_true.mpr ⟨o, ho, by simp [hep, hf]⟩
      rw [hany, hev.fork_open hpos]
      simp
    · simp [hpos]
  · have := hev.floor_le
    simp [this]
  · cases hf : s.hasFloor with
    | false => rfl
    | true =>
      obtain ⟨snap, hsnap, hacc⟩ := h.floor.present hf
      simp only [Bool.not_true, Bool.false_eq_true, ↓reduceIte, hsnap]
      exact validateAcceptedHistory_of_ok P hacc hev

/-- The state before any step satisfies the invariant. -/
theorem wellFormed_default : WellFormed P {} where
  unbound := fun _ => rfl
  binding := by constructor <;> simp [maxSafe]
  evidence := by constructor <;> simp [maxSafe]
  floor := by constructor <;> simp [maxSafe]

theorem forkMarked_default : ForkMarked {} := by
  simp [ForkMarked]

end RatifyProtocol.V2
