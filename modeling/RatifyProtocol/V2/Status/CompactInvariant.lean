import Mathlib.Data.List.Pairwise
import RatifyProtocol.V2.Status.CompactSpec
import RatifyProtocol.V2.Status.Invariant
set_option autoImplicit false

/-!
# Status: compaction keeps the invariant

Every clause of `WellFormed` survives `compact`, and so does the fork marker.
Pushes never merge, because no two retained pushes share a signed body, so the
accepted history keeps its pushes one by one.
-/

namespace RatifyProtocol.V2

open Foundation

variable (P : Primitives)

/-! ## Fields compaction leaves alone -/

@[simp] theorem compact_issuerId (s : RevocationStatusStateV2) :
    (compact P s).issuerId = s.issuerId := rfl
@[simp] theorem compact_statusKeyEpoch (s : RevocationStatusStateV2) :
    (compact P s).statusKeyEpoch = s.statusKeyEpoch := rfl
@[simp] theorem compact_statusKeyId (s : RevocationStatusStateV2) :
    (compact P s).statusKeyId = s.statusKeyId := rfl
@[simp] theorem compact_hasFloor (s : RevocationStatusStateV2) :
    (compact P s).hasFloor = s.hasFloor := rfl
@[simp] theorem compact_floor (s : RevocationStatusStateV2) :
    (compact P s).floor = s.floor := rfl
@[simp] theorem compact_acceptedSnapshot (s : RevocationStatusStateV2) :
    (compact P s).acceptedSnapshot = s.acceptedSnapshot := rfl
@[simp] theorem compact_hasPrecedingCheckpoint (s : RevocationStatusStateV2) :
    (compact P s).hasPrecedingCheckpoint = s.hasPrecedingCheckpoint := rfl
@[simp] theorem compact_precedingFloor (s : RevocationStatusStateV2) :
    (compact P s).precedingFloor = s.precedingFloor := rfl
@[simp] theorem compact_maxObservedSequence (s : RevocationStatusStateV2) :
    (compact P s).maxObservedSequence = s.maxObservedSequence := rfl
@[simp] theorem compact_forkSequence (s : RevocationStatusStateV2) :
    (compact P s).forkSequence = s.forkSequence := rfl
@[simp] theorem compact_reconciliationRequired (s : RevocationStatusStateV2) :
    (compact P s).reconciliationRequired = s.reconciliationRequired := rfl
@[simp] theorem compact_futureDatedObjectObserved (s : RevocationStatusStateV2) :
    (compact P s).futureDatedObjectObserved = s.futureDatedObjectObserved := rfl
@[simp] theorem compact_denyUnionCertIds (s : RevocationStatusStateV2) :
    (compact P s).denyUnionCertIds = sortedUnique s.denyUnionCertIds := rfl
@[simp] theorem compact_acceptedCertIds (s : RevocationStatusStateV2) :
    (compact P s).acceptedCertIds = sortedUnique s.acceptedCertIds := rfl
@[simp] theorem compact_precedingAcceptedCertIds (s : RevocationStatusStateV2) :
    (compact P s).precedingAcceptedCertIds = sortedUnique s.precedingAcceptedCertIds := rfl
@[simp] theorem compact_retiredStatusKeyIds (s : RevocationStatusStateV2) :
    (compact P s).retiredStatusKeyIds = sortedUnique s.retiredStatusKeyIds := rfl

theorem compact_observations (s : RevocationStatusStateV2) :
    (compact P s).observations = (compactEntries P s).map Prod.snd := by
  rw [compact_eq]

theorem mem_compact_observations {s : RevocationStatusStateV2} {r : RevocationObservationV2} :
    r ∈ (compact P s).observations ↔ ∃ e ∈ compactEntries P s, e.2 = r := by
  rw [compact_observations, List.mem_map]

/-! ## Keys and groups -/

variable {P}
variable {s : RevocationStatusStateV2}

theorem semanticKey_eq_iff {a b : RevocationObservationV2} :
    semanticKey a = semanticKey b ↔
      a.statusKeyEpoch = b.statusKeyEpoch ∧ a.objectType = b.objectType ∧
        a.sequence = b.sequence ∧
        (if a.objectType == LIST then a.revokedSetDigest else a.bodyDigest)
          = (if b.objectType == LIST then b.revokedSetDigest else b.bodyDigest) ∧
        a.futureDated = b.futureDated ∧ a.fork = b.fork := by
  simp [semanticKey]

instance : Std.Symm PushesDiffer where
  symm := by
    rintro a b h ⟨h₁, h₂, h₃, h₄, h₅⟩
    exact h ⟨h₂, h₁, h₃.symm, h₄.symm, h₅.symm⟩

instance : Std.Symm AcceptedDiffer where
  symm := by
    rintro a b h ⟨h₁, h₂, h₃, h₄, h₅, h₆⟩
    exact h ⟨h₂, h₁, h₃.symm, h₄.symm, h₆, h₅⟩

/-- Two retained pushes with one signed body are the same observation. -/
theorem push_eq_of_body (h : EvidenceOk s) {a b : RevocationObservationV2}
    (ha : a ∈ s.observations) (hb : b ∈ s.observations) (hta : a.objectType = PUSH)
    (htb : b.objectType = PUSH) (hep : a.statusKeyEpoch = b.statusKeyEpoch)
    (hseq : a.sequence = b.sequence) (hbody : a.bodyDigest = b.bodyDigest) : a = b := by
  by_contra hne
  exact h.pushes.forall ha hb hne ⟨hta, htb, hep, hseq, hbody⟩

theorem push_eq_of_key (h : EvidenceOk s) {a b : RevocationObservationV2}
    (ha : a ∈ s.observations) (hb : b ∈ s.observations) (hta : a.objectType = PUSH)
    (hk : semanticKey a = semanticKey b) : a = b := by
  obtain ⟨h₁, h₂, h₃, h₄, -, -⟩ := semanticKey_eq_iff.mp hk
  have htb : b.objectType = PUSH := h₂ ▸ hta
  refine push_eq_of_body h ha hb hta htb h₁ h₃ ?_
  simpa [hta, htb, show ¬ PUSH = LIST by decide] using h₄

/-- The members of the group of an entry share what the key records. -/
theorem Represents.member {base : Bytes} {k : SemanticKey} {g : List RevocationObservationV2}
    {r o : RevocationObservationV2} (h : Represents s base k g r) (ho : o ∈ g) :
    r.objectType = o.objectType ∧ r.statusKeyEpoch = o.statusKeyEpoch ∧
      r.sequence = o.sequence ∧ r.fork = o.fork := by
  have hk := h.key o ho
  refine ⟨?_, ?_, ?_, ?_⟩
  · rw [h.objectType, ← hk]; rfl
  · rw [h.epoch, ← hk]; rfl
  · rw [h.sequence, ← hk]; rfl
  · rw [h.fork, ← hk]; rfl

/-- An accepted entry of a push comes from an accepted push. -/
theorem Represents.accepted_push {base : Bytes} {k : SemanticKey}
    {g : List RevocationObservationV2} {r : RevocationObservationV2}
    (h : Represents s base k g r) (hacc : r.accepted = true) (ht : r.objectType = PUSH) :
    ∃ o ∈ g, o.accepted = true := by
  obtain ⟨o, ho, hao | hbo⟩ := h.accepted_of hacc
  · exact ⟨o, ho, hao⟩
  · have := (acceptedBase_iff.mp hbo).2.2.1
    rw [← (h.member ho).1, ht] at this
    exact absurd this (by decide)

theorem baseDigest_of_snapshot {snap : RevocationListV2} {digest : Bytes}
    (hsnap : s.acceptedSnapshot = some snap)
    (hd : statusEvidenceDigestListV2 P snap = .ok digest) : baseDigest P s = digest := by
  simp [baseDigest, hsnap, hd]

theorem length_statusEvidenceDigest {l : RevocationListV2} {digest : Bytes}
    (h : statusEvidenceDigestListV2 P l = .ok digest) : digest.length = 48 := by
  simp only [statusEvidenceDigestListV2, bind_eq_ok_iff] at h
  obtain ⟨b, -, h⟩ := h
  obtain rfl := Except.ok.inj h
  exact P.length_sha384 _

theorem length_statusEvidenceDigestPush {p : RevocationPushV2} {digest : Bytes}
    (h : statusEvidenceDigestPushV2 P p = .ok digest) : digest.length = 48 := by
  simp only [statusEvidenceDigestPushV2, bind_eq_ok_iff] at h
  obtain ⟨b, -, h⟩ := h
  obtain rfl := Except.ok.inj h
  exact P.length_sha384 _

/-- The snapshot's own observation counts as the base of compaction. -/
theorem acceptedBase_of_isBase {snap : RevocationListV2} {digest : Bytes}
    {o : RevocationObservationV2} (hsnap : s.acceptedSnapshot = some snap)
    (hd : statusEvidenceDigestListV2 P snap = .ok digest) (h : IsBase s snap digest o) :
    acceptedBase s (baseDigest P s) o = true := by
  obtain ⟨h₁, h₂, h₃, h₄, -⟩ := h
  rw [baseDigest_of_snapshot hsnap hd, acceptedBase_iff]
  refine ⟨?_, h₁, h₂, by simp [hsnap, h₃], h₄⟩
  intro hnil
  have := length_statusEvidenceDigest hd
  simp [hnil] at this

/-! ## Every clause survives -/

theorem BindingOk.compact (h : BindingOk s) : BindingOk (compact P s) where
  epoch_pos := h.epoch_pos
  epoch_le := h.epoch_le
  keyId := h.keyId
  retired_sorted := by simp
  retired_other := by simpa using h.retired_other
  retired_valid := by simpa using h.retired_valid

theorem ObservationOk.compact {base : Bytes} {k : SemanticKey}
    {g : List RevocationObservationV2} {r : RevocationObservationV2}
    (h : ∀ o ∈ g, ObservationOk s o) (hrep : Represents s base k g r)
    (hsorted : sortedUnique r.revokedCertIds = r.revokedCertIds) :
    ObservationOk (compact P s) r := by
  obtain ⟨o, ho, hkey, hbody, hset⟩ := hrep.origin
  obtain ⟨o', ho', hev⟩ := hrep.evidence
  obtain ⟨ht, hep, hseq, -⟩ := hrep.member ho
  have hok := h o ho
  constructor
  · rw [hseq]; exact hok.sequence_pos
  · rw [hseq]; exact hok.sequence_le
  · rw [hkey]; exact hok.keyId
  · rw [ht]; exact hok.objectType
  · rw [hev]; exact (h o' ho').evidence
  · rw [hbody]; exact hok.body
  · rw [hset]; exact hok.revokedSet
  · exact hsorted ▸ nodup_sortedUnique _
  · intro id hid
    obtain ⟨x, hx, hmem⟩ := hrep.ids_of id hid
    exact (h x hx).nonempty id hmem
  · rw [hep]; exact hok.epoch_le
  · rw [hep, hseq]; exact hok.observed
  · intro id hid
    obtain ⟨x, hx, hmem⟩ := hrep.ids_of id hid
    simpa using (h x hx).denied id hmem

/-- A relation that holds between the entries of different keys holds pairwise. -/
theorem pairwise_compact {R : RevocationObservationV2 → RevocationObservationV2 → Prop}
    (h : ∀ a ∈ compactEntries P s, ∀ b ∈ compactEntries P s, a.1 ≠ b.1 → R a.2 b.2) :
    (compact P s).observations.Pairwise R := by
  rw [compact_observations, List.pairwise_map]
  have hkeys := (compactionOf_compactEntries P s).keys
  rw [List.Nodup, List.pairwise_map] at hkeys
  exact hkeys.imp_of_mem fun ha hb hne => h _ ha _ hb hne

theorem EvidenceOk.compact (h : EvidenceOk s)
    (hbase : ∀ snap, s.acceptedSnapshot = some snap → snap.sequence ≤ s.floor) :
    EvidenceOk (compact P s) := by
  have hc := compactionOf_compactEntries P s
  constructor
  · intro r hr
    obtain ⟨e, he, rfl⟩ := (mem_compact_observations P).mp hr
    obtain ⟨g, hrep, hg, -⟩ := hc.group he
    exact .compact (fun o ho => h.observations o (hg o ho)) hrep (hc.sorted e he)
  · refine pairwise_compact fun a ha b hb hne => ?_
    rintro ⟨hta, htb, hep, hseq, hbody⟩
    obtain ⟨ga, hra, hga, -⟩ := hc.group ha
    obtain ⟨gb, hrb, hgb, -⟩ := hc.group hb
    obtain ⟨oa, hoa, -, hba, -⟩ := hra.origin
    obtain ⟨ob, hob, -, hbb, -⟩ := hrb.origin
    obtain ⟨h₁, h₂, h₃, -⟩ := hra.member hoa
    obtain ⟨h₁', h₂', h₃', -⟩ := hrb.member hob
    have heq := push_eq_of_body h (hga oa hoa) (hgb ob hob) (h₁ ▸ hta) (h₁' ▸ htb)
      (by rw [← h₂, ← h₂', hep]) (by rw [← h₃, ← h₃', hseq]) (by rw [← hba, ← hbb, hbody])
    exact hne (by rw [← hra.key oa hoa, ← hrb.key ob hob, heq])
  · refine pairwise_compact fun a ha b hb hne => ?_
    rintro ⟨hta, htb, hep, hseq, hacca, haccb⟩
    obtain ⟨ga, hra, hga, -⟩ := hc.group ha
    obtain ⟨gb, hrb, hgb, -⟩ := hc.group hb
    obtain ⟨oa, hoa, haa⟩ := hra.accepted_push hacca hta
    obtain ⟨ob, hob, hab⟩ := hrb.accepted_push haccb htb
    obtain ⟨h₁, h₂, h₃, -⟩ := hra.member hoa
    obtain ⟨h₁', h₂', h₃', -⟩ := hrb.member hob
    have hdiff : oa ≠ ob := by
      rintro rfl
      exact hne (by rw [← hra.key oa hoa, ← hrb.key oa hob])
    exact h.accepted.forall (hga oa hoa) (hgb ob hob) hdiff
      ⟨h₁ ▸ hta, h₁' ▸ htb, by rw [← h₂, ← h₂', hep], by rw [← h₃, ← h₃', hseq], haa, hab⟩
  · intro r hr hep hacc
    obtain ⟨e, he, rfl⟩ := (mem_compact_observations P).mp hr
    obtain ⟨g, hrep, hg, -⟩ := hc.group he
    obtain ⟨o, ho, hao | hbo⟩ := hrep.accepted_of hacc
    · obtain ⟨-, h₂, h₃, -⟩ := hrep.member ho
      rw [h₃]
      exact h.accepted_le o (hg o ho) (h₂ ▸ hep) hao
    · obtain ⟨-, -, h₃, -⟩ := hrep.member ho
      have hmap := (acceptedBase_iff.mp hbo).2.2.2.1
      obtain ⟨snap, hsnap, hs⟩ := Option.map_eq_some_iff.mp hmap
      rw [h₃, ← hs]
      exact hbase snap hsnap
  · simp
  · intro id hid
    obtain ⟨o, ho, hmem⟩ := h.witnessed id (by simpa using hid)
    obtain ⟨e, he, hin⟩ := (hc.ids id).mpr ⟨o, ho, hmem⟩
    exact ⟨e.2, (mem_compact_observations P).mpr ⟨e, he, rfl⟩, hin⟩
  · exact h.max_nonneg
  · exact h.max_le
  · exact h.floor_le
  · exact h.fork_nonneg
  · exact h.fork_le
  · exact h.fork_open
  · exact h.future_open

/-- Every accepted push in range keeps an entry of its own with all its IDs. -/
theorem exists_compact_push {snap : RevocationListV2} (hs : s.acceptedSnapshot = some snap)
    {o : RevocationObservationV2} (ho : o ∈ s.observations)
    (hin : acceptedPushInRange s snap o = true) :
    ∃ r ∈ (compact P s).observations, acceptedPushInRange s snap r = true ∧
      r.sequence = o.sequence ∧ ∀ id ∈ o.revokedCertIds, id ∈ r.revokedCertIds := by
  have hc := compactionOf_compactEntries P s
  obtain ⟨e, he, -, g, hrep, hog, -⟩ := hc.entry ho
  obtain ⟨h₁, h₂, h₃, -⟩ := hrep.member hog
  obtain ⟨i₁, i₂, i₃, i₄, i₅⟩ := acceptedPushInRange_iff.mp hin
  refine ⟨e.2, (mem_compact_observations P).mpr ⟨e, he, rfl⟩, ?_, h₃, ?_⟩
  · exact acceptedPushInRange_iff.mpr ⟨h₂.trans i₁, h₁.trans i₂, hrep.accepted_to ⟨o, hog, i₃⟩,
      h₃ ▸ i₄, h₃ ▸ i₅⟩
  · refine hrep.ids_to o hog (.inr ?_)
    simp [mustRetain, i₁, hs, i₂, i₃, i₄, i₅]

/-- An accepted push in range after compaction was one before, with the same IDs. -/
theorem exists_push_of_compact (h : EvidenceOk s) {snap : RevocationListV2}
    {r : RevocationObservationV2} (hr : r ∈ (compact P s).observations)
    (hin : acceptedPushInRange s snap r = true) :
    ∃ o ∈ s.observations, acceptedPushInRange s snap o = true ∧ o.sequence = r.sequence ∧
      ∀ id ∈ r.revokedCertIds, id ∈ o.revokedCertIds := by
  have hc := compactionOf_compactEntries P s
  obtain ⟨e, he, rfl⟩ := (mem_compact_observations P).mp hr
  obtain ⟨g, hrep, hg, -⟩ := hc.group he
  obtain ⟨i₁, i₂, i₃, i₄, i₅⟩ := acceptedPushInRange_iff.mp hin
  obtain ⟨o, ho, hao⟩ := hrep.accepted_push i₃ i₂
  obtain ⟨h₁, h₂, h₃, -⟩ := hrep.member ho
  refine ⟨o, hg o ho, ?_, h₃.symm, ?_⟩
  · exact acceptedPushInRange_iff.mpr ⟨h₂ ▸ i₁, h₁ ▸ i₂, hao, h₃ ▸ i₄, h₃ ▸ i₅⟩
  · intro id hid
    obtain ⟨x, hx, hmem⟩ := hrep.ids_of id hid
    have : o = x := push_eq_of_key h (hg o ho) (hg x hx) (h₁ ▸ i₂)
      (by rw [hrep.key o ho, hrep.key x hx])
    exact this ▸ hmem

theorem AcceptedOk.compact {snap : RevocationListV2} (h : AcceptedOk P s snap)
    (hev : EvidenceOk s) (hsnap : s.acceptedSnapshot = some snap) :
    AcceptedOk P (compact P s) snap := by
  have hc := compactionOf_compactEntries P s
  constructor
  · exact h.issuer
  · exact h.sequence_pos
  · exact h.sequence_le
  · obtain ⟨digest, hd, o, ho, hbase⟩ := h.base
    obtain ⟨e, he, hk, g, hrep, hog, -⟩ := hc.entry ho
    obtain ⟨m₁, m₂, m₃, m₄⟩ := hrep.member hog
    have hab := acceptedBase_of_isBase hsnap hd hbase
    obtain ⟨h₁, h₂, h₃, -, h₅, h₆, h₇⟩ := hbase
    refine ⟨digest, hd, e.2, (mem_compact_observations P).mpr ⟨e, he, rfl⟩, m₂.trans h₁,
      m₁.trans h₂, m₃.trans h₃, ?_, hrep.accepted_to ⟨o, hog, h₅⟩, m₄.trans h₆, ?_⟩
    · rw [hrep.evidence_base ⟨o, hog, hab⟩, baseDigest_of_snapshot hsnap hd]
    · cases hf : e.2.futureDated with
      | false => rfl
      | true =>
        have := hrep.future_of hf
        rw [hk] at this
        exact absurd (h₇ ▸ this : false = true) (by decide)
  · intro n hn hnf
    obtain ⟨o, ho, hin, hseq⟩ := h.contiguous n hn hnf
    obtain ⟨r, hr, hin', hseq', -⟩ := exists_compact_push (P := P) hsnap ho hin
    exact ⟨r, hr, hin', hseq'.trans hseq⟩
  · intro id
    rw [compact_acceptedCertIds, mem_sortedUnique, h.accepted_ids]
    constructor
    · rintro (hid | ⟨o, ho, hin, hid⟩)
      · exact .inl hid
      · obtain ⟨r, hr, hin', -, hids⟩ := exists_compact_push (P := P) hsnap ho hin
        exact .inr ⟨r, hr, hin', hids id hid⟩
    · rintro (hid | ⟨r, hr, hin, hid⟩)
      · exact .inl hid
      · obtain ⟨o, ho, hin', -, hids⟩ := exists_push_of_compact hev hr hin
        exact .inr ⟨o, ho, hin', hids id hid⟩

theorem FloorOk.compact (h : FloorOk P s) (hev : EvidenceOk s) : FloorOk P (compact P s) where
  accepted_sorted := by simp
  preceding_sorted := by simp
  preceding_nonneg := h.preceding_nonneg
  preceding_le := h.preceding_le
  preceding_empty := fun hz => by simp [h.preceding_empty hz]
  absent := fun hf => by
    obtain ⟨h₁, h₂, h₃⟩ := h.absent hf
    exact ⟨h₁, h₂, by simp [h₃]⟩
  present := fun hf => by
    obtain ⟨snap, hsnap, hacc⟩ := h.present hf
    exact ⟨snap, hsnap, hacc.compact hev hsnap⟩

/-- The snapshot of a well-formed state is at or below its floor. -/
theorem FloorOk.snapshot_le (h : FloorOk P s) {snap : RevocationListV2}
    (hsnap : s.acceptedSnapshot = some snap) : snap.sequence ≤ s.floor := by
  cases hf : s.hasFloor with
  | false => simp [(h.absent hf).2.1] at hsnap
  | true =>
    obtain ⟨snap', hsnap', hacc⟩ := h.present hf
    obtain rfl := Option.some.inj (hsnap.symm.trans hsnap')
    exact hacc.sequence_le

/-- Compaction keeps the invariant of a bound state. -/
theorem WellFormed.compact (h : WellFormed P s) (hbound : s.issuerId ≠ "") :
    WellFormed P (compact P s) where
  unbound := fun he => absurd he hbound
  binding := h.binding.compact
  evidence := h.evidence.compact fun _ hsnap => h.floor.snapshot_le hsnap
  floor := h.floor.compact h.evidence

/-- Compaction keeps a fork marker. -/
theorem ForkMarked.compact (h : ForkMarked s) : ForkMarked (compact P s) := by
  intro hpos
  obtain ⟨o, ho, hep, hfork⟩ := h hpos
  obtain ⟨e, he, -, g, hrep, hog, -⟩ := (compactionOf_compactEntries P s).entry ho
  obtain ⟨-, m₂, -, m₄⟩ := hrep.member hog
  exact ⟨e.2, (mem_compact_observations P).mpr ⟨e, he, rfl⟩, m₂.trans hep, m₄.trans hfork⟩

/-! ## Observations that share no key -/

/-- What compaction leaves of an observation `a` that merges with no other. -/
structure Kept (s : RevocationStatusStateV2) (a c : RevocationObservationV2) : Prop where
  objectType : c.objectType = a.objectType
  epoch : c.statusKeyEpoch = a.statusKeyEpoch
  sequence : c.sequence = a.sequence
  fork : c.fork = a.fork
  evidence : c.evidenceDigest = a.evidenceDigest
  body : c.bodyDigest = a.bodyDigest
  revokedSet : c.revokedSetDigest = a.revokedSetDigest
  futureDated : c.futureDated = a.futureDated
  accepted : s.acceptedSnapshot = none → c.accepted = a.accepted
  ids_of : ∀ id ∈ c.revokedCertIds, id ∈ a.revokedCertIds
  ids_to : mustRetain s a = true → ∀ id ∈ a.revokedCertIds, id ∈ c.revokedCertIds

variable {P : Primitives} {s : RevocationStatusStateV2} {a c : RevocationObservationV2}

theorem Represents.kept {base : Bytes} {k : SemanticKey} {g : List RevocationObservationV2}
    (h : Represents s base k g c) (hg : g = [a]) : Kept s a c := by
  subst hg
  obtain ⟨m₁, m₂, m₃, m₄⟩ := h.member (List.mem_singleton_self a)
  obtain ⟨o, ho, -, hbody, hset⟩ := h.origin
  obtain ⟨o', ho', hev⟩ := h.evidence
  rw [List.mem_singleton.mp ho] at hbody hset
  rw [List.mem_singleton.mp ho'] at hev
  have hkey := h.key a (List.mem_singleton_self a)
  refine ⟨m₁, m₂, m₃, m₄, hev, hbody, hset, ?_, ?_, ?_, ?_⟩
  · rw [Bool.eq_iff_iff]
    constructor
    · intro hf
      have := h.future_of hf
      rwa [← hkey] at this
    · intro hf
      refine (h.future_to (hkey ▸ hf)).resolve_right ?_
      simp
  · intro hnone
    rw [Bool.eq_iff_iff]
    constructor
    · intro hacc
      obtain ⟨x, hx, hor⟩ := h.accepted_of hacc
      rw [List.mem_singleton.mp hx] at hor
      refine hor.resolve_right fun hbase => ?_
      obtain ⟨-, -, -, hs, -⟩ := acceptedBase_iff.mp hbase
      rw [hnone] at hs
      cases hs
    · exact fun hacc => h.accepted_to ⟨a, List.mem_singleton_self a, hacc⟩
  · intro id hid
    obtain ⟨x, hx, hmem⟩ := h.ids_of id hid
    exact List.mem_singleton.mp hx ▸ hmem
  · exact fun hret id hid => h.ids_to a (List.mem_singleton_self a) (.inr hret) id hid

/-- A key no other observation has groups its observation alone. -/
theorem groupOf_eq_singleton {obs : List RevocationObservationV2}
    (h : (obs.map semanticKey).Nodup) (ha : a ∈ obs) : groupOf obs (semanticKey a) = [a] := by
  induction obs with
  | nil => simp at ha
  | cons x obs ih =>
    rw [List.map_cons, List.nodup_cons] at h
    have hcons : groupOf (x :: obs) (semanticKey a)
        = if semanticKey x = semanticKey a then x :: groupOf obs (semanticKey a)
          else groupOf obs (semanticKey a) := by
      simp [groupOf, List.filter_cons]
    rw [hcons]
    rcases List.mem_cons.mp ha with rfl | ha
    · have hempty : groupOf obs (semanticKey a) = [] := by
        refine List.eq_nil_iff_forall_not_mem.mpr fun y hy => h.1 ?_
        obtain ⟨hy, hk⟩ := mem_groupOf.mp hy
        exact hk ▸ List.mem_map_of_mem hy
      rw [if_pos rfl, hempty]
    · have hne : semanticKey x ≠ semanticKey a := fun hk => h.1 (hk ▸ List.mem_map_of_mem ha)
      rw [if_neg hne, ih h.2 ha]

theorem Kept.key (h : Kept s a c) : semanticKey c = semanticKey a := by
  simp only [semanticKey, h.objectType, h.epoch, h.sequence, h.fork, h.body, h.revokedSet,
    h.futureDated]

/-- Compaction keeps observations of different keys one by one. -/
theorem exists_kept (h : (s.observations.map semanticKey).Nodup) :
    (∀ a ∈ s.observations, ∃ c ∈ (compact P s).observations, Kept s a c) ∧
      ∀ c ∈ (compact P s).observations, ∃ a ∈ s.observations, Kept s a c := by
  have hcomp := compactionOf_compactEntries P s
  constructor
  · intro a ha
    obtain ⟨e, he, hk⟩ := List.mem_map.mp (hcomp.cover a ha)
    obtain ⟨g, hrep, hperm⟩ := hcomp.represents e he
    rw [hk, groupOf_eq_singleton h ha] at hperm
    exact ⟨e.2, (mem_compact_observations P).mpr ⟨e, he, rfl⟩,
      hrep.kept (List.perm_singleton.mp hperm)⟩
  · intro c hc
    obtain ⟨e, he, rfl⟩ := (mem_compact_observations P).mp hc
    obtain ⟨g, hrep, hperm⟩ := hcomp.represents e he
    obtain ⟨a, hag, -⟩ := hrep.evidence
    have ha := (mem_groupOf.mp (hperm.mem_iff.mp hag))
    rw [← ha.2, groupOf_eq_singleton h ha.1] at hperm
    exact ⟨a, ha.1, hrep.kept (List.perm_singleton.mp hperm)⟩

theorem nodup_keys_compact (h : (s.observations.map semanticKey).Nodup) :
    ((compact P s).observations.map semanticKey).Nodup := by
  have hcomp := compactionOf_compactEntries P s
  have hkeys : (compactEntries P s).map (fun e => semanticKey e.2)
      = (compactEntries P s).map Prod.fst := by
    refine List.map_congr_left fun e he => ?_
    obtain ⟨g, hrep, hperm⟩ := hcomp.represents e he
    obtain ⟨a, hag, -⟩ := hrep.evidence
    have ha := (mem_groupOf.mp (hperm.mem_iff.mp hag))
    rw [← ha.2, groupOf_eq_singleton h ha.1] at hperm
    rw [(hrep.kept (List.perm_singleton.mp hperm)).key, ha.2]
  rw [compact_observations, List.map_map]
  exact hkeys ▸ hcomp.keys

end RatifyProtocol.V2
