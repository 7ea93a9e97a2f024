import RatifyProtocol.V2.Status.CompactFixed
import RatifyProtocol.V2.Status.ForkMarks
set_option autoImplicit false

/-!
# Status: what compaction of a reachable state keeps

`compact` is idempotent on every reachable state, keeps the evidence a state rests
on, and sees its observations only up to the order within ties of the sort key.  A
reachable state does hold observations that tie, and their order shows.
-/

namespace RatifyProtocol.V2

open Foundation

variable {P : Primitives} {s : RevocationStatusStateV2} {base : Bytes}
  {a b o r : RevocationObservationV2} {c : CompactLoop}
  {seen obs : List RevocationObservationV2}

/-! ## What compaction keeps -/

/-- What compaction of `s` keeps and what its result depends on. -/
structure CompactionLaw (P : Primitives) (s : RevocationStatusStateV2) : Prop where
  idempotent : compact P (compact P s) = compact P s
  fields : compact P s = { canonicalizeState s with observations := (compact P s).observations }
  ids : ∀ id, (∃ o ∈ (compact P s).observations, id ∈ o.revokedCertIds) ↔
    ∃ o ∈ s.observations, id ∈ o.revokedCertIds
  base : ∀ snap, s.acceptedSnapshot = some snap →
    ∃ digest, statusEvidenceDigestListV2 P snap = .ok digest ∧
      ∃ o ∈ (compact P s).observations, IsBase s snap digest o
  pushes : ∀ snap, s.acceptedSnapshot = some snap →
    ∀ o ∈ s.observations, acceptedPushInRange s snap o = true →
      ∃ r ∈ (compact P s).observations, acceptedPushInRange s snap r = true ∧
        r.sequence = o.sequence ∧ r.evidenceDigest = o.evidenceDigest ∧
        r.bodyDigest = o.bodyDigest ∧ r.revokedCertIds = sortedUnique o.revokedCertIds
  fork : (∃ o ∈ s.observations, o.statusKeyEpoch = s.statusKeyEpoch ∧ o.fork = true) →
    ∃ o ∈ (compact P s).observations, o.statusKeyEpoch = s.statusKeyEpoch ∧ o.fork = true
  order : ∀ obs, SameUpToTies InOrder obs s.observations →
    compact P { s with observations := obs } = compact P s

/-- An accepted push in range keeps an entry of its own, with its digests and exactly its IDs. -/
theorem exists_compact_push_whole (hev : EvidenceOk s) {snap : RevocationListV2}
    (hsnap : s.acceptedSnapshot = some snap) (ho : o ∈ s.observations)
    (hin : acceptedPushInRange s snap o = true) :
    ∃ r ∈ (compact P s).observations, acceptedPushInRange s snap r = true ∧
      r.sequence = o.sequence ∧ r.evidenceDigest = o.evidenceDigest ∧
      r.bodyDigest = o.bodyDigest ∧ r.revokedCertIds = sortedUnique o.revokedCertIds := by
  have hc := compactionOf_compactEntries P s
  obtain ⟨e, he, -, g, hrep, hog, hg⟩ := hc.entry ho
  obtain ⟨i₁, i₂, i₃, i₄, i₅⟩ := acceptedPushInRange_iff.mp hin
  have halone : ∀ x ∈ g, x = o := fun x hx => (push_eq_of_key hev ho (hg x hx) i₂
    (by rw [hrep.key o hog, hrep.key x hx])).symm
  obtain ⟨m₁, m₂, m₃, -⟩ := hrep.member hog
  obtain ⟨x, hx, -, hbody, -⟩ := hrep.origin
  obtain ⟨y, hy, hevidence⟩ := hrep.evidence
  refine ⟨e.2, (mem_compact_observations P).mpr ⟨e, he, rfl⟩, ?_, m₃, halone y hy ▸ hevidence,
    halone x hx ▸ hbody, ?_⟩
  · exact acceptedPushInRange_iff.mpr ⟨m₂.trans i₁, m₁.trans i₂, hrep.accepted_to ⟨o, hog, i₃⟩,
      m₃ ▸ i₄, m₃ ▸ i₅⟩
  · rw [← hc.sorted e he]
    refine sortedUnique_congr fun id => ⟨fun hid => ?_, fun hid => ?_⟩
    · obtain ⟨z, hz, hmem⟩ := hrep.ids_of id hid
      exact halone z hz ▸ hmem
    · exact hrep.ids_to o hog (.inr (by simp [mustRetain, i₁, hsnap, i₂, i₃, i₄, i₅])) id hid

/-- The sort and the loop see the observations only up to the order within ties. -/
theorem compact_congr (h : SameUpToTies InOrder obs s.observations) :
    compact P { s with observations := obs } = compact P s := by
  have hsort : obs.insertionSort InOrder = s.observations.insertionSort InOrder :=
    insertionSort_congr h
  have hloop : ∀ t : RevocationStatusStateV2,
      compact P t = canonicalizeState
        { t with
          observations := settleBase t (baseDigest P t)
            (((t.observations.insertionSort InOrder).foldl (compactStep t (baseDigest P t))
              { retained := [], witnessed := [] }).retained.map Prod.snd) } := fun _ => rfl
  rw [hloop s, hloop { s with observations := obs }]
  simp only [hsort]
  rfl

/-- Compaction of every reachable state is idempotent, keeps what a state rests on,
and depends on the observations and the order within ties alone. -/
theorem compactionLaw_of_run {policy : RevocationStatusPolicyV2} {is : List StatusStep}
    (hrun : StatusRun P policy is s) (hfree : CollisionFree P (objectsOf (deliveries is))) :
    CompactionLaw P s := by
  obtain ⟨hs, hh⟩ := reachable_keeps hrun hfree
  have harr := arranged_of_run hrun hfree (le_refl _)
  have hnamed : ∀ o ∈ s.observations, ∀ id ∈ o.revokedCertIds,
      Named P (objectsOf (deliveries is)) o.revokedSetDigest id := by
    intro o ho id hid
    obtain ⟨d, hd, -, -, hset, hids⟩ := (hh.sourced o ho).body
    exact ⟨d.object, ⟨d, hd, rfl⟩, hset, hids id hid⟩
  have hc := compactionOf_compactEntries P s
  constructor
  · exact compact_eq_self (compacted_compact harr hs.evidence hnamed)
  · rfl
  · intro id
    rw [← hc.ids id]
    constructor
    · rintro ⟨o, ho, hid⟩
      obtain ⟨e, he, rfl⟩ := (mem_compact_observations P).mp ho
      exact ⟨e, he, hid⟩
    · rintro ⟨e, he, hid⟩
      exact ⟨e.2, (mem_compact_observations P).mpr ⟨e, he, rfl⟩, hid⟩
  · intro snap hsnap
    have hf : s.hasFloor = true := by
      by_contra hf
      rw [(hs.floor.absent (by simpa using hf)).2.1] at hsnap
      cases hsnap
    obtain ⟨snap', hsnap', hacc⟩ := (hs.floor.compact hs.evidence (P := P)).present hf
    obtain rfl := Option.some.inj (hsnap.symm.trans hsnap')
    exact hacc.base
  · exact fun snap hsnap o ho hin => exists_compact_push_whole hs.evidence hsnap ho hin
  · rintro ⟨o, ho, hep, hfork⟩
    obtain ⟨e, he, -, g, hrep, hog, -⟩ := hc.entry ho
    obtain ⟨-, m₂, -, m₄⟩ := hrep.member hog
    exact ⟨e.2, (mem_compact_observations P).mpr ⟨e, he, rfl⟩, m₂.trans hep, m₄.trans hfork⟩
  · exact fun obs h => compact_congr h

/-- The state that two lists leave keeps an observation of each. -/
theorem compactionLaw_of_run_gaps :
    ∃ (P : Primitives) (s : RevocationStatusStateV2),
      StatusRun P ⟨20, 10, 3⟩ gapRun s ∧ GapsLeft P s ∧ CompactionLaw P s := by
  obtain ⟨s, hrun, hs⟩ := exists_run_gaps collisionFree_gapRun
  exact ⟨_, s, hrun, hs, compactionLaw_of_run hrun collisionFree_gapRun⟩

/-! ## Observations that tie -/

/-- Entries of different keys stand in the order of the sort. -/
theorem foldl_keys (hinv : LoopInvariant s base seen c)
    (hret : c.retained.map Prod.fst = seen.map semanticKey)
    (hkeys : ((seen ++ obs).map semanticKey).Nodup) :
    (obs.foldl (compactStep s base) c).retained.map Prod.fst = (seen ++ obs).map semanticKey := by
  induction obs generalizing seen c with
  | nil => simpa using hret
  | cons o obs ih =>
    rw [← List.singleton_append, ← List.append_assoc] at hkeys ⊢
    rw [List.singleton_append, List.foldl_cons]
    refine ih (hinv.step o) ?_ hkeys
    rw [List.map_append, List.map_append, List.nodup_append] at hkeys
    rcases compactStep_cases s base c o with ⟨⟨e, he, hk⟩, -⟩ | ⟨-, hnew⟩
    · have hmem : semanticKey o ∈ seen.map semanticKey := by
        rw [← hret, ← hk]
        exact List.mem_map_of_mem he
      exact absurd rfl ((List.nodup_append.mp hkeys.1).2.2 _ hmem _ (List.mem_singleton_self _))
    · rw [hnew, List.map_append, List.map_append, hret]
      rfl

/-- Compaction sorts observations of different keys. -/
theorem map_semanticKey_compact (hkeys : (s.observations.map semanticKey).Nodup) :
    (compact P s).observations.map semanticKey
      = (s.observations.insertionSort InOrder).map semanticKey := by
  have hperm := List.perm_insertionSort InOrder s.observations
  have hsorted : ((s.observations.insertionSort InOrder).map semanticKey).Nodup :=
    (hperm.map semanticKey).nodup_iff.mpr hkeys
  have hall : (([] ++ s.observations.insertionSort InOrder).map semanticKey).Nodup := hsorted
  have hloop := foldl_keys (LoopInvariant.nil s (baseDigest P s)) rfl hall
  rw [List.nil_append] at hloop
  have hentries : (compactEntries P s).map Prod.fst
      = (s.observations.insertionSort InOrder).map semanticKey := by
    rw [← hloop, compactEntries, List.map_map]
    exact settleEntries_map s (baseDigest P s) Prod.fst (fun _ => rfl) _
  rw [← hentries, compact_observations, List.map_map]
  refine List.map_congr_left fun e he => ?_
  obtain ⟨g, hrep, hperm⟩ := (compactionOf_compactEntries P s).represents e he
  obtain ⟨a, hag, -⟩ := hrep.evidence
  obtain ⟨ha, hka⟩ := mem_groupOf.mp (hperm.mem_iff.mp hag)
  rw [← hka, groupOf_eq_singleton hkeys ha] at hperm
  exact ((hrep.kept (List.perm_singleton.mp hperm)).key).trans hka

theorem Kept.sortFields_eq (h : Kept s a r) : sortFields r = sortFields a := by
  simp only [sortFields, h.epoch, h.sequence, h.objectType, h.revokedSet, h.body]

/-- Swapping two observations that tie but differ in their keys shows in the result. -/
theorem compact_swap_ne (hobs : s.observations = [a, b]) (htie : sortFields a = sortFields b)
    (hkey : semanticKey a ≠ semanticKey b) :
    compact P { s with observations := [b, a] } ≠ compact P s := by
  have hab := inOrder_of_tie htie
  have hba := inOrder_of_tie htie.symm
  have hthis : (compact P s).observations.map semanticKey = [semanticKey a, semanticKey b] := by
    rw [map_semanticKey_compact (by simp [hobs, hkey]), hobs,
      List.Pairwise.insertionSort_eq (by simpa using hab)]
    rfl
  have hother : (compact P { s with observations := [b, a] }).observations.map semanticKey
      = [semanticKey b, semanticKey a] := by
    rw [map_semanticKey_compact (by simpa using Ne.symm hkey),
      List.Pairwise.insertionSort_eq (by simpa using hba)]
    rfl
  intro heq
  rw [heq, hthis, List.cons.injEq] at hother
  exact hkey hother.1

section Tie

variable {d : Delivery} {policy : RevocationStatusPolicyV2} {l : RevocationListV2}
  {b : RevocationStatusStateV2}

/-- `a` sights the object of `o`, from before it was due. -/
structure EarlySighting (a o : RevocationObservationV2) : Prop where
  fields : sortFields a = sortFields o
  evidence : a.evidenceDigest = o.evidenceDigest
  futureDated : a.futureDated = true
  ids : ∀ id ∈ a.revokedCertIds, id ∈ o.revokedCertIds

/-- A pending state that holds nothing but the early sighting of a list accepts the
list when it comes again fresh. -/
theorem reduceObject_again (hs : WellFormed P s) (hp : Pending s) (hc : d.Checks P policy s b o)
    (hx : d.object = .list l) (hfresh : listFresh l policy d.now = true)
    (hobs : s.observations = [a]) (ha : EarlySighting a o)
    (hdenied : s.denyUnionCertIds = []) (hmax : s.maxObservedSequence ≤ l.sequence) :
    reduceObject P policy d.now b d.object o
      = .ok (acceptedList P (sighted b o true none) l o.evidenceDigest o) := by
  have hcl : V2.Checks P s (.list l) d.issuerId d.epoch d.key policy d.now b o := hx ▸ hc
  obtain ⟨hbmax, hbdeny, hbobs, hbfloor⟩ := hc.bound_marks hs
  have hobs : b.observations = [a] := hbobs.trans hobs
  have hfloor : b.hasFloor = false := hbfloor.trans hp.noFloor
  obtain ⟨hfork, hacc⟩ := hp.unmarked a (by rw [← hbobs, hobs]; exact List.mem_singleton_self a)
  have hseq : o.sequence = l.sequence := hcl.sequence
  have htype : o.objectType = LIST := hcl.objectType
  have hpush : ¬ LIST = PUSH := by decide
  have hfields := ha.fields
  simp only [sortFields, Prod.mk.injEq] at hfields
  obtain ⟨h₁, h₂, h₃, h₄, -⟩ := hfields
  have hfuture : o.futureDated = false := hcl.futureDated.trans (not_future_of_fresh hfresh)
  have hdup : redelivers b l o.evidenceDigest o = some a := by
    simp [redelivers, findObservation, hobs, h₁, h₂, h₃, htype, hseq, ha.evidence]
  have hsettled : settledByDuplicate b l o (listFresh l policy d.now) a = false := by
    simp [settledByDuplicate, hacc, ha.futureDated, hfuture, hfresh, hfloor, hasForkedSequence,
      hobs, hfork]
  have hconf : listConflicts b o = false := by
    have homits : listOmitsObserved b o = false := by
      rw [listOmitsObserved, Bool.not_eq_false', containsAll_iff]
      intro id hid
      rw [requiredForSnapshot, mem_sortedUnique, List.mem_flatMap] at hid
      obtain ⟨x, hx, hmem⟩ := hid
      rw [hobs] at hx
      obtain rfl := List.mem_singleton.mp (List.mem_filter.mp hx).1
      exact ha.ids id hmem
    simp [listConflicts, listContradictsFloor, homits, snapshotConflictsWithPush,
      sequenceConflict, hfloor, hobs, h₃, h₄, htype, hpush]
  have hplace : listPlacement (sighted b o true none) o (listFresh l policy d.now)
      (listConflicts b o) = .accepted := by
    rw [listPlacement_eq_accepted_iff]
    refine ⟨hfresh, hconf, fun hf => ?_, fun _ => ⟨fun id hid => ?_, ?_⟩⟩
    · rw [sighted_hasFloor, hfloor] at hf
      cases hf
    · have hempty : (sighted b o true none).denyUnionCertIds = [] := hbdeny.trans hdenied
      rw [hempty] at hid
      exact absurd hid List.not_mem_nil
    · rw [hseq]
      exact hbmax.le.trans hmax
  obtain ⟨hof, hog, -⟩ := hcl.unmarked
  rw [hx, reduceObject, reduceList_eq (cloneList_of_digest hcl.digest) hseq hcl.ids hof hog, hdup]
  simp only [listSettled, hsettled, Option.isSome_some, hplace, Bool.false_eq_true, ↓reduceIte]

/-- The early list, and the early list again when it is fresh. -/
def tyingRun : List StatusStep := [.deliver (sends earlyList 95), .deliver (sends earlyList 100)]

/-- A reachable state keeps the early sighting of a list and the accepted one, which
tie in the sort; exchanged, they come out of compaction exchanged. -/
theorem compact_depends_on_ties :
    ∃ t obs, StatusRun (tabled [.list earlyList]) ⟨20, 10, 3⟩ tyingRun t ∧
      CollisionFree (tabled [.list earlyList]) (objectsOf (deliveries tyingRun)) ∧
      obs.Perm t.observations ∧
      compact (tabled [.list earlyList]) { t with observations := obs }
        ≠ compact (tabled [.list earlyList]) t := by
  have hfree : CollisionFree (tabled [.list earlyList]) (objectsOf (deliveries tyingRun)) :=
    collisionFree_objectsOf (by simp [deliveries, tyingRun, sends]) (by decide)
  generalize hP : tabled [.list earlyList] = P at hfree ⊢
  have hchecks : ∀ {s : RevocationStatusStateV2} (now : Int), validV2Timestamp now = true →
      (s.issuerId ≠ "" → tabledIssuer = s.issuerId ∧ 1 = s.statusKeyEpoch ∧
        keyIdV2 P (tabledKey 1) = .ok s.statusKeyId) →
      ∃ b o, (sends earlyList now).Checks P ⟨20, 10, 3⟩ s b o := by
    intro s now hnow hbound
    subst hP
    exact (deliverable_tabledList listWellFormed_early (by decide) (by decide) (by decide)
      hbound).exists_checks rfl hnow
  -- The list is future-dated at 95.
  have hs₀ := wellFormed_default P
  obtain ⟨b₁, o₁, hc₁⟩ := hchecks (s := {}) 95 rfl (by simp)
  obtain ⟨happ₁, hkeys₁, hp₁⟩ := deliver_stale hs₀ pending_default hc₁ rfl rfl (by simp)
  have hobs₁ := leftBy_observations hs₀ hc₁
  rw [List.nil_append] at hobs₁
  have hrun₁ : StatusRun P ⟨20, 10, 3⟩ [.deliver (sends earlyList 95)] _ := Run.single happ₁
  have hs₁ := (reachable_keeps hrun₁ (hfree.mono (by
    rintro x ⟨d, hd, rfl⟩
    exact ⟨d, by simp only [deliveries, tyingRun, List.filterMap_cons, List.filterMap_nil,
      List.mem_cons, List.not_mem_nil, or_false] at hd ⊢; exact .inl hd, rfl⟩))).1
  obtain ⟨c, hc⟩ : ∃ c, (compact P (leftBy b₁ o₁)).observations = [c] := by
    have hlen := congrArg List.length (map_semanticKey_compact (P := P) hkeys₁)
    rw [List.length_map, List.length_map, List.length_insertionSort, hobs₁] at hlen
    exact List.length_eq_one_iff.mp hlen
  have hkept : Kept (leftBy b₁ o₁) (gapOf o₁) c := by
    obtain ⟨x, hx, hk⟩ := (exists_kept (P := P) hkeys₁).2 c (by rw [hc]; simp)
    rw [hobs₁] at hx
    exact List.mem_singleton.mp hx ▸ hk
  -- It is fresh at 100.
  obtain ⟨b₂, o₂, hc₂⟩ := hchecks (s := compact P (leftBy b₁ o₁)) 100 rfl fun _ => by
    obtain ⟨h₁, h₂, h₃⟩ := hc₁.bound_fields
    exact ⟨h₁.symm, h₂.symm, h₃ ▸ hc₁.key_ok⟩
  have hearly : EarlySighting c o₂ := by
    have hfields : sortFields o₁ = sortFields o₂ := by
      obtain ⟨text₁, ht₁, hbody₁⟩ := hc₁.body
      obtain ⟨text₂, ht₂, hbody₂⟩ := hc₂.body
      have htext : text₁ = text₂ := Except.ok.inj (ht₁.symm.trans ht₂)
      have hset : o₁.revokedSetDigest = o₂.revokedSetDigest :=
        Except.ok.inj (hc₁.set.symm.trans hc₂.set)
      simp only [sortFields, hc₁.epoch_eq, hc₂.epoch_eq, hc₁.sequence, hc₂.sequence,
        hc₁.objectType, hc₂.objectType, hset, hbody₁, hbody₂, htext]
      rfl
    refine ⟨hkept.sortFields_eq.trans hfields, ?_, ?_, fun id hid => ?_⟩
    · exact hkept.evidence.trans (Except.ok.inj (hc₁.digest.symm.trans hc₂.digest))
    · exact hkept.futureDated.trans hc₁.futureDated
    · have hnone : id ∈ o₁.revokedCertIds := hkept.ids_of id hid
      rw [hc₁.ids] at hnone
      exact absurd hnone List.not_mem_nil
  have hdenied : (compact P (leftBy b₁ o₁)).denyUnionCertIds = [] := by
    rw [compact_denyUnionCertIds, sortedUnique_eq_nil]
    have hids : o₁.revokedCertIds = [] := hc₁.ids
    change sortedUnique (b₁.denyUnionCertIds ++ o₁.revokedCertIds) = []
    rw [(hc₁.bound_marks hs₀).2.1, hids]
    rfl
  have hmax : (compact P (leftBy b₁ o₁)).maxObservedSequence ≤ earlyList.sequence := by
    change max b₁.maxObservedSequence o₁.sequence ≤ 2
    rw [(hc₁.bound_marks hs₀).1, hc₁.sequence]
    decide
  have hred := reduceObject_again hs₁ hp₁ hc₂ rfl rfl hc hearly hdenied hmax
  generalize hr : acceptedList P (sighted b₂ o₂ true none) earlyList o₂.evidenceDigest o₂ = r
    at hred
  have hobs : r.observations = [c, { o₂ with accepted := true }] := by
    rw [← hr]
    change b₂.observations ++ [{ o₂ with accepted := true }] = _
    rw [(hc₂.bound_marks hs₁).2.2.1, hc]
    rfl
  have hne : r.issuerId ≠ "" := by
    rw [← hr, (acceptedList_same (P := P) earlyList o₂.evidenceDigest).1]
    exact hc₂.bound_ne
  have happ₂ : applyDelivery P ⟨20, 10, 3⟩ (compact P (leftBy b₁ o₁)) (sends earlyList 100)
      = .ok (compact P r) := by
    rw [applyDelivery_eq_ok_iff hs₁]
    exact ⟨b₂, o₂, r, hc₂, hred, (compactBound_of_bound hne).symm⟩
  -- The two observations tie and differ in the future mark.
  have htie : sortFields c = sortFields { o₂ with accepted := true } := hearly.fields
  have hkey : semanticKey c ≠ semanticKey { o₂ with accepted := true } := by
    intro heq
    have hf : c.futureDated = o₂.futureDated := congrArg SemanticKey.futureDated heq
    rw [hearly.futureDated, hc₂.futureDated] at hf
    exact absurd hf (by decide)
  have hkeys : (r.observations.map semanticKey).Nodup := by
    rw [hobs]
    simpa using hkey
  have hsorted := map_semanticKey_compact (P := P) hkeys
  rw [hobs, List.Pairwise.insertionSort_eq (by simpa using inOrder_of_tie htie)] at hsorted
  obtain ⟨x, y, hxy⟩ : ∃ x y, (compact P r).observations = [x, y] := by
    have hlen := congrArg List.length hsorted
    rw [List.length_map] at hlen
    exact List.length_eq_two.mp hlen
  have hfields : ∀ z ∈ (compact P r).observations, sortFields z = sortFields c := by
    intro z hz
    obtain ⟨w, hw, hk⟩ := (exists_kept (P := P) hkeys).2 z hz
    rw [hobs] at hw
    rcases List.mem_pair.mp hw with rfl | rfl
    · exact hk.sortFields_eq
    · exact hk.sortFields_eq.trans htie.symm
  rw [hxy, List.map_cons, List.map_singleton, List.map_cons, List.map_singleton, List.cons.injEq,
    List.cons.injEq] at hsorted
  refine ⟨compact P r, [y, x], Run.snoc hrun₁ happ₂, hfree, ?_, compact_swap_ne hxy ?_ ?_⟩
  · rw [hxy]
    exact List.Perm.swap x y []
  · exact (hfields x (by rw [hxy]; simp)).trans (hfields y (by rw [hxy]; simp)).symm
  · rw [hsorted.1, hsorted.2.1]
    exact hkey

end Tie

end RatifyProtocol.V2
