import RatifyProtocol.V2.Status.Gaps
set_option autoImplicit false

/-!
# Status: which runs keep every state valid

The reducer raises the fork sequence on a conflict and retains the conflicting
object with a fork mark, except when the object is one it already retains: a list
first seen early or stale, delivered again once it is fresh, is marked and not
retained a second time.  `ForksDuplicate` is that delivery, and
`reachable_validates_iff` says that nothing else makes a reachable state invalid.
-/

namespace RatifyProtocol.V2

open Foundation

variable {P : Primitives} {policy : RevocationStatusPolicyV2} {d : Delivery}
  {s t b r : RevocationStatusStateV2} {o : RevocationObservationV2}

/-- A retained list that was early or stale at its first sighting comes again
while it is fresh, is not at a sequence already marked, conflicts with what is
retained, and nothing retained in the current epoch carries a fork mark. -/
def ForksDuplicate (P : Primitives) (policy : RevocationStatusPolicyV2)
    (s : RevocationStatusStateV2) (d : Delivery) : Prop :=
  ∃ l b o prior, d.object = .list l ∧ d.Checks P policy s b o ∧
    redelivers b l o.evidenceDigest o = some prior ∧
    settledByDuplicate b l o (listFresh l policy d.now) prior = false ∧
    listConflicts b o = true ∧
    ∀ a ∈ b.observations, a.statusKeyEpoch = b.statusKeyEpoch → a.fork = false

/-- A state that passes both validations, with what they check of its marks. -/
structure Validates (P : Primitives) (s : RevocationStatusStateV2) : Prop where
  binding : ∀ issuerId epoch,
    (s.issuerId ≠ "" → issuerId = s.issuerId ∧ epoch = s.statusKeyEpoch) →
    0 < epoch → (epoch : Int) ≤ maxSafe → validateBinding s issuerId epoch = .ok ()
  accepted : validateAcceptedState P s = .ok ()
  observed : ∀ o ∈ s.observations, o.statusKeyEpoch = s.statusKeyEpoch →
    o.sequence ≤ s.maxObservedSequence
  floor_le : s.floor ≤ s.maxObservedSequence
  witnessed : ∀ id ∈ s.denyUnionCertIds, ∃ o ∈ s.observations, id ∈ o.revokedCertIds
  contiguous : ∀ snap, s.acceptedSnapshot = some snap → ∀ n, snap.sequence < n → n ≤ s.floor →
    ∃ o ∈ s.observations, acceptedPushInRange s snap o = true ∧ o.sequence = n
  forkMarked : ForkMarked s

theorem validates_of_wellFormed (h : WellFormed P s) (hf : ForkMarked s) : Validates P s where
  binding := fun _ _ hbound hpos hle => validateBinding_of_wellFormed P h hbound hpos hle
  accepted := validateAcceptedState_of_wellFormed P h hf
  observed := fun o ho => (h.evidence.observations o ho).observed
  floor_le := h.evidence.floor_le
  witnessed := h.evidence.witnessed
  contiguous := by
    intro snap hsnap
    cases hfl : s.hasFloor with
    | false => simp [(h.floor.absent hfl).2.1] at hsnap
    | true =>
      obtain ⟨snap', hsnap', hacc⟩ := h.floor.present hfl
      obtain rfl := Option.some.inj (hsnap.symm.trans hsnap')
      exact hacc.contiguous
  forkMarked := hf

/-! ## One step -/

theorem ForkMarked.bound (h : ForkMarked s) (hc : d.Checks P policy s b o) : ForkMarked b := by
  rw [hc.bound, boundState]
  split
  · exact fun hpos => absurd hpos (lt_irrefl _)
  · exact h

/-- More observations and no higher fork keep the mark. -/
theorem ForkMarked.mono (h : ForkMarked b) (hep : r.statusKeyEpoch = b.statusKeyEpoch)
    (hfork : 0 < r.forkSequence → 0 < b.forkSequence)
    (hobs : ∀ a ∈ b.observations, a ∈ r.observations) : ForkMarked r := by
  intro hpos
  obtain ⟨a, ha, hea, hfa⟩ := h (hfork hpos)
  exact ⟨a, hobs a ha, hea.trans hep.symm, hfa⟩

theorem ForkMarked.acceptedList (h : ForkMarked b) {l : RevocationListV2} {dup : Bool} :
    ForkMarked (acceptedList P (sighted b o dup none) l o.evidenceDigest o) := by
  refine h.mono (acceptedList_same _ _).2.1 ?_ fun a ha => List.mem_append_left _ ha
  intro hpos
  simp only [V2.acceptedList] at hpos
  split at hpos
  · exact absurd hpos (lt_irrefl _)
  · exact hpos

/-- A retained sighting keeps the mark unless it forks a duplicate. -/
theorem ForkMarked.retain (h : ForkMarked b) (hep : o.statusKeyEpoch = b.statusKeyEpoch)
    {dup : Bool} {f : Option Int} {g : Bool}
    (hdup : dup = true → f.isSome = true →
      ∃ a ∈ b.observations, a.statusKeyEpoch = b.statusKeyEpoch ∧ a.fork = true) :
    ForkMarked (retain b o dup f g) := by
  have hsub : ∀ a ∈ b.observations, a ∈ (V2.retain b o dup f g).observations := by
    intro a ha
    cases dup with
    | true => exact ha
    | false => exact List.mem_append_left _ ha
  cases f with
  | none => exact h.mono rfl (fun hpos => hpos) hsub
  | some n =>
    intro _
    cases dup with
    | true =>
      obtain ⟨a, ha, hea, hfa⟩ := hdup rfl rfl
      exact ⟨a, ha, hea, hfa⟩
    | false => exact ⟨_, List.mem_append_right _ (List.mem_singleton_self _), hep, rfl⟩

/-- One delivery keeps the mark unless it forks a duplicate. -/
theorem ForkMarked.reduce (h : ForkMarked b) (hc : d.Checks P policy s b o)
    (hno : ¬ ForksDuplicate P policy s d)
    (hred : reduceObject P policy d.now b d.object o = .ok r) : ForkMarked r := by
  have hep := hc.sightingOk.epoch
  cases hx : d.object with
  | list l =>
    have hcl : V2.Checks P s (.list l) d.issuerId d.epoch d.key policy d.now b o := hx ▸ hc
    rw [hx, reduceObject] at hred
    rcases reduceList_cases hcl hred with ⟨-, rfl⟩ | ⟨hset, g, -, rfl⟩ | ⟨-, -, rfl⟩
    · exact h
    · refine h.retain hep fun hdup hf => ?_
      obtain ⟨prior, hprior⟩ := Option.isSome_iff_exists.mp hdup
      have hconf : listConflicts b o = true := by
        unfold listFork at hf
        split at hf
        · assumption
        · cases hf
      rw [hprior] at hset
      by_contra hnone
      push Not at hnone
      exact hno ⟨l, b, o, prior, hx, hc, hprior, hset, hconf,
        fun a ha hea => Bool.not_eq_true _ ▸ hnone a ha hea⟩
    · exact h.acceptedList
  | push p =>
    have hcp : V2.Checks P s (.push p) d.issuerId d.epoch d.key policy d.now b o := hx ▸ hc
    rw [hx, reduceObject] at hred
    rcases reducePush_cases hcp (Except.ok.inj hred).symm with ⟨-, rfl⟩ | ⟨-, -, rfl⟩ | ⟨-, -, rfl⟩
    · exact h
    · exact h.retain hep (by simp)
    · exact h.mono rfl (fun hpos => hpos) fun a ha => List.mem_append_left _ ha

/-- Forking a duplicate raises the fork sequence and leaves no mark. -/
theorem not_forkMarked_of_forksDuplicate (hs : WellFormed P s)
    (hbad : ForksDuplicate P policy s d) (happ : applyDelivery P policy s d = .ok t) :
    ¬ ForkMarked t := by
  obtain ⟨l, b, o, prior, hx, hc, hprior, hset, hconf, hnone⟩ := hbad
  obtain ⟨b', o', r, hc', hred, rfl⟩ := (applyDelivery_eq_ok_iff hs).mp happ
  obtain ⟨rfl, rfl⟩ := hc.unique hc'
  have hcl : V2.Checks P s (.list l) d.issuerId d.epoch d.key policy d.now b o := hx ▸ hc
  have hfork : listFork b o = some o.sequence := by rw [listFork, if_pos hconf]
  have hdup : duplicates b l o = true := by rw [duplicates, hprior]; rfl
  rw [hx, reduceObject] at hred
  have hsettled : listSettled P b l o.evidenceDigest o (listFresh l policy d.now)
      (redelivers b l o.evidenceDigest o) = false := by
    rw [hprior]
    exact hset
  rcases reduceList_cases hcl hred with ⟨hyes, -⟩ | ⟨-, g, -, rfl⟩ | ⟨-, hp, -⟩
  · rw [hsettled] at hyes
    cases hyes
  · rw [hfork, hdup, compactBound_of_bound (r := retain b o true (some o.sequence) g) hc.bound_ne]
    intro hmarked
    have hpos : 0 < (compact P (retain b o true (some o.sequence) g)).forkSequence := by
      have := hc.sightingOk.sequence_pos
      change 0 < max (max (max b.forkSequence b.floor) o.sequence) 0
      omega
    obtain ⟨e, hem, hep, hef⟩ := hmarked hpos
    obtain ⟨e, he, rfl⟩ := (mem_compact_observations P).mp hem
    obtain ⟨k, hrep, hk, -⟩ := (compactionOf_compactEntries P _).group he
    obtain ⟨a, ha, -⟩ := hrep.evidence
    obtain ⟨-, m₂, -, m₄⟩ := hrep.member ha
    have := hnone a (hk a ha) (m₂.symm.trans hep)
    rw [← m₄, hef] at this
    cases this
  · exact absurd (listPlacement_eq_accepted_iff.mp hp).2.1 (by simp [hconf])

/-- The fork check of `validate_accepted_state` is the mark. -/
theorem forkMarked_of_validateAcceptedState (h : validateAcceptedState P s = .ok ()) :
    ForkMarked s := by
  intro hpos
  simp only [validateAcceptedState, bind_eq_ok_iff, refuseIf_eq_ok_iff] at h
  obtain ⟨_, -, _, -, _, -, _, hfork, -⟩ := h
  simp only [hpos, decide_true, Bool.true_and, Bool.or_eq_false_iff, Bool.not_eq_false',
    List.any_eq_true, Bool.and_eq_true, beq_iff_eq] at hfork
  exact hfork.2

/-! ## Runs -/

/-- A run in which no step forks a duplicate keeps the mark. -/
theorem forkMarked_of_run {is : List StatusStep} (hrun : StatusRun P policy is s)
    (hfree : CollisionFree P (objectsOf (deliveries is)))
    (hno : ∀ pre d post t, is = pre ++ .deliver d :: post → StatusRun P policy pre t →
      ¬ ForksDuplicate P policy t d) : ForkMarked s := by
  induction hrun with
  | nil => exact forkMarked_default
  | @snoc is t u i run last ih =>
    have hno' : ∀ pre d post t, is = pre ++ .deliver d :: post → StatusRun P policy pre t →
        ¬ ForksDuplicate P policy t d := by
      rintro pre d post v rfl hv
      exact hno pre d (post ++ [i]) v (by simp) hv
    cases i with
    | deliver d =>
      rw [deliveries_deliver] at hfree
      have hfree' := hfree.mono (objectsOf_append_left _ _)
      obtain ⟨ht, hh⟩ := reachable_keeps run hfree'
      obtain ⟨-, -, b, o, r, hc, -, hred, rfl⟩ := deliver_keeps hfree ht hh last
      have hmark := (ih hfree' hno').bound hc
      exact (hmark.reduce hc (hno is d [] t (by simp) run) hred).compact
    | transition issuerId nextEpoch key =>
      rw [deliveries_transition] at hfree
      obtain ⟨ht, -⟩ := reachable_keeps run hfree
      obtain ⟨-, -, -, -, -, keyId, -, -, -, rfl⟩ := (transition_eq_ok_iff ht).mp last
      exact fun hpos => absurd hpos (lt_irrefl _)

/-- In a run on which SHA-384 does not collide, every state reached passes both
validations exactly when no step forks a duplicate. -/
theorem reachable_validates_iff {is : List StatusStep} (hrun : StatusRun P policy is s)
    (hfree : CollisionFree P (objectsOf (deliveries is))) :
    (∀ pre post t, is = pre ++ post → StatusRun P policy pre t → Validates P t) ↔
      ∀ pre d post t, is = pre ++ .deliver d :: post → StatusRun P policy pre t →
        ¬ ForksDuplicate P policy t d := by
  constructor
  · rintro hall pre d post t rfl ht hbad
    have hcut : pre ++ .deliver d :: post = (pre ++ [.deliver d]) ++ post := by simp
    rw [hcut] at hrun hall hfree
    obtain ⟨u, hu, -⟩ := Run.append_iff.mp hrun
    obtain ⟨t', ht', hstep⟩ := Run.snoc_iff.mp hu
    obtain rfl := statusRun_unique ht ht'
    have hpre : CollisionFree P (objectsOf (deliveries pre)) := by
      refine hfree.mono ?_
      rw [deliveries_append, deliveries_append, List.append_assoc]
      exact objectsOf_append_left _ _
    exact not_forkMarked_of_forksDuplicate (reachable_keeps ht hpre).1 hbad hstep
      (hall _ _ u rfl hu).forkMarked
  · rintro hno pre post t rfl ht
    have hpre : CollisionFree P (objectsOf (deliveries pre)) := by
      rw [deliveries_append] at hfree
      exact hfree.mono (objectsOf_append_left _ _)
    refine validates_of_wellFormed (reachable_keeps ht hpre).1 (forkMarked_of_run ht hpre ?_)
    rintro pre' d post' v rfl hv
    exact hno pre' d (post' ++ post) v (by simp) hv

/-- Two lists leave a state without a floor: every state on the way is valid exactly
when no step forks a duplicate. -/
theorem reachable_validates_gaps :
    ∃ P s, StatusRun P ⟨20, 10, 3⟩ gapRun s ∧ GapsLeft P s ∧
      ((∀ pre post t, gapRun = pre ++ post → StatusRun P ⟨20, 10, 3⟩ pre t → Validates P t) ↔
        ∀ pre d post t, gapRun = pre ++ .deliver d :: post → StatusRun P ⟨20, 10, 3⟩ pre t →
          ¬ ForksDuplicate P ⟨20, 10, 3⟩ t d) := by
  obtain ⟨s, hrun, hs⟩ := exists_run_gaps collisionFree_gapRun
  exact ⟨_, s, hrun, hs, reachable_validates_iff hrun collisionFree_gapRun⟩

/-! ## A run that forks a duplicate -/

/-- A pending state that retains a list early and an older list with an ID the
first one omits forks when the first one comes again fresh. -/
theorem forksDuplicate_of_pending {l : RevocationListV2} (hs : WellFormed P s) (hp : Pending s)
    (hc : d.Checks P policy s b o) (hx : d.object = .list l)
    (hfresh : listFresh l policy d.now = true)
    (hearly : ∃ a ∈ s.observations, a.statusKeyEpoch = d.epoch ∧ a.objectType = LIST ∧
      a.sequence = l.sequence ∧ a.evidenceDigest = o.evidenceDigest)
    (hall : ∀ a ∈ s.observations, a.sequence = l.sequence → a.futureDated = true)
    (id : String) (hout : id ∉ revokedIds l.revoked)
    (holder : ∃ a ∈ s.observations, a.statusKeyEpoch = d.epoch ∧ a.sequence ≤ l.sequence ∧
      id ∈ a.revokedCertIds) :
    ForksDuplicate P policy s d := by
  have hcl : V2.Checks P s (.list l) d.issuerId d.epoch d.key policy d.now b o := hx ▸ hc
  obtain ⟨-, -, hobs, hfloor⟩ := hc.bound_marks hs
  have hep : o.statusKeyEpoch = d.epoch := hc.epoch_eq
  obtain ⟨a, ha, ha₁, ha₂, ha₃, ha₄⟩ := hearly
  obtain ⟨prior, hprior⟩ : ∃ prior, redelivers b l o.evidenceDigest o = some prior := by
    rw [← Option.isSome_iff_exists, redelivers, findObservation, List.find?_isSome]
    refine ⟨a, List.mem_reverse.mpr (hobs ▸ ha), ?_⟩
    simp [hep, ha₁, ha₂, ha₃, ha₄]
  obtain ⟨hpm, -, -, hps, -⟩ := findObservation_some hprior
  rw [hobs] at hpm
  obtain ⟨-, hacc⟩ := hp.unmarked prior hpm
  have hnofork : ∀ ty n, hasForkedSequence b.observations o.statusKeyEpoch ty n = false := by
    intro ty n
    rw [hasForkedSequence, List.any_eq_false, hobs]
    intro c hcm
    simp [(hp.unmarked c hcm).1]
  have hfuture : o.futureDated = false := hcl.futureDated.trans (not_future_of_fresh hfresh)
  refine ⟨l, b, o, prior, hx, hc, hprior, ?_, ?_, fun c hcm _ => (hp.unmarked c (hobs ▸ hcm)).1⟩
  · simp [settledByDuplicate, hacc, hall prior hpm hps, hfuture, hfresh, hfloor, hp.noFloor,
      hnofork]
  · have homit : listOmitsObserved b o = true := by
      obtain ⟨c, hcm, hc₁, hc₂, hid⟩ := holder
      rw [listOmitsObserved, Bool.not_eq_true', ← Bool.not_eq_true, containsAll_iff]
      intro hsub
      refine hout ((hcl.ids ▸ hsub id ?_ : id ∈ (StatusObject.list l).ids))
      rw [requiredForSnapshot, mem_sortedUnique, List.mem_flatMap]
      refine ⟨c, List.mem_filter.mpr ⟨hobs ▸ hcm, ?_⟩, hid⟩
      have hseq : o.sequence = l.sequence := hcl.sequence
      simp [hc₁, hep, hseq, hc₂]
    simp [listConflicts, homit]

/-- The early list, the older one, and the early list again when it is fresh. -/
def forkingRun : List StatusStep :=
  [.deliver (sends earlyList 95), .deliver (sends olderList 200), .deliver (sends earlyList 100)]

/-- The run succeeds on signed lists, and the state it reaches is refused by
`validate_accepted_state`: it has a fork sequence and no fork mark. -/
theorem forkingRun_invalid :
    ∃ t, StatusRun (tabled [.list earlyList, .list olderList]) ⟨20, 10, 3⟩ forkingRun t ∧
      CollisionFree (tabled [.list earlyList, .list olderList])
        (objectsOf (deliveries forkingRun)) ∧
      validateAcceptedState (tabled [.list earlyList, .list olderList]) t ≠ .ok () := by
  have hfree : CollisionFree (tabled [.list earlyList, .list olderList])
      (objectsOf (deliveries forkingRun)) :=
    collisionFree_objectsOf (by simp [deliveries, forkingRun, sends]) (by decide)
  obtain ⟨s, hrun, hs⟩ := exists_run_gaps (hfree.mono (objectsOf_append_left
    (deliveries gapRun) [sends earlyList 100]))
  obtain ⟨b, o, hc⟩ : ∃ b o, (sends earlyList 100).Checks _ ⟨20, 10, 3⟩ s b o :=
    exists_checks_sends (.inl rfl) rfl fun _ => hs.bound
  have hbad : ForksDuplicate (tabled [.list earlyList, .list olderList]) ⟨20, 10, 3⟩ s
      (sends earlyList 100) := by
    refine forksDuplicate_of_pending hs.wellFormed hs.pending hc rfl rfl ?_ hs.future "a"
      (by decide) ?_
    · obtain ⟨a, ha, hepoch, htype, hseq, hdigest⟩ := hs.early
      exact ⟨a, ha, hepoch, htype, hseq, Except.ok.inj (hdigest.symm.trans hc.digest)⟩
    · obtain ⟨a, ha, hepoch, hseq, hid⟩ := hs.older
      exact ⟨a, ha, hepoch, by rw [hseq]; decide, hid⟩
  obtain ⟨t, happ⟩ := hc.applies hs.wellFormed
  refine ⟨t, Run.snoc hrun happ, hfree, fun hvalid => ?_⟩
  exact not_forkMarked_of_forksDuplicate hs.wellFormed hbad happ
    (forkMarked_of_validateAcceptedState hvalid)

end RatifyProtocol.V2
