import RatifyProtocol.V2.Status.Query
set_option autoImplicit false

/-!
# Status: what one object does to a bound state

`reduceList_eq` and `reducePush_eq` give the outcome of each reducer as one of
three closed forms: the state unchanged, the state with one more sighting
(`retain`), or the accepted state.  Every invariant of the reducer is proved from
these forms; no later proof unfolds the reducers again.
-/

namespace RatifyProtocol.V2

open Foundation

variable (P : Primitives)

/-! ## The forms -/

/-- The state after the bookkeeping of a sighting and the fork mark at `fork`. -/
def sighted (s : RevocationStatusStateV2) (o : RevocationObservationV2) (duplicate : Bool)
    (fork : Option Int) : RevocationStatusStateV2 :=
  { s with
    denyUnionCertIds := if duplicate then s.denyUnionCertIds
      else sortedUnique (s.denyUnionCertIds ++ o.revokedCertIds)
    maxObservedSequence := if duplicate then s.maxObservedSequence
      else max s.maxObservedSequence o.sequence
    futureDatedObjectObserved := s.futureDatedObjectObserved || o.futureDated
    reconciliationRequired := s.reconciliationRequired || o.futureDated || fork.isSome
    forkSequence := match fork with
      | none => s.forkSequence
      | some n => max (max (max s.forkSequence s.floor) n) 0 }

/-- A sighting that is not accepted: retained with its marks unless it is already. -/
def retain (s : RevocationStatusStateV2) (o : RevocationObservationV2) (duplicate : Bool)
    (fork : Option Int) (gap : Bool) : RevocationStatusStateV2 :=
  { sighted s o duplicate fork with
    reconciliationRequired :=
      s.reconciliationRequired || o.futureDated || fork.isSome || gap
    observations := if duplicate then s.observations
      else s.observations ++ [{ o with fork := fork.isSome, gap }] }

/-- Some conflict test of a list fails. -/
def listConflicts (s : RevocationStatusStateV2) (obs : RevocationObservationV2) : Bool :=
  listContradictsFloor s obs || listOmitsObserved s obs
    || snapshotConflictsWithPush s obs.statusKeyEpoch obs.sequence obs.revokedCertIds

/-- Where a list goes. -/
inductive ListPlacement
  | aside
  | gap
  | accepted
  deriving DecidableEq, Repr

/-- The placement of a list once its sighting is recorded in `s`. -/
def listPlacement (s : RevocationStatusStateV2) (obs : RevocationObservationV2)
    (fresh conflict : Bool) : ListPlacement :=
  if !fresh then
    if s.hasFloor && decide (obs.sequence ≤ s.floor) then .aside else .gap
  else if conflict then .aside
  else if !s.hasFloor && (!containsAll obs.revokedCertIds s.denyUnionCertIds
      || decide (obs.sequence < s.maxObservedSequence)) then .gap
  else if s.hasFloor && decide (obs.sequence < s.floor) then .aside
  else .accepted

/-- Whether a list at the floor becomes the accepted snapshot. -/
def replacesSnapshot (s : RevocationStatusStateV2) (list : RevocationListV2) (digest : Bytes) :
    Bool :=
  match s.acceptedSnapshot with
  | none => true
  | some a => decide (a.sequence < list.sequence) || heartbeatPreferred P list digest a

/-- The state with the list accepted at the floor. -/
def refreshSnapshot (s : RevocationStatusStateV2) (list : RevocationListV2) (digest : Bytes) :
    RevocationStatusStateV2 :=
  { s with
    acceptedSnapshot :=
      if replacesSnapshot P s list digest then some list else s.acceptedSnapshot }

/-- The state with the list accepted above the floor. -/
def raiseFloor (s : RevocationStatusStateV2) (list : RevocationListV2) :
    RevocationStatusStateV2 :=
  let next := s.hasFloor && list.sequence == s.floor + 1
  { s with
    hasPrecedingCheckpoint := next
    precedingFloor := if next then s.floor else 0
    precedingAcceptedCertIds := if next then sortedUnique s.acceptedCertIds else []
    acceptedSnapshot := some list
    acceptedCertIds := sortedUnique (revokedIds list.revoked)
    hasFloor := true
    floor := list.sequence }

/-- The list covers everything denied and observed, and lies beyond every fork. -/
def settles (s : RevocationStatusStateV2) (list : RevocationListV2) : Bool :=
  (s.forkSequence == 0 || decide (list.sequence > s.forkSequence))
    && decide (list.sequence ≥ s.maxObservedSequence)
    && containsAll (revokedIds list.revoked) s.denyUnionCertIds

/-- The state after an accepted list, given the state it was sighted in. -/
def acceptedList (s : RevocationStatusStateV2) (list : RevocationListV2) (digest : Bytes)
    (obs : RevocationObservationV2) : RevocationStatusStateV2 :=
  let settled := s.reconciliationRequired && settles s list
  let placed := if s.hasFloor && list.sequence == s.floor then refreshSnapshot P s list digest
    else raiseFloor s list
  { placed with
    reconciliationRequired := s.reconciliationRequired && !settled
    futureDatedObjectObserved := s.futureDatedObjectObserved && !settled
    forkSequence := if settled then 0 else s.forkSequence
    observations := s.observations ++ [{ obs with accepted := true }] }

/-! ## Fields a sighting leaves alone -/

section Fields

variable (s : RevocationStatusStateV2) (o : RevocationObservationV2) (d : Bool) (f : Option Int)

@[simp] theorem sighted_issuerId : (sighted s o d f).issuerId = s.issuerId := rfl
@[simp] theorem sighted_statusKeyEpoch : (sighted s o d f).statusKeyEpoch = s.statusKeyEpoch := rfl
@[simp] theorem sighted_statusKeyId : (sighted s o d f).statusKeyId = s.statusKeyId := rfl
@[simp] theorem sighted_retiredStatusKeyIds : (sighted s o d f).retiredStatusKeyIds = s.retiredStatusKeyIds := rfl
@[simp] theorem sighted_hasFloor : (sighted s o d f).hasFloor = s.hasFloor := rfl
@[simp] theorem sighted_floor : (sighted s o d f).floor = s.floor := rfl
@[simp] theorem sighted_acceptedSnapshot : (sighted s o d f).acceptedSnapshot = s.acceptedSnapshot := rfl
@[simp] theorem sighted_acceptedCertIds : (sighted s o d f).acceptedCertIds = s.acceptedCertIds := rfl
@[simp] theorem sighted_hasPrecedingCheckpoint : (sighted s o d f).hasPrecedingCheckpoint = s.hasPrecedingCheckpoint := rfl
@[simp] theorem sighted_precedingFloor : (sighted s o d f).precedingFloor = s.precedingFloor := rfl
@[simp] theorem sighted_precedingAcceptedCertIds : (sighted s o d f).precedingAcceptedCertIds = s.precedingAcceptedCertIds := rfl
@[simp] theorem sighted_observations : (sighted s o d f).observations = s.observations := rfl

@[simp] theorem retain_issuerId (g : Bool) : (retain s o d f g).issuerId = s.issuerId := rfl
@[simp] theorem retain_statusKeyEpoch (g : Bool) : (retain s o d f g).statusKeyEpoch = s.statusKeyEpoch := rfl
@[simp] theorem retain_statusKeyId (g : Bool) : (retain s o d f g).statusKeyId = s.statusKeyId := rfl
@[simp] theorem retain_retiredStatusKeyIds (g : Bool) : (retain s o d f g).retiredStatusKeyIds = s.retiredStatusKeyIds := rfl
@[simp] theorem retain_hasFloor (g : Bool) : (retain s o d f g).hasFloor = s.hasFloor := rfl
@[simp] theorem retain_floor (g : Bool) : (retain s o d f g).floor = s.floor := rfl
@[simp] theorem retain_acceptedSnapshot (g : Bool) : (retain s o d f g).acceptedSnapshot = s.acceptedSnapshot := rfl
@[simp] theorem retain_acceptedCertIds (g : Bool) : (retain s o d f g).acceptedCertIds = s.acceptedCertIds := rfl
@[simp] theorem retain_hasPrecedingCheckpoint (g : Bool) : (retain s o d f g).hasPrecedingCheckpoint = s.hasPrecedingCheckpoint := rfl
@[simp] theorem retain_precedingFloor (g : Bool) : (retain s o d f g).precedingFloor = s.precedingFloor := rfl
@[simp] theorem retain_precedingAcceptedCertIds (g : Bool) : (retain s o d f g).precedingAcceptedCertIds = s.precedingAcceptedCertIds := rfl

end Fields

/-! ## Lists -/

section Lists

variable {P}
variable {s : RevocationStatusStateV2} {list : RevocationListV2} {digest : Bytes}
  {obs : RevocationObservationV2} {fresh : Bool}

theorem raiseMax_eq (s : RevocationStatusStateV2) (n : Int) :
    (if n > s.maxObservedSequence then { s with maxObservedSequence := n } else s)
      = { s with maxObservedSequence := max s.maxObservedSequence n } := by
  by_cases h : n > s.maxObservedSequence
  · rw [if_pos h, max_eq_right h.le]
  · rw [if_neg h, max_eq_left (not_lt.mp h)]

theorem observeObject_eq (duplicate : Bool) :
    observeObject s obs duplicate = sighted s obs duplicate none := by
  simp only [observeObject, raiseMax_eq]
  cases duplicate <;> cases hf : obs.futureDated <;>
    simp [sighted, addRevocations, hf]

/-- Marking one sequence twice is marking it once. -/
theorem markForkIf_or (b c : Bool) (p : RevocationStatusStateV2 × RevocationObservationV2)
    (n : Int) : markForkIf c (markForkIf b p n) n = markForkIf (b || c) p n := by
  cases b <;> cases c <;> simp [markForkIf, markFork, max_comm]

/-- The three tests read nothing a fork mark changes, so they act as one. -/
theorem markListConflicts_eq :
    markListConflicts s obs = markForkIf (listConflicts s obs) (s, obs) obs.sequence := by
  have h₂ : ∀ b, listOmitsObserved (markForkIf b (s, obs) obs.sequence).1
      (markForkIf b (s, obs) obs.sequence).2 = listOmitsObserved s obs := by
    intro b; cases b <;> rfl
  have h₃ : ∀ b, snapshotConflictsWithPush (markForkIf b (s, obs) obs.sequence).1
      (markForkIf b (s, obs) obs.sequence).2.statusKeyEpoch obs.sequence
      (markForkIf b (s, obs) obs.sequence).2.revokedCertIds
      = snapshotConflictsWithPush s obs.statusKeyEpoch obs.sequence obs.revokedCertIds := by
    intro b; cases b <;> rfl
  simp only [markListConflicts, h₂, markForkIf_or, h₃, listConflicts]

theorem markFork_sighted (duplicate : Bool) :
    markFork (sighted s obs duplicate none) obs obs.sequence
      = (sighted s obs duplicate (some obs.sequence), { obs with fork := true }) := by
  simp [markFork, sighted]

/-- A list at the floor without a conflict names exactly the accepted set. -/
theorem equalSets_of_not_conflicts (h : listConflicts s obs = false) (hf : s.hasFloor = true)
    (hseq : obs.sequence = s.floor) :
    equalSets obs.revokedCertIds s.acceptedCertIds = true := by
  simp only [listConflicts, listContradictsFloor, Bool.or_eq_false_iff] at h
  simpa [hf, hseq] using h.1.1.1.2

theorem acceptList_eq (hclone : cloneList list = .ok list)
    (hids : obs.revokedCertIds = revokedIds list.revoked) :
    acceptList P s list digest obs
      = .ok (if s.hasFloor && list.sequence == s.floor then refreshSnapshot P s list digest
        else raiseFloor s list) := by
  unfold acceptList
  simp only [hclone, ok_bind, hids]
  by_cases hat : (s.hasFloor && list.sequence == s.floor) = true
  · simp only [if_pos hat, refreshSnapshot]
    change (if replacesSnapshot P s list digest = true then _ else _) = _
    by_cases hr : replacesSnapshot P s list digest = true
    · simp only [if_pos hr]
    · simp only [if_neg hr]
  · simp only [if_neg hat, raiseFloor]
    cases hnext : s.hasFloor && list.sequence == s.floor + 1 with
    | true => simp only [↓reduceIte]
    | false => simp only [Bool.false_eq_true, ↓reduceIte]

theorem recoverAfterList_eq (hids : obs.revokedCertIds = revokedIds list.revoked)
    (s : RevocationStatusStateV2) :
    recoverAfterList s list obs
      = { s with
          reconciliationRequired := s.reconciliationRequired
            && !(s.reconciliationRequired && settles s list)
          futureDatedObjectObserved := s.futureDatedObjectObserved
            && !(s.reconciliationRequired && settles s list)
          forkSequence := if s.reconciliationRequired && settles s list then 0
            else s.forkSequence } := by
  have hall : ((s.forkSequence == 0 || (decide (list.sequence > s.forkSequence)
        && decide (list.sequence ≥ s.maxObservedSequence)))
      && containsAll (revokedIds list.revoked) s.denyUnionCertIds
      && decide (list.sequence ≥ s.maxObservedSequence)) = settles s list := by
    rw [settles, Bool.eq_iff_iff]
    simp only [Bool.and_eq_true, Bool.or_eq_true]
    tauto
  cases hr : s.reconciliationRequired with
  | false =>
    simp only [recoverAfterList, hr, Bool.false_eq_true, ↓reduceIte, Bool.false_and,
      Bool.not_false, Bool.and_true]
    split
    · rw [← hr]
    · rw [← hr]
  | true =>
    simp only [recoverAfterList, hr, hids, hall, ↓reduceIte, Bool.true_and]
    cases hs : settles s list with
    | true => simp
    | false =>
      simp only [Bool.false_eq_true, ↓reduceIte, Bool.not_false, Bool.and_true]
      rw [← hr]

/-- The placement of a list whose conflict mark is `obs.fork`. -/
theorem placeList_eq (hclone : cloneList list = .ok list) (hseq : obs.sequence = list.sequence)
    (hids : obs.revokedCertIds = revokedIds list.revoked)
    {duplicate? : Option RevocationObservationV2}
    (hprior : ∀ prior, duplicate? = some prior → prior.accepted = false)
    (hfloor : obs.fork = false → s.hasFloor = true → list.sequence = s.floor →
      equalSets obs.revokedCertIds s.acceptedCertIds = true) :
    placeList P s list digest obs fresh duplicate?
      = .ok (match listPlacement s obs fresh obs.fork with
        | .aside => pushUnlessDuplicate s obs duplicate?.isSome
        | .gap => leaveGap s obs duplicate?.isSome
        | .accepted => acceptedList P s list digest obs) := by
  unfold listPlacement
  rw [hseq]
  unfold placeList
  cases fresh with
  | false =>
    simp only [Bool.not_false, ↓reduceIte]
    split <;> rfl
  | true =>
    simp only [Bool.not_true, Bool.false_eq_true, ↓reduceIte]
    by_cases hfork : obs.fork = true
    · simp only [if_pos hfork]
    by_cases hgap : (!s.hasFloor && (!containsAll obs.revokedCertIds s.denyUnionCertIds
        || decide (list.sequence < s.maxObservedSequence))) = true
    · simp only [if_neg hfork, if_pos hgap]
    by_cases hbelow : (s.hasFloor && decide (list.sequence < s.floor)) = true
    · simp only [if_neg hfork, if_neg hgap, if_pos hbelow]
    have heq : (s.hasFloor && list.sequence == s.floor
        && !equalSets obs.revokedCertIds s.acceptedCertIds) = false := by
      cases hf : s.hasFloor with
      | false => rfl
      | true =>
        by_cases hat : list.sequence = s.floor
        · simp [hfloor (by simpa using hfork) hf hat]
        · simp [hat]
    have hpush : (!duplicate?.isSome || (true && duplicate?.map (·.accepted) == some false))
        = true := by
      cases hd : duplicate? with
      | none => rfl
      | some prior => simp [hprior prior hd]
    simp only [if_neg hfork, if_neg hgap, if_neg hbelow, heq, Bool.false_eq_true, ↓reduceIte,
      acceptList_eq hclone hids, ok_bind, hpush, recoverAfterList_eq hids, acceptedList]
    cases s.hasFloor && list.sequence == s.floor <;> rfl

theorem pushUnlessDuplicate_eq (fork : Option Int) (duplicate : Bool) (hgap : obs.gap = false) :
    pushUnlessDuplicate (sighted s obs duplicate fork) { obs with fork := fork.isSome } duplicate
      = retain s obs duplicate fork false := by
  have hobs : { obs with fork := fork.isSome } = { obs with fork := fork.isSome, gap := false } := by
    rw [← hgap]
  rw [hobs]
  cases duplicate <;> simp [pushUnlessDuplicate, pushObservation, retain, sighted]

theorem leaveGap_eq (fork : Option Int) (duplicate : Bool) :
    leaveGap (sighted s obs duplicate fork) { obs with fork := fork.isSome } duplicate
      = retain s obs duplicate fork true := by
  cases duplicate <;> simp [leaveGap, pushUnlessDuplicate, pushObservation, retain, sighted]

/-- A redelivered list that is not settled was not accepted before. -/
theorem not_accepted_of_not_settled {prior : RevocationObservationV2}
    (h : listSettled P s list digest obs fresh (some prior) = false) : prior.accepted = false := by
  simp only [listSettled, settledByDuplicate, Bool.or_eq_false_iff] at h
  exact h.1.1.1.1.1

/-- The fork mark of a list. -/
def listFork (s : RevocationStatusStateV2) (obs : RevocationObservationV2) : Option Int :=
  if listConflicts s obs then some obs.sequence else none

/-- The retained observation a list redelivers. -/
def redelivers (s : RevocationStatusStateV2) (list : RevocationListV2) (digest : Bytes)
    (obs : RevocationObservationV2) : Option RevocationObservationV2 :=
  findObservation s.observations obs.statusKeyEpoch LIST list.sequence digest

/-- A list is accepted when it is fresh, conflicts with nothing, is not below the
floor, and as a first list covers everything denied and observed. -/
theorem listPlacement_eq_accepted_iff {conflict : Bool} :
    listPlacement s obs fresh conflict = .accepted ↔
      fresh = true ∧ conflict = false ∧ (s.hasFloor = true → s.floor ≤ obs.sequence) ∧
        (s.hasFloor = false → (∀ id ∈ s.denyUnionCertIds, id ∈ obs.revokedCertIds) ∧
          s.maxObservedSequence ≤ obs.sequence) := by
  unfold listPlacement
  cases fresh with
  | false => simp; split <;> simp
  | true =>
    cases conflict with
    | true => simp
    | false =>
      cases hf : s.hasFloor with
      | false =>
        rw [← containsAll_iff]
        cases containsAll obs.revokedCertIds s.denyUnionCertIds <;> simp
      | true => simp

/-- One list leaves the state, retains a sighting or is accepted. -/
theorem reduceList_eq (hclone : cloneList list = .ok list) (hseq : obs.sequence = list.sequence)
    (hids : obs.revokedCertIds = revokedIds list.revoked) (hfork : obs.fork = false)
    (hgap : obs.gap = false) :
    reduceList P s list digest obs fresh = .ok
      (if listSettled P s list digest obs fresh (redelivers s list digest obs) then s
      else match listPlacement (sighted s obs (redelivers s list digest obs).isSome none) obs
          fresh (listConflicts s obs) with
        | .aside => retain s obs (redelivers s list digest obs).isSome (listFork s obs) false
        | .gap => retain s obs (redelivers s list digest obs).isSome (listFork s obs) true
        | .accepted => acceptedList P
            (sighted s obs (redelivers s list digest obs).isSome none) list digest obs) := by
  unfold reduceList
  rw [← redelivers]
  generalize redelivers s list digest obs = dup
  by_cases hset : listSettled P s list digest obs fresh dup = true
  · simp only [if_pos hset]
  simp only [if_neg hset, observeObject_eq]
  have hobs : ∀ b, obs.fork = b → obs = { obs with fork := b } := by
    rintro _ rfl
    rfl
  have hmarked : markListConflicts (sighted s obs dup.isSome none) obs
      = (sighted s obs dup.isSome (listFork s obs), { obs with fork := (listFork s obs).isSome }) := by
    have hconf : listConflicts (sighted s obs dup.isSome none) obs = listConflicts s obs := rfl
    rw [markListConflicts_eq, hconf, listFork]
    cases listConflicts s obs with
    | true => exact markFork_sighted _
    | false =>
      have := hobs false hfork
      simp only [markForkIf, Bool.false_eq_true, ↓reduceIte, Option.isSome_none, ← this]
  have hplace : listPlacement (sighted s obs dup.isSome (listFork s obs))
      { obs with fork := (listFork s obs).isSome } fresh (listFork s obs).isSome
      = listPlacement (sighted s obs dup.isSome none) obs fresh (listConflicts s obs) := by
    rw [listFork]
    cases listConflicts s obs <;> rfl
  have hseq' : { obs with fork := (listFork s obs).isSome }.sequence = list.sequence := hseq
  rw [hmarked]
  dsimp only
  rw [placeList_eq hclone hseq' hids, hplace]
  · cases hp : listPlacement (sighted s obs dup.isSome none) obs fresh (listConflicts s obs) with
    | aside => simp only [pushUnlessDuplicate_eq _ _ hgap]
    | gap => simp only [leaveGap_eq]
    | accepted =>
      have hnone : listFork s obs = none := by
        cases hc : listConflicts s obs with
        | false => simp [listFork, hc]
        | true => exact absurd (listPlacement_eq_accepted_iff.mp hp).2.1 (by simp [hc])
      have := hobs false hfork
      simp only [hnone, Option.isSome_none, ← this]
  · intro prior hp
    exact not_accepted_of_not_settled (hp ▸ Bool.not_eq_true _ ▸ hset)
  · intro hnone hf hat
    have hconf : listConflicts s obs = false := by
      cases hc : listConflicts s obs with
      | false => rfl
      | true => simp [listFork, hc] at hnone
    exact equalSets_of_not_conflicts hconf hf (hseq.trans hat)

end Lists

/-! ## Pushes -/

section Pushes

variable {s : RevocationStatusStateV2} {push : RevocationPushV2} {obs : RevocationObservationV2}

/-- A push at or below the floor names an ID the accepted set lacks, or does not
lead from the preceding checkpoint to it. -/
def pushContradictsFloor (s : RevocationStatusStateV2) (obs : RevocationObservationV2) : Bool :=
  (obs.sequence == s.floor && s.hasPrecedingCheckpoint && s.precedingFloor == obs.sequence - 1
      && !equalSets s.acceptedCertIds (s.precedingAcceptedCertIds ++ obs.revokedCertIds))
    || !containsAll s.acceptedCertIds obs.revokedCertIds

/-- The sequence at which a push forks from the observations and the lists. -/
def pushSightingFork (s : RevocationStatusStateV2) (obs : RevocationObservationV2) : Option Int :=
  let first := if sequenceConflict s.observations obs then some obs.sequence else none
  (snapshotOmissionForPush (sighted s obs false first) obs.statusKeyEpoch obs).or first

/-- The fork mark of a push. -/
def pushFork (s : RevocationStatusStateV2) (obs : RevocationObservationV2) : Option Int :=
  if s.hasFloor && decide (obs.sequence ≤ s.floor) && pushContradictsFloor s obs then
    some ((pushSightingFork s obs).getD obs.sequence)
  else pushSightingFork s obs

/-- The push continues the accepted history. -/
def pushContinues (s : RevocationStatusStateV2) (obs : RevocationObservationV2) : Bool :=
  s.hasFloor && obs.sequence == s.floor + 1
    && !(sighted s obs false (pushSightingFork s obs)).reconciliationRequired

/-- The gap mark of a push that is not accepted. -/
def pushGap (s : RevocationStatusStateV2) (obs : RevocationObservationV2) : Bool :=
  if s.hasFloor && decide (obs.sequence ≤ s.floor) then
    obs.sequence == s.floor && (pushSightingFork s obs).isSome && !pushContradictsFloor s obs
  else (pushSightingFork s obs).isNone

/-- The state with the push accepted above the floor. -/
def acceptedPush (s : RevocationStatusStateV2) (obs : RevocationObservationV2) :
    RevocationStatusStateV2 :=
  { s with
    acceptedCertIds := sortedUnique (s.acceptedCertIds ++ obs.revokedCertIds)
    hasPrecedingCheckpoint := false
    precedingFloor := 0
    precedingAcceptedCertIds := []
    floor := obs.sequence
    observations := s.observations ++ [{ obs with accepted := true }] }

/-- The accepted snapshot at `n`, at or beyond the push, omits one of its IDs. -/
def SnapshotOmits (s : RevocationStatusStateV2) (epoch : Nat) (push : RevocationObservationV2)
    (n : Int) : Prop :=
  ∃ snap, s.acceptedSnapshot = some snap ∧ s.statusKeyEpoch = epoch ∧ snap.sequence = n ∧
    push.sequence ≤ n ∧ ∃ id ∈ push.revokedCertIds, id ∉ revokedIds snap.revoked

/-- A full list retained above the floor with a mark, at or beyond the push, omits
one of its IDs. -/
def MarkedListOmits (s : RevocationStatusStateV2) (epoch : Nat)
    (push o : RevocationObservationV2) : Prop :=
  o.statusKeyEpoch = epoch ∧ o.objectType = LIST ∧ s.floor < o.sequence ∧
    push.sequence ≤ o.sequence ∧ (o.fork || o.gap || o.futureDated) = true ∧
    ∃ id ∈ push.revokedCertIds, id ∉ o.revokedCertIds

/-- Some full list at `n` omits an ID of the push. -/
def Omits (s : RevocationStatusStateV2) (epoch : Nat) (push : RevocationObservationV2)
    (n : Int) : Prop :=
  SnapshotOmits s epoch push n ∨ (s.reconciliationRequired = true ∧
    ∃ o ∈ s.observations, MarkedListOmits s epoch push o ∧ o.sequence = n)

/-- A fold that moves to the value of a selected element when it is greater ends
at the greatest of its start and the selected values. -/
theorem foldl_greatest {α : Type} (p : α → Bool) (f : α → Int) (l : List α) (start : Int) :
    let r := l.foldl (fun c x => if p x && decide (f x > c) then f x else c) start
    (r = start ∨ ∃ x ∈ l, p x = true ∧ f x = r) ∧ start ≤ r ∧ ∀ x ∈ l, p x = true → f x ≤ r := by
  induction l generalizing start with
  | nil => simp
  | cons x l ih =>
    rw [List.foldl_cons]
    obtain ⟨h₁, h₂, h₃⟩ := ih (if p x && decide (f x > start) then f x else start)
    refine ⟨?_, ?_, ?_⟩
    · rcases h₁ with h₁ | ⟨y, hy, hp, hf⟩
      · by_cases hx : (p x && decide (f x > start)) = true
        · rw [if_pos hx] at h₁
          refine .inr ⟨x, by simp, ?_, ?_⟩
          · simp only [Bool.and_eq_true] at hx
            exact hx.1
          · rw [if_pos hx]
            exact h₁.symm
        · rw [if_neg hx] at h₁ ⊢
          exact .inl h₁
      · exact .inr ⟨y, by simp [hy], hp, hf⟩
    · refine le_trans ?_ h₂
      split
      · rename_i hx
        simp only [Bool.and_eq_true, decide_eq_true_eq] at hx
        exact hx.2.le
      · exact le_refl _
    · intro y hy hp
      rcases List.mem_cons.mp hy with rfl | hy
      · refine le_trans ?_ h₂
        split
        · exact le_refl _
        · rename_i hx
          simpa [hp] using hx
      · exact h₃ y hy hp

/-- The snapshot's own contribution: its sequence when it omits an ID, else zero. -/
def snapshotOmission (s : RevocationStatusStateV2) (epoch : Nat)
    (push : RevocationObservationV2) : Int :=
  match s.acceptedSnapshot with
  | some snap =>
    if s.statusKeyEpoch == epoch then
      if decide (snap.sequence ≥ push.sequence)
          && !containsAll (revokedIds snap.revoked) push.revokedCertIds
          && decide (snap.sequence > 0) then snap.sequence
      else 0
    else 0
  | none => 0

theorem snapshotOmission_spec (epoch : Nat) (hpos : 0 < obs.sequence) :
    (snapshotOmission s epoch obs = 0 ∧ ∀ n, ¬ SnapshotOmits s epoch obs n) ∨
      (0 < snapshotOmission s epoch obs ∧
        ∀ n, SnapshotOmits s epoch obs n ↔ n = snapshotOmission s epoch obs) := by
  unfold snapshotOmission SnapshotOmits
  cases hsnap : s.acceptedSnapshot with
  | none => simp
  | some snap =>
    by_cases hep : s.statusKeyEpoch = epoch
    swap
    · simp [hep]
    by_cases hc : obs.sequence ≤ snap.sequence ∧
        ∃ id ∈ obs.revokedCertIds, id ∉ revokedIds snap.revoked
    · obtain ⟨hle, hom⟩ := hc
      have hpos' : 0 < snap.sequence := by omega
      right
      simp only [hep, beq_self_eq_true, ↓reduceIte, hle, containsAll_eq_false_iff.mpr hom, hpos',
        decide_true, Bool.not_false, Bool.and_self, true_and,
        Option.some.injEq, exists_eq_left']
      intro n
      constructor
      · rintro ⟨rfl, -⟩
        rfl
      · rintro rfl
        exact ⟨rfl, hle, hom⟩
    · left
      have hif : (decide (snap.sequence ≥ obs.sequence)
          && !containsAll (revokedIds snap.revoked) obs.revokedCertIds
          && decide (snap.sequence > 0)) = false := by
        rw [← Bool.not_eq_true]
        simp only [Bool.and_eq_true, decide_eq_true_eq, Bool.not_eq_true',
          containsAll_eq_false_iff]
        exact fun h => hc h.1
      simp only [hep, beq_self_eq_true, ↓reduceIte, hif, Bool.false_eq_true, true_and,
        Option.some.injEq, exists_eq_left']
      rintro n ⟨rfl, h⟩
      exact hc h

/-- `MarkedListOmits` as the reducer computes it. -/
def markedListOmits (s : RevocationStatusStateV2) (epoch : Nat)
    (push o : RevocationObservationV2) : Bool :=
  o.statusKeyEpoch == epoch && o.objectType == LIST && decide (o.sequence > s.floor)
    && decide (o.sequence ≥ push.sequence) && (o.fork || o.gap || o.futureDated)
    && !containsAll o.revokedCertIds push.revokedCertIds

theorem markedListOmits_iff {epoch : Nat} {push o : RevocationObservationV2} :
    markedListOmits s epoch push o = true ↔ MarkedListOmits s epoch push o := by
  simp only [markedListOmits, MarkedListOmits, Bool.and_eq_true, beq_iff_eq, decide_eq_true_eq,
    Bool.not_eq_true', containsAll_eq_false_iff, and_assoc, ge_iff_le, gt_iff_lt]

theorem snapshotOmissionForPush_eq (epoch : Nat) :
    snapshotOmissionForPush s epoch obs =
      let conflicting := if s.reconciliationRequired then
          s.observations.foldl (fun c o =>
            if markedListOmits s epoch obs o && decide (o.sequence > c) then o.sequence else c)
            (snapshotOmission s epoch obs)
        else snapshotOmission s epoch obs
      if conflicting != 0 then some conflicting else none := by
  have hstep : (fun (c : Int) (o : RevocationObservationV2) =>
      if o.statusKeyEpoch == epoch && o.objectType == LIST && decide (o.sequence > s.floor)
          && decide (o.sequence ≥ obs.sequence) && (o.fork || o.gap || o.futureDated) then
        if decide (o.sequence ≥ obs.sequence)
            && !containsAll o.revokedCertIds obs.revokedCertIds && decide (o.sequence > c) then
          o.sequence
        else c
      else c)
      = fun c o =>
        if markedListOmits s epoch obs o && decide (o.sequence > c) then o.sequence else c := by
    have hif : ∀ (a b d e f : Bool) (x c : Int),
        (if a && b && d then if b && e && f then x else c else c)
          = if a && b && d && e && f then x else c := by
      intro a b d e f x c
      cases a <;> cases b <;> cases d <;> rfl
    funext c o
    exact hif _ _ _ _ _ _ _
  simp only [snapshotOmissionForPush, hstep]
  rfl

/-- The reported sequence is the greatest one at which a full list omits an ID. -/
theorem snapshotOmissionForPush_spec (s : RevocationStatusStateV2) (epoch : Nat) (hpos : 0 < obs.sequence) :
    match snapshotOmissionForPush s epoch obs with
    | none => ∀ n, ¬ Omits s epoch obs n
    | some n => Omits s epoch obs n ∧ ∀ m, Omits s epoch obs m → m ≤ n := by
  rw [snapshotOmissionForPush_eq]
  have hsnap := snapshotOmission_spec (s := s) epoch hpos
  generalize snapshotOmission s epoch obs = start at hsnap ⊢
  have hpos_of : ∀ n, Omits s epoch obs n → 0 < n := by
    rintro n (⟨_, -, -, -, hle, -⟩ | ⟨-, o, -, ⟨-, -, -, hle, -⟩, rfl⟩) <;> omega
  -- The value the source accumulates is zero or the greatest omission.
  have hall : ∀ c, (c = start ∨ (s.reconciliationRequired = true ∧ ∃ o ∈ s.observations,
        MarkedListOmits s epoch obs o ∧ o.sequence = c)) → start ≤ c →
      (s.reconciliationRequired = true → ∀ o ∈ s.observations,
        MarkedListOmits s epoch obs o → o.sequence ≤ c) →
      match (if c != 0 then some c else none : Option Int) with
      | none => ∀ n, ¬ Omits s epoch obs n
      | some n => Omits s epoch obs n ∧ ∀ m, Omits s epoch obs m → m ≤ n := by
    intro c hc hstart hmax
    have hle : ∀ m, Omits s epoch obs m → m ≤ c := by
      rintro m (hm | ⟨hr, o, ho, hom, rfl⟩)
      · rcases hsnap with ⟨-, hnone⟩ | ⟨-, hiff⟩
        · exact absurd hm (hnone m)
        · rw [(hiff m).mp hm]
          exact hstart
      · exact hmax hr o ho hom
    by_cases hz : c = 0
    · simp only [hz, bne_self_eq_false, Bool.false_eq_true, ↓reduceIte]
      intro n hn
      have := hpos_of n hn
      have := hle n hn
      omega
    · simp only [bne_iff_ne, ne_eq, hz, not_false_eq_true, ↓reduceIte]
      refine ⟨?_, hle⟩
      rcases hc with rfl | hc
      · rcases hsnap with ⟨h0, -⟩ | ⟨-, hiff⟩
        · exact absurd h0 hz
        · exact .inl ((hiff _).mpr rfl)
      · exact .inr hc
  cases hr : s.reconciliationRequired with
  | false =>
    exact hall start (.inl rfl) (le_refl _) (by simp [hr])
  | true =>
    obtain ⟨h₁, h₂, h₃⟩ := foldl_greatest (markedListOmits s epoch obs) (·.sequence)
      s.observations start
    refine hall _ (h₁.imp id ?_) h₂ ?_
    · rintro ⟨o, ho, hm, hf⟩
      exact ⟨hr, o, ho, markedListOmits_iff.mp hm, hf⟩
    · intro _ o ho hm
      exact h₃ o ho (markedListOmits_iff.mpr hm)

theorem sequence_le_of_omits {epoch : Nat} {n : Int} (h : Omits s epoch obs n) :
    obs.sequence ≤ n := by
  rcases h with ⟨_, -, -, -, hle, -⟩ | ⟨-, o, -, ⟨-, -, -, hle, -⟩, rfl⟩
  · exact hle
  · exact hle

/-- A second mark at or beyond the first replaces it. -/
theorem markFork_sighted_again {first : Option Int} {o : RevocationObservationV2} {n : Int}
    (h : ∀ m, first = some m → m ≤ n) :
    markFork (sighted s obs false first) o n
      = (sighted s obs false (some n), { o with fork := true }) := by
  cases first with
  | none => simp [markFork, sighted]
  | some m =>
    have hm := h m rfl
    have hmax : max (max (max (max (max (max s.forkSequence s.floor) m) 0) s.floor) n) 0
        = max (max (max s.forkSequence s.floor) n) 0 := by omega
    simp only [markFork, sighted, hmax, Option.isSome_some, Bool.or_true]

/-- Both marks of a push leave the later one. -/
theorem markPushConflicts_eq (hfork : obs.fork = false) (hpos : 0 < obs.sequence) :
    markPushConflicts (sighted s obs false none) obs
      = (sighted s obs false (pushSightingFork s obs),
          { obs with fork := (pushSightingFork s obs).isSome }) := by
  unfold markPushConflicts pushSightingFork
  have hconf : sequenceConflict (sighted s obs false none).observations obs
      = sequenceConflict s.observations obs := rfl
  have hfirst : ∀ b, markForkIf b (sighted s obs false none, obs) obs.sequence
      = (sighted s obs false (if b then some obs.sequence else none), { obs with fork := b }) := by
    intro b
    cases b with
    | true => exact markFork_sighted_again (by simp)
    | false =>
      have : obs = { obs with fork := false } := by rw [← hfork]
      simp only [markForkIf, Bool.false_eq_true, ↓reduceIte, ← this]
  rw [hconf, hfirst]
  have hb : ∀ b : Bool, (if b then some obs.sequence else none).isSome = b := by
    intro b
    cases b <;> rfl
  have homit : ∀ first b, snapshotOmissionForPush (sighted s obs false first)
      obs.statusKeyEpoch { obs with fork := b }
      = snapshotOmissionForPush (sighted s obs false first) obs.statusKeyEpoch obs :=
    fun first b => rfl
  generalize sequenceConflict s.observations obs = b
  dsimp only
  rw [homit]
  have hspec := snapshotOmissionForPush_spec
    (sighted s obs false (if b then some obs.sequence else none)) obs.statusKeyEpoch hpos
  cases hom : snapshotOmissionForPush
      (sighted s obs false (if b then some obs.sequence else none)) obs.statusKeyEpoch obs with
  | none => simp only [Option.none_or, hb]
  | some n =>
    rw [hom] at hspec
    have hle := sequence_le_of_omits hspec.1
    refine (markFork_sighted_again ?_).trans (by simp)
    intro m hm
    cases b with
    | true =>
      obtain rfl := Option.some.inj hm
      exact hle
    | false => simp at hm

/-- A second mark at or below the first adds nothing to it. -/
theorem markFork_sighted_below {first : Option Int} {o : RevocationObservationV2} {n : Int}
    (h : ∀ m, first = some m → n ≤ m) :
    markFork (sighted s obs false first) o n
      = (sighted s obs false (some (first.getD n)), { o with fork := true }) := by
  cases first with
  | none => simp [markFork, sighted]
  | some m =>
    have hm := h m rfl
    have hmax : max (max (max (max (max (max s.forkSequence s.floor) m) 0) s.floor) n) 0
        = max (max (max s.forkSequence s.floor) m) 0 := by omega
    simp only [markFork, sighted, hmax, Option.isSome_some, Bool.or_true, Option.getD_some]

theorem sequence_le_of_pushSightingFork (hpos : 0 < obs.sequence) {n : Int}
    (h : pushSightingFork s obs = some n) : obs.sequence ≤ n := by
  have hspec := snapshotOmissionForPush_spec (sighted s obs false
    (if sequenceConflict s.observations obs then some obs.sequence else none))
    obs.statusKeyEpoch hpos
  unfold pushSightingFork at h
  dsimp only at h
  cases hom : snapshotOmissionForPush (sighted s obs false
      (if sequenceConflict s.observations obs then some obs.sequence else none))
      obs.statusKeyEpoch obs with
  | none =>
    rw [hom, Option.none_or] at h
    split at h
    · obtain rfl := Option.some.inj h
      exact le_refl _
    · cases h
  | some m =>
    rw [hom] at h hspec
    obtain rfl := Option.some.inj h
    exact sequence_le_of_omits hspec.1

theorem pushObservation_eq (fork : Option Int) (hgap : obs.gap = false) :
    pushObservation (sighted s obs false fork) { obs with fork := fork.isSome }
      = retain s obs false fork false :=
  pushUnlessDuplicate_eq fork false hgap

theorem pushObservation_gap_eq (fork : Option Int) :
    pushObservation { sighted s obs false fork with reconciliationRequired := true }
      { obs with fork := fork.isSome, gap := true } = retain s obs false fork true :=
  leaveGap_eq fork false

theorem placePushAtFloor_eq {f : Option Int} (hseq : obs.sequence = push.sequence)
    (hat : obs.sequence = s.floor) (hgap : obs.gap = false)
    (hmark : ∀ n, f = some n → obs.sequence ≤ n) :
    placePushAtFloor (sighted s obs false f) push { obs with fork := f.isSome }
      = if pushContradictsFloor s obs then retain s obs false (some (f.getD obs.sequence)) false
        else retain s obs false f f.isSome := by
  unfold placePushAtFloor pushContradictsFloor
  simp only [← hseq, sighted_hasPrecedingCheckpoint, sighted_precedingFloor,
    sighted_acceptedCertIds, sighted_precedingAcceptedCertIds, hat, beq_self_eq_true,
    Bool.true_and]
  generalize (s.hasPrecedingCheckpoint && s.precedingFloor == s.floor - 1
    && !equalSets s.acceptedCertIds (s.precedingAcceptedCertIds ++ obs.revokedCertIds)) = a
  generalize containsAll s.acceptedCertIds obs.revokedCertIds = b
  rw [← hat]
  by_cases hc : (a || !b) = true
  · simp only [if_pos hc, markFork_sighted_below hmark]
    exact pushObservation_eq (some _) hgap
  · obtain ⟨rfl, rfl⟩ : a = false ∧ b = true := by simpa using hc
    simp only [Bool.not_true, Bool.or_self, Bool.false_eq_true, ↓reduceIte, Bool.and_true]
    cases f with
    | none => exact pushObservation_eq none hgap
    | some n => exact pushObservation_gap_eq (some n)

/-- One push leaves the state, is accepted as the next sequence or is retained. -/
theorem reducePush_eq (hseq : obs.sequence = push.sequence) (hfork : obs.fork = false)
    (hgap : obs.gap = false) (hpos : 0 < obs.sequence) :
    reducePush s push obs =
      if pushSettled s push obs then s
      else if pushContinues s obs then acceptedPush (sighted s obs false none) obs
      else retain s obs false (pushFork s obs) (pushGap s obs) := by
  unfold reducePush
  by_cases hset : pushSettled s push obs = true
  · simp only [if_pos hset]
  simp only [if_neg hset, observeObject_eq, markPushConflicts_eq hfork hpos]
  have hmark := fun n => sequence_le_of_pushSightingFork (s := s) (n := n) hpos
  unfold placePush pushContinues pushFork pushGap
  generalize pushSightingFork s obs = f at hmark ⊢
  have hcond : (!(sighted s obs false f).hasFloor
      || obs.sequence != (if (sighted s obs false f).hasFloor then
        (sighted s obs false f).floor + 1 else 1)
      || (sighted s obs false f).reconciliationRequired || obs.futureDated)
      = !(s.hasFloor && obs.sequence == s.floor + 1
        && !(sighted s obs false f).reconciliationRequired) := by
    cases hf : s.hasFloor <;> cases hd : obs.futureDated <;> simp [sighted, hf, hd, bne]
  simp only [← hseq, hcond]
  rw [sighted_hasFloor, sighted_floor]
  by_cases hle : (s.hasFloor && decide (obs.sequence ≤ s.floor)) = true
  · have hnext : (s.hasFloor && obs.sequence == s.floor + 1
        && !(sighted s obs false f).reconciliationRequired) = false := by
      simp only [Bool.and_eq_true, decide_eq_true_eq] at hle
      have : ¬ obs.sequence = s.floor + 1 := by omega
      simp [this]
    simp only [hle, hnext, Bool.false_eq_true, ↓reduceIte, Bool.true_and]
    by_cases hat : obs.sequence = s.floor
    · rw [placePushAtFloor_eq hseq hat hgap hmark]
      cases hc : pushContradictsFloor s obs <;> simp [hat]
    · have hc : pushContradictsFloor s obs = !containsAll s.acceptedCertIds obs.revokedCertIds := by
        simp [pushContradictsFloor, hat]
      simp only [beq_eq_false_iff_ne.mpr hat, hc, Bool.false_eq_true, ↓reduceIte, Bool.false_and,
        sighted_acceptedCertIds]
      cases !containsAll s.acceptedCertIds obs.revokedCertIds with
      | true =>
        simp only [markForkIf, ↓reduceIte, markFork_sighted_below hmark]
        exact pushObservation_eq (some _) hgap
      | false => exact pushObservation_eq f hgap
  · simp only [hle, Bool.false_eq_true, ↓reduceIte, Bool.false_and]
    cases hcont : s.hasFloor && obs.sequence == s.floor + 1
        && !(sighted s obs false f).reconciliationRequired with
    | true =>
      cases f with
      | some n => simp [sighted] at hcont
      | none =>
        simp only [Bool.and_eq_true] at hcont
        simp only [Bool.not_true, Bool.false_eq_true, ↓reduceIte, Option.isSome_none,
          pushObservation, acceptedPush, sighted_hasFloor, hcont.1.1]
        rw [hfork]
    | false =>
      simp only [Bool.not_false, ↓reduceIte, Bool.false_eq_true]
      cases f with
      | none => exact pushObservation_gap_eq none
      | some n =>
        have hrec : { sighted s obs false (some n) with reconciliationRequired := true }
            = sighted s obs false (some n) := by
          simp [sighted]
        have hobs : { obs with fork := true, gap := false } = { obs with fork := true } := by
          rw [← hgap]
        simp only [Option.isSome_some, Bool.not_true, hobs]
        change pushObservation { sighted s obs false (some n) with reconciliationRequired := true }
          { obs with fork := true } = _
        rw [hrec]
        exact pushObservation_eq (some n) hgap

end Pushes

end RatifyProtocol.V2
