import Mathlib.Data.List.Nodup
import Mathlib.Data.List.Range
import RatifyProtocol.V2.Delegation.Local
set_option autoImplicit false

/-!
# V2: what the local stage concludes

The loop of `evaluate_v2_local_constraints`, read as a whole: the worst of the verdicts,
the constraints that are put off and the least of the horizons.
-/

namespace RatifyProtocol.V2

open Foundation

/-! ## The worst of several statuses -/

namespace ConstraintStatusV2

theorem precedence_merge (a b : ConstraintStatusV2) :
    (a.merge b).precedence = max a.precedence b.precedence := by
  rw [merge]
  split
  · rename_i h
    exact (max_eq_right h.le).symm
  · rename_i h
    exact (max_eq_left (not_lt.mp h)).symm

/-- The status of a stage whose constraints have these. -/
def worst (statuses : List ConstraintStatusV2) : ConstraintStatusV2 := statuses.foldl merge .passed

theorem precedence_foldl_merge_le_iff {statuses : List ConstraintStatusV2}
    {a : ConstraintStatusV2} {n : Nat} :
    (statuses.foldl merge a).precedence ≤ n ↔
      a.precedence ≤ n ∧ ∀ x ∈ statuses, x.precedence ≤ n := by
  induction statuses generalizing a with
  | nil => simp
  | cons x statuses ih =>
    rw [List.foldl_cons, ih, precedence_merge, max_le_iff, List.forall_mem_cons, and_assoc]

theorem precedence_worst_le_iff {statuses : List ConstraintStatusV2} {n : Nat} :
    (worst statuses).precedence ≤ n ↔ ∀ x ∈ statuses, x.precedence ≤ n := by
  rw [worst, precedence_foldl_merge_le_iff]
  exact and_iff_right (Nat.zero_le n)

theorem worst_eq_passed_iff {statuses : List ConstraintStatusV2} :
    worst statuses = .passed ↔ ∀ x ∈ statuses, x = .passed := by
  have hzero (x : ConstraintStatusV2) : x = .passed ↔ x.precedence ≤ 0 := by
    cases x <;> simp [precedence]
  rw [hzero, precedence_worst_le_iff]
  simp only [hzero]

end ConstraintStatusV2

/-! ## The constraints of a bundle -/

/-- Where a constraint stands. -/
def PlacedConstraint.position (p : PlacedConstraint) : Nat × Nat :=
  (p.delegationIndex, p.constraintIndex)

/-- The constraints of a bundle are those of its certificates, each in its place. -/
theorem mem_placed_iff {b : ProofBundleV2} {p : PlacedConstraint} : p ∈ b.placed ↔
    ∃ c, b.delegations[p.delegationIndex]? = some c ∧ c.issuerId = p.issuerId
      ∧ c.certId = p.certId ∧ c.constraints[p.constraintIndex]? = some p.constraint := by
  simp only [ProofBundleV2.placed, List.mem_flatMap, List.mem_map, Prod.exists,
    List.mem_zipIdx_iff_getElem?]
  constructor
  · rintro ⟨c, i, hcert, k, j, hconstraint, rfl⟩
    exact ⟨c, hcert, rfl, rfl, hconstraint⟩
  · rintro ⟨c, hcert, hissuer, hid, hconstraint⟩
    refine ⟨c, p.delegationIndex, hcert, p.constraint, p.constraintIndex, hconstraint, ?_⟩
    cases p
    cases hissuer
    cases hid
    rfl

/-- No two constraints stand in one place. -/
theorem nodup_placed_position (b : ProofBundleV2) :
    (b.placed.map PlacedConstraint.position).Nodup := by
  have hplaces : b.placed.map PlacedConstraint.position = b.delegations.zipIdx.flatMap fun c =>
      c.1.constraints.zipIdx.map fun k => (c.2, k.2) := by
    rw [ProofBundleV2.placed, List.map_flatMap]
    simp only [List.map_map]
    rfl
  have hindices {α : Type} (xs : List α) : (xs.zipIdx.map Prod.snd).Nodup := by
    rw [List.zipIdx_map_snd]
    exact List.nodup_range'
  rw [hplaces, List.nodup_flatMap]
  constructor
  · intro c _
    have hpair : (c.1.constraints.zipIdx.map fun k => (c.2, k.2))
        = (c.1.constraints.zipIdx.map Prod.snd).map fun j => (c.2, j) := by
      rw [List.map_map]
      rfl
    rw [hpair]
    exact (hindices _).map fun j j' h => (Prod.mk.inj h).2
  · have hdistinct := List.pairwise_map.mp (hindices b.delegations)
    refine hdistinct.imp fun hne => ?_
    refine List.disjoint_left.mpr ?_
    intro x hx hx'
    obtain ⟨j, -, rfl⟩ := List.mem_map.mp hx
    obtain ⟨j', -, heq⟩ := List.mem_map.mp hx'
    exact hne (Prod.mk.inj heq).1.symm

/-! ## One verdict -/

namespace LocalVerdict

def status : LocalVerdict → ConstraintStatusV2
  | .deferred _ => .passed
  | .unencodable _ => .unverifiable
  | .evaluated (.ok _) => .passed
  | .evaluated (.error failure) => failure.status

/-- The constraint that a verdict puts off. -/
def postponed : LocalVerdict → Option V2DeferredConstraint
  | .deferred d => some d
  | _ => none

/-- The horizon of an extension that passed. -/
def horizon : LocalVerdict → Option Int
  | .evaluated (.ok t) => if t = 0 then none else some t
  | _ => none

end LocalVerdict

variable {s : LocalInputs}

/-- A constraint of the audience or the rate stage is put off as it is signed. -/
theorem verdict_staged {p : PlacedConstraint} (hkind : p.constraint.kind = constraintMaxRate
      ∨ p.constraint.kind = constraintReceiverAudience) {encoded : Bytes}
    (h : p.constraint.canonicalJson = .ok encoded) :
    p.verdict s = .deferred { delegationIndex := p.delegationIndex
                              constraintIndex := p.constraintIndex, issuerId := p.issuerId
                              certId := p.certId, kind := p.constraint.kind
                              canonicalJson := encoded } := by
  rw [PlacedConstraint.verdict, localVerdict, if_pos hkind, h]

/-- Only such a constraint is put off. -/
theorem postponed_eq_some {p : PlacedConstraint} {d : V2DeferredConstraint}
    (h : (p.verdict s).postponed = some d) :
    (p.constraint.kind = constraintMaxRate ∨ p.constraint.kind = constraintReceiverAudience)
      ∧ p.constraint.canonicalJson = .ok d.canonicalJson
      ∧ d = { delegationIndex := p.delegationIndex, constraintIndex := p.constraintIndex
              issuerId := p.issuerId, certId := p.certId, kind := p.constraint.kind
              canonicalJson := d.canonicalJson } := by
  rw [PlacedConstraint.verdict, localVerdict] at h
  split at h
  · rename_i hkind
    split at h
    · rename_i encoded hencoded
      obtain rfl := Option.some.inj h
      exact ⟨hkind, hencoded, rfl⟩
    · cases h
  · split at h
    · split at h
      · cases h
      · cases h
    · cases h

/-! ## The loop -/

/-- What the loop adds to what it has. -/
theorem foldl_record_eq (ps : List PlacedConstraint) : ∀ acc : LocalConstraints,
    let r := ps.foldl
      (fun acc p => acc.record p.delegationIndex p.constraintIndex (p.verdict s)) acc
    r.deferred = acc.deferred ++ ps.filterMap (fun p => (p.verdict s).postponed)
      ∧ r.status = (ps.map fun p => (p.verdict s).status).foldl ConstraintStatusV2.merge acc.status
      ∧ r.extensionHorizon
        = (ps.filterMap fun p => (p.verdict s).horizon).foldl tighten acc.extensionHorizon := by
  induction ps with
  | nil => intro acc; simp
  | cons p ps ih =>
    intro acc
    obtain ⟨hdeferred, hstatus, hhorizon⟩ :=
      ih (acc.record p.delegationIndex p.constraintIndex (p.verdict s))
    have hpassed (status : ConstraintStatusV2) :
        status.merge ConstraintStatusV2.passed = status := by
      cases status <;> rfl
    simp only [List.foldl_cons, List.map_cons]
    rw [hdeferred, hstatus, hhorizon]
    cases hverdict : p.verdict s with
    | deferred d =>
      simp [LocalConstraints.record, LocalVerdict.postponed, LocalVerdict.status,
        LocalVerdict.horizon, hverdict, hpassed]
    | unencodable e =>
      simp [LocalConstraints.record, LocalVerdict.postponed, LocalVerdict.status,
        LocalVerdict.horizon, hverdict]
    | evaluated r =>
      cases r with
      | error failure =>
        simp [LocalConstraints.record, LocalVerdict.postponed, LocalVerdict.status,
          LocalVerdict.horizon, hverdict]
      | ok t =>
        by_cases ht : t = 0
        · simp [LocalConstraints.record, LocalVerdict.postponed, LocalVerdict.status,
            LocalVerdict.horizon, hverdict, hpassed, ht]
        · simp [LocalConstraints.record, LocalVerdict.postponed, LocalVerdict.status,
            LocalVerdict.horizon, hverdict, hpassed, ht]

variable {b : ProofBundleV2}

theorem evaluateV2LocalConstraints_deferred : (evaluateV2LocalConstraints s b).deferred
    = b.placed.filterMap fun p => (p.verdict s).postponed := by
  rw [evaluateV2LocalConstraints, (foldl_record_eq b.placed .empty).1]
  rfl

theorem evaluateV2LocalConstraints_status : (evaluateV2LocalConstraints s b).status
    = ConstraintStatusV2.worst (b.placed.map fun p => (p.verdict s).status) := by
  rw [evaluateV2LocalConstraints, (foldl_record_eq b.placed .empty).2.1]
  rfl

/-- A horizon is later than the time of the evaluation, or the last instant there is. -/
theorem horizon_eq_some {p : PlacedConstraint} {t : Int} (h : (p.verdict s).horizon = some t) :
    s.now < t ∨ t = v2MaxTimestampSeconds := by
  have hpass {entry : RegisteredEvaluator} {timeout : String}
      {input : ConstraintEvaluationInputV2} (hne : t ≠ 0)
      (hrun : runConstraintEvaluatorV2 entry timeout input = .ok t) :
      input.evaluationTime < t ∨ t = v2MaxTimestampSeconds := by
    rw [runConstraintEvaluatorV2] at hrun
    split at hrun
    · cases hrun
    · cases hrun
    · cases hrun
    · cases hrun
    rename_i result _
    rw [mapEvaluatorResult] at hrun
    split at hrun
    · split_ifs at hrun with hzero hpast
      · exact absurd (Except.ok.inj hrun).symm hne
      · obtain rfl := Except.ok.inj hrun
        obtain hmin | hmin := min_choice result.validUntil v2MaxTimestampSeconds
        · rw [hmin]
          exact .inl (not_le.mp hpast)
        · exact .inr hmin
    · split_ifs at hrun
    · split_ifs at hrun
    · cases hrun
  have hpos {r : Except ConstraintFailure Int}
      (hr : (LocalVerdict.evaluated r).horizon = some t) : r = .ok t ∧ t ≠ 0 := by
    cases r with
    | error failure => cases hr
    | ok u =>
      rw [LocalVerdict.horizon] at hr
      split at hr
      · cases hr
      · rename_i hne
        obtain rfl := Option.some.inj hr
        exact ⟨rfl, hne⟩
  rw [PlacedConstraint.verdict, localVerdict] at h
  split at h
  · split at h
    · cases h
    · cases h
  split at h
  · split at h
    · obtain ⟨hr, -⟩ := hpos h
      cases hr
    · obtain ⟨hr, hne⟩ := hpos h
      exact hpass hne hr
  · obtain ⟨hr, hne⟩ := hpos h
    cases hconstraint : evaluateConstraintV2 s.archive p.constraint s.context s.tzdbVersion s.now with
    | error failure =>
      rw [hconstraint] at hr
      cases hr
    | ok u =>
      rw [hconstraint] at hr
      exact absurd (Except.ok.inj hr).symm hne

/-- The horizons that the extensions of a bundle give. -/
def ProofBundleV2.extensionHorizons (s : LocalInputs) (b : ProofBundleV2) : Set Int :=
  {t | ∃ p ∈ b.placed, (p.verdict s).horizon = some t}

/-- The extension horizon is the least there is, and zero where there is none. -/
theorem evaluateV2LocalConstraints_horizon (hnow : 0 ≤ s.now) :
    ((evaluateV2LocalConstraints s b).extensionHorizon = 0 ∧ b.extensionHorizons s = ∅)
      ∨ (0 < (evaluateV2LocalConstraints s b).extensionHorizon
        ∧ IsLeast (b.extensionHorizons s) (evaluateV2LocalConstraints s b).extensionHorizon) := by
  have hlist : b.extensionHorizons s
      = {t | t ∈ b.placed.filterMap fun p => (p.verdict s).horizon} := by
    ext t
    simp [ProofBundleV2.extensionHorizons, List.mem_filterMap]
  have hpositive : ∀ t ∈ b.placed.filterMap fun p => (p.verdict s).horizon, 0 < t := by
    intro t ht
    obtain ⟨p, -, hp⟩ := List.mem_filterMap.mp ht
    obtain hlate | hlast := horizon_eq_some hp
    · exact lt_of_le_of_lt hnow hlate
    · rw [hlast]
      decide
  rw [hlist, evaluateV2LocalConstraints, (foldl_record_eq b.placed .empty).2.2]
  by_cases hnone : (b.placed.filterMap fun p => (p.verdict s).horizon) = []
  · rw [hnone]
    exact .inl ⟨rfl, by simp⟩
  · have hleast := foldl_tighten_isLeast hnone hpositive
    exact .inr ⟨hpositive _ hleast.1, hleast⟩

/-- The local stage passes when no constraint fails it. -/
theorem evaluateV2LocalConstraints_passed_iff :
    (evaluateV2LocalConstraints s b).status = .passed ↔
      ∀ p ∈ b.placed, (p.verdict s).status = .passed := by
  rw [evaluateV2LocalConstraints_status, ConstraintStatusV2.worst_eq_passed_iff]
  simp

end RatifyProtocol.V2
