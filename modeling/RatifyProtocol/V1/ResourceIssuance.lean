import RatifyProtocol.V1.Constraints
import RatifyProtocol.V2.Delegation.Issuance
set_option autoImplicit false

/-!
# V1: issuance of resource bounds

`validate_resource_constraints` of `resource_path.rs` against the evaluator and
against the v2 check: a set is issued exactly when one request passes it, but
for the empty prefix, which the issuer reads as absent and the evaluator as
malformed.
-/

namespace RatifyProtocol.V1

open Foundation
open V2 (ConstraintV2 DelegationCertV2 resourceBoundsV2 validateDelegationIssuanceV2
  validateLifetimeV2 validateResourcePathsV2_eq_ok_iff)

/-- The loop over the constraints from position `i`, with the resource and the
prefixes so far. -/
def validateResourceConstraintsFrom :
    Nat → Option String → List String → List Constraint → Except String Unit
  | _, _, _, [] => .ok ()
  | i, resourceId, prefixes, c :: cs =>
    if c.kind ≠ "resource_path" then
      validateResourceConstraintsFrom (i + 1) resourceId prefixes cs
    else if c.resourceId = "" then
      .error s!"constraint[{i}]: resource_path requires a non-empty resource_id"
    else if (utf8 c.resourceId).length > maxIdentifierLengthBytes then
      .error s!"constraint[{i}]: resource_id is {(utf8 c.resourceId).length} bytes, exceeding MAX_IDENTIFIER_LENGTH_BYTES ({maxIdentifierLengthBytes})"
    else
      let thisPrefix := c.pathPrefix.getD ""
      match prefixError thisPrefix with
      | some e => .error s!"constraint[{i}]: invalid path_prefix: {e}"
      | none =>
        if resourceId.any fun rid => decide (c.resourceId ≠ rid) then
          .error s!"constraint[{i}]: certificate carries resource_path constraints naming different resource_ids — jointly unsatisfiable (SPEC §5.7.3); issue separate certificates"
        else
          match prefixes.find? fun prev => !resourcePathsNested prev thisPrefix with
          | some prev =>
            .error s!"constraint[{i}]: same-resource path_prefix values \"{prev}\" and \"{thisPrefix}\" do not nest — jointly unsatisfiable (SPEC §5.7.3); narrow to one prefix or issue separate certificates"
          | none =>
            validateResourceConstraintsFrom (i + 1) (some (resourceId.getD c.resourceId))
              (prefixes ++ [thisPrefix]) cs

/-- `validate_resource_constraints`. -/
def validateResourceConstraints (constraints : List Constraint) : Except String Unit :=
  validateResourceConstraintsFrom 0 none [] constraints

/-! ## What is issued -/

/-- The bound that the issuer reads in a constraint. -/
def Constraint.resourceBound (c : Constraint) : ResourceBound :=
  ⟨c.resourceId, c.pathPrefix.getD ""⟩

/-- The bounds among the constraints. -/
def resourceBounds (cs : List Constraint) : List ResourceBound :=
  (cs.filter fun c => c.kind == "resource_path").map Constraint.resourceBound

/-- A resource ID that a bound may name. -/
def SoundResourceId (resourceId : String) : Prop :=
  resourceId ≠ "" ∧ (utf8 resourceId).length ≤ maxIdentifierLengthBytes

theorem mem_resourceBounds {cs : List Constraint} {b : ResourceBound} :
    b ∈ resourceBounds cs ↔ ∃ c ∈ cs, c.kind = "resource_path" ∧ c.resourceBound = b := by
  simp only [resourceBounds, List.mem_map, List.mem_filter, beq_iff_eq, and_assoc]

theorem validateResourceConstraintsFrom_eq_ok_iff {cs : List Constraint} {i : Nat}
    {resourceId : Option String} {prefixes : List String} :
    validateResourceConstraintsFrom i resourceId prefixes cs = .ok () ↔
      (∀ b ∈ resourceBounds cs, SoundResourceId b.resourceId) ∧
        AcceptedAfter resourceId prefixes (resourceBounds cs) := by
  induction cs generalizing i resourceId prefixes with
  | nil => simp [validateResourceConstraintsFrom, resourceBounds, acceptedAfter_nil]
  | cons c cs ih =>
    rw [validateResourceConstraintsFrom]
    by_cases hkind : c.kind = "resource_path"
    · have hbounds : resourceBounds (c :: cs) = c.resourceBound :: resourceBounds cs := by
        simp [resourceBounds, hkind]
      rw [if_neg (not_not.mpr hkind), hbounds, List.forall_mem_cons, acceptedAfter_cons_iff]
      have hsound : SoundResourceId c.resourceBound.resourceId ↔
          ¬ c.resourceId = "" ∧ ¬ (utf8 c.resourceId).length > maxIdentifierLengthBytes := by
        rw [SoundResourceId, Nat.not_lt]
        rfl
      have hguard : (∀ id ∈ resourceId, c.resourceBound.resourceId = id) ↔
          ¬ (resourceId.any fun rid => decide (c.resourceId ≠ rid)) = true := by
        cases resourceId <;> simp [Constraint.resourceBound]
      have hnested : (∀ prior ∈ prefixes,
            resourcePathsNested prior c.resourceBound.pathPrefix = true) ↔
          prefixes.find? (fun prev => !resourcePathsNested prev (c.pathPrefix.getD "")) = none := by
        simp [Constraint.resourceBound]
      rw [hsound, hguard, hnested]
      split
      · rename_i hempty
        simp [hempty]
      rename_i hpresent
      split
      · rename_i hlong
        simp only [hlong, not_true_eq_false, and_false, false_and, reduceCtorEq]
      rename_i hshort
      dsimp only
      rw [show c.resourceBound.pathPrefix = c.pathPrefix.getD "" from rfl]
      cases hprefix : prefixError (c.pathPrefix.getD "") with
      | some e => simp
      | none =>
        dsimp only
        split
        · rename_i hother
          simp only [hother, not_true_eq_false, false_and, and_false, reduceCtorEq]
        rename_i hsame
        cases hfind : prefixes.find? fun prev =>
            !resourcePathsNested prev (c.pathPrefix.getD "") with
        | some prev => simp
        | none =>
          have hseen : resourceId.getD c.resourceId = c.resourceBound.resourceId := by
            cases resourceId with
            | none => rfl
            | some rid => exact (hguard.mpr hsame rid rfl).symm
          simp only [hpresent, hshort, hsame, Bool.false_eq_true, not_false_eq_true, true_and, and_self]
          rw [ih, hseen]
    · have hbounds : resourceBounds (c :: cs) = resourceBounds cs := by
        simp [resourceBounds, hkind]
      rw [if_pos hkind, ih, hbounds]

/-- What the issuer accepts. -/
theorem validateResourceConstraints_eq_ok_iff {cs : List Constraint} :
    validateResourceConstraints cs = .ok () ↔
      (∀ b ∈ resourceBounds cs, SoundResourceId b.resourceId) ∧
        ∃ resourceId path, ∀ b ∈ resourceBounds cs, b.Allows resourceId path := by
  rw [validateResourceConstraints, validateResourceConstraintsFrom_eq_ok_iff,
    acceptedAfter_iff_exists_allowed]

/-- The bounds of a list are on one resource, with a sound ID, and their prefixes are valid
and nest; an empty prefix is the whole resource. -/
structure OneResource (cs : List Constraint) : Prop where
  sound : ∀ b ∈ resourceBounds cs, SoundResourceId b.resourceId
  valid : ∀ b ∈ resourceBounds cs,
    b.pathPrefix = "" ∨ ∃ q, normalizeResourcePath b.pathPrefix = .ok q
  same : ∀ a ∈ resourceBounds cs, ∀ b ∈ resourceBounds cs, a.resourceId = b.resourceId
  nested : ∀ a ∈ resourceBounds cs, ∀ b ∈ resourceBounds cs,
    resourcePathsNested a.pathPrefix b.pathPrefix = true

theorem validateResourceConstraints_iff_oneResource {cs : List Constraint} :
    validateResourceConstraints cs = .ok () ↔ OneResource cs := by
  rw [validateResourceConstraints, validateResourceConstraintsFrom_eq_ok_iff]
  constructor
  · rintro ⟨hsound, h⟩
    exact
      { sound := hsound
        valid := fun b hb => prefixError_eq_none_iff.mp (h.sound b hb)
        same := fun a ha b hb => (h.compatible ha hb).1
        nested := fun a ha b hb => (h.compatible ha hb).2 }
  · intro h
    refine ⟨h.sound, fun b hb => prefixError_eq_none_iff.mpr (h.valid b hb), by simp, by simp, ?_⟩
    refine List.pairwise_iff_forall_sublist.mpr fun {a b} hab => ?_
    have ha := hab.subset List.mem_cons_self
    have hb := hab.subset (List.mem_cons_of_mem a List.mem_cons_self)
    exact ⟨h.same a ha b hb, h.nested a ha b hb⟩

/-! ## What is evaluated -/

/-- A prefix that is present passes only paths it matches. -/
theorem evaluateResourcePath_eq_ok_iff {c : Constraint} {ctx : VerifierContext} :
    evaluateResourcePath c ctx = .ok () ↔
      SoundResourceId c.resourceId ∧ ctx.requestedResourceId = some c.resourceId ∧
        ∀ p ∈ c.pathPrefix, resourcePathMatches p (ctx.requestedPath.getD "") = true := by
  unfold evaluateResourcePath
  split
  · rename_i hnone
    constructor
    · intro h
      cases h
    · rintro ⟨⟨hne, -⟩, hrequested, -⟩
      rw [hrequested, Option.filter_some, if_pos (decide_eq_true hne)] at hnone
      cases hnone
  rename_i requestedId hsome
  obtain ⟨hrequested, -⟩ := Option.filter_eq_some_iff.mp hsome
  rw [hrequested, Option.some.injEq]
  split
  · rename_i hempty
    simp [SoundResourceId, hempty]
  rename_i hpresent
  split
  · rename_i hlong
    simp only [SoundResourceId, Nat.not_le.mpr hlong, and_false, false_and, reduceCtorEq]
  rename_i hshort
  split
  · rename_i hother
    simp [hother]
  rename_i hsame
  have hsound : SoundResourceId c.resourceId := ⟨hpresent, Nat.not_lt.mp hshort⟩
  simp only [hsound, not_not.mp hsame, true_and]
  cases hprefix : c.pathPrefix with
  | none => simp
  | some pathPrefix =>
    simp only [Option.mem_some_iff, forall_eq']
    cases hvalid : normalizeResourcePath pathPrefix with
    | error e =>
      have hnot : resourcePathMatches pathPrefix (ctx.requestedPath.getD "") = false := by
        rw [resourcePathMatches, hvalid]
      simp [hnot]
    | ok p =>
      dsimp only
      cases hpath : normalizeResourcePath (ctx.requestedPath.getD "") with
      | error e =>
        have hnot : resourcePathMatches pathPrefix (ctx.requestedPath.getD "") = false := by
          rw [resourcePathMatches, hvalid, hpath]
        split <;> simp [hnot]
      | ok q =>
        have hne : ctx.requestedPath.getD "" ≠ "" := by
          intro hempty
          rw [hempty] at hpath
          cases hpath
        rw [if_neg hne]
        dsimp only
        split <;> simp [*]

variable (P : Platform)

/-- A context passes every resource bound of the constraints. -/
def PassesResources (certId : String) (now : Int64) (ctx : VerifierContext)
    (cs : List Constraint) : Prop :=
  ∀ c ∈ cs, c.kind = "resource_path" → evaluateConstraint P c certId ctx now = .ok ()

theorem evaluateConstraint_resourcePath {c : Constraint} (h : c.kind = "resource_path")
    (certId : String) (ctx : VerifierContext) (now : Int64) :
    evaluateConstraint P c certId ctx now = evaluateResourcePath c ctx := by
  unfold evaluateConstraint
  rw [h]
  rfl

/-- Without empty prefixes a set is issued exactly when a context passes it. -/
theorem validateResourceConstraints_iff_passes {cs : List Constraint}
    (h : ∀ c ∈ cs, c.kind = "resource_path" → c.pathPrefix ≠ some "") (certId : String)
    (now : Int64) :
    validateResourceConstraints cs = .ok () ↔ ∃ ctx, PassesResources P certId now ctx cs := by
  rw [validateResourceConstraints_eq_ok_iff]
  constructor
  · rintro ⟨hsound, resourceId, path, hallowed⟩
    refine ⟨{ VerifierContext.empty with
      requestedResourceId := some resourceId, requestedPath := some path }, fun c hc hkind => ?_⟩
    have hbound : c.resourceBound ∈ resourceBounds cs := mem_resourceBounds.mpr ⟨c, hc, hkind, rfl⟩
    obtain ⟨hid, hpath⟩ := hallowed _ hbound
    rw [evaluateConstraint_resourcePath P hkind, evaluateResourcePath_eq_ok_iff]
    refine ⟨hsound _ hbound, congrArg some hid.symm, fun p hp => ?_⟩
    have hgetD : c.resourceBound.pathPrefix = p := by
      rw [Constraint.resourceBound, show c.pathPrefix = some p from hp]
      rfl
    rw [hgetD] at hpath
    refine hpath.resolve_left fun hempty => h c hc hkind ?_
    rw [← hempty]
    exact hp
  · rintro ⟨ctx, hpasses⟩
    have heval : ∀ b ∈ resourceBounds cs, SoundResourceId b.resourceId ∧
        ctx.requestedResourceId = some b.resourceId ∧
        (b.pathPrefix = "" ∨
          resourcePathMatches b.pathPrefix (ctx.requestedPath.getD "") = true) := by
      intro b hb
      obtain ⟨c, hc, hkind, rfl⟩ := mem_resourceBounds.mp hb
      have hok := hpasses c hc hkind
      rw [evaluateConstraint_resourcePath P hkind, evaluateResourcePath_eq_ok_iff] at hok
      refine ⟨hok.1, hok.2.1, ?_⟩
      cases hprefix : c.pathPrefix with
      | none => exact .inl (by rw [Constraint.resourceBound, hprefix]; rfl)
      | some p =>
        rw [Constraint.resourceBound, hprefix]
        exact .inr (hok.2.2 p hprefix)
    refine ⟨fun b hb => (heval b hb).1, ctx.requestedResourceId.getD "",
      ctx.requestedPath.getD "", fun b hb => ⟨?_, (heval b hb).2.2⟩⟩
    rw [(heval b hb).2.1]
    rfl

/-! ## Both versions -/

/-- One constraint that both versions admit: the v2 one encodes, and the v1 one
says the same of a resource. -/
structure BothAdmit (c : Constraint) (c' : ConstraintV2) : Prop where
  encodes : ∃ v, c'.toCj = .ok v
  kind : c.kind = c'.kind
  resourceId : c.kind = "resource_path" → c.resourceId = c'.resourceId
  pathPrefix : c.kind = "resource_path" →
    c.pathPrefix = if c'.pathPrefix = "" then none else some c'.pathPrefix

theorem resourceBounds_eq {cs : List Constraint} {cs' : List ConstraintV2}
    (h : List.Forall₂ BothAdmit cs cs') : resourceBounds cs = resourceBoundsV2 cs' := by
  induction h with
  | nil => rfl
  | @cons c c' cs cs' hc _ ih =>
    unfold resourceBounds resourceBoundsV2 at ih ⊢
    by_cases hkind : c.kind = "resource_path"
    · have hkind' : c'.kind = V2.constraintResourcePath := hc.kind.symm.trans hkind
      have hbound : c.resourceBound = ⟨c'.resourceId, c'.pathPrefix⟩ := by
        rw [Constraint.resourceBound, hc.resourceId hkind, hc.pathPrefix hkind]
        split
        · rename_i hempty
          rw [hempty]
          rfl
        · rfl
      rw [List.filter_cons_of_pos (by exact beq_iff_eq.mpr hkind),
        List.filter_cons_of_pos (by exact beq_iff_eq.mpr hkind'), List.map_cons, List.map_cons, ih, hbound]
    · have hkind' : c'.kind ≠ V2.constraintResourcePath := fun heq => hkind (hc.kind.trans heq)
      rw [List.filter_cons_of_neg (by exact fun h => hkind (beq_iff_eq.mp h)),
        List.filter_cons_of_neg (by exact fun h => hkind' (beq_iff_eq.mp h)), ih]

theorem exists_bothAdmit {cs : List Constraint} {cs' : List ConstraintV2}
    (h : List.Forall₂ BothAdmit cs cs') : ∀ c' ∈ cs', ∃ c, BothAdmit c c' := by
  induction h with
  | nil => simp
  | cons hc _ ih => exact List.forall_mem_cons.mpr ⟨⟨_, hc⟩, ih⟩

/-- The two issuance checks accept the same sets. -/
theorem validateDelegationIssuanceV2_iff {cs : List Constraint} {cert : DelegationCertV2}
    (hboth : List.Forall₂ BothAdmit cs cert.constraints)
    (hlifetime : validateLifetimeV2 cert = .ok ()) :
    validateDelegationIssuanceV2 cert = .ok () ↔ validateResourceConstraints cs = .ok () := by
  have hsound : ∀ b ∈ resourceBoundsV2 cert.constraints, SoundResourceId b.resourceId := by
    intro b hb
    simp only [resourceBoundsV2, List.mem_map, List.mem_filter, beq_iff_eq] at hb
    obtain ⟨c', ⟨hc', hkind⟩, rfl⟩ := hb
    obtain ⟨c, hc⟩ := exists_bothAdmit hboth c' hc'
    obtain ⟨v, hv⟩ := hc.encodes
    exact V2.resourceId_of_toCj hv hkind
  rw [validateDelegationIssuanceV2, hlifetime, ok_bind,
    validateResourcePathsV2_eq_ok_iff fun b hb => (hsound b hb).1,
    validateResourceConstraints, validateResourceConstraintsFrom_eq_ok_iff, resourceBounds_eq hboth]
  exact (and_iff_right hsound).symm

/-- Issuance of resource bounds.  The v1 check accepts the sets that some request
passes exactly where no empty prefix misleads it; covering is a partial order on
normalised paths that compares whole segments; and the v2 check agrees with the
v1 check on what both versions admit. -/
theorem resourceIssuance_exact_iff (certId : String) (now : Int64) :
    (∀ cs : List Constraint,
      (validateResourceConstraints cs = .ok () ↔ ∃ ctx, PassesResources P certId now ctx cs) ↔
        (∀ c ∈ cs, c.kind = "resource_path" → c.pathPrefix ≠ some "") ∨
          ¬ OneResource cs) ∧
    ((∀ p q, NormalPath p → NormalPath q →
        (resourcePathMatches p q = true ↔ pathSegments p <+: pathSegments q)) ∧
      (∀ p, NormalPath p → resourcePathMatches p p = true) ∧
      (∀ p q, NormalPath p → NormalPath q → resourcePathMatches p q = true →
        resourcePathMatches q p = true → p = q) ∧
      ∀ p q path, resourcePathMatches p q = true → resourcePathMatches q path = true →
        resourcePathMatches p path = true) ∧
    ∀ (cs : List Constraint) (cert : DelegationCertV2),
      List.Forall₂ BothAdmit cs cert.constraints → validateLifetimeV2 cert = .ok () →
      (validateDelegationIssuanceV2 cert = .ok () ↔ validateResourceConstraints cs = .ok ()) := by
  refine ⟨fun cs => ?_, ⟨fun p q hp hq => resourcePathMatches_iff hp hq,
    fun p hp => resourcePathMatches_refl hp,
    fun p q hp hq => resourcePathMatches_antisymm hp hq,
    fun p q path => resourcePathMatches_trans⟩,
    fun cs cert hboth => validateDelegationIssuanceV2_iff hboth⟩
  by_cases hprefixes : ∀ c ∈ cs, c.kind = "resource_path" → c.pathPrefix ≠ some ""
  · exact iff_of_true (validateResourceConstraints_iff_passes P hprefixes certId now)
      (.inl hprefixes)
  -- An empty prefix passes nothing, while the issuer does not see it.
  have hnone : ¬ ∃ ctx, PassesResources P certId now ctx cs := by
    rintro ⟨ctx, hpasses⟩
    apply hprefixes
    intro c hc hkind hempty
    have hok := hpasses c hc hkind
    rw [evaluateConstraint_resourcePath P hkind, evaluateResourcePath_eq_ok_iff] at hok
    have hmatches := hok.2.2 "" hempty
    rw [resourcePathMatches, show normalizeResourcePath "" = .error "path is empty" from rfl]
      at hmatches
    cases hmatches
  rw [or_iff_right hprefixes, validateResourceConstraints_iff_oneResource, iff_false_right hnone]

/-- An empty prefix is issued although no request passes it. -/
theorem validateResourceConstraints_emptyPrefix :
    validateResourceConstraints
        [{ Constraint.ofKind "resource_path" with resourceId := "r", pathPrefix := some "" }]
      = .ok () ∧
    ¬ ∃ P certId now ctx, PassesResources P certId now ctx
        [{ Constraint.ofKind "resource_path" with resourceId := "r", pathPrefix := some "" }] := by
  refine ⟨by decide, ?_⟩
  rintro ⟨P, certId, now, ctx, hpasses⟩
  have hok := hpasses _ (List.mem_singleton_self _) rfl
  rw [evaluateConstraint_resourcePath P rfl, evaluateResourcePath_eq_ok_iff] at hok
  exact absurd (hok.2.2 "" rfl) (by simp [resourcePathMatches, normalizeResourcePath])

end RatifyProtocol.V1
