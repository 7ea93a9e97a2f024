import RatifyProtocol.V2.Authorization.Examined
set_option autoImplicit false

/-!
# Authorization: the deadlines of an allow

Each part of an evaluation leaves one instant, with zero for none where it may have none.
The horizon of the allow is the greatest bound of all the deadlines that stand behind them.
-/

namespace RatifyProtocol.V2

open Foundation

variable {archive : ZoneArchive} {b : ProofBundleV2} {o : V2LocalAuthorizationOptions}
  {t : V2EvaluationToken}

/-! ## Windows -/

/-- Where the windows of a bundle that hold now are over. -/
def windowDeadlines (archive : ZoneArchive) (b : ProofBundleV2) (tzdbVersion : String)
    (now : Int) : Set Int :=
  {d | ∃ c ∈ b.constraints, c.kind = constraintTimeWindow
    ∧ windowContribution archive tzdbVersion now c = .ok d}

theorem windowContribution_pos {tzdbVersion : String} {now d : Int} {c : ConstraintV2}
    (hnow : 0 ≤ now) (h : windowContribution archive tzdbVersion now c = .ok d) : 0 < d := by
  rw [windowContribution] at h
  obtain ⟨zone, -, h⟩ := bind_eq_ok_iff.mp h
  obtain ⟨start, -, h⟩ := bind_eq_ok_iff.mp h
  obtain ⟨end_, -, h⟩ := bind_eq_ok_iff.mp h
  split at h
  · cases h
  split at h
  · cases h
  rename_i hlate
  obtain rfl := Except.ok.inj h
  have hmax : 0 < v2MaxTimestampSeconds := by decide
  exact lt_min (lt_of_le_of_lt hnow (not_le.mp hlate)) hmax

/-- The window horizon is the greatest bound of the windows. -/
theorem localTimeWindowValidUntilV2_deadline {tzdbVersion : String} {now until_ : Int}
    (hnow : 0 ≤ now) (h : localTimeWindowValidUntilV2 archive b tzdbVersion now = .ok until_) :
    Deadline (windowDeadlines archive b tzdbVersion now) until_ := by
  rw [localTimeWindowValidUntilV2, localTimeWindowValidUntilFrom_eq] at h
  obtain ⟨ds, hds, rfl⟩ := map_eq_ok_iff.mp h
  have hmem (d : Int) : d ∈ windowDeadlines archive b tzdbVersion now ↔ d ∈ ds := by
    rw [mapM_eq_ok_iff] at hds
    constructor
    · rintro ⟨c, hc, hkind, hd⟩
      obtain ⟨d', hd', hsame⟩ := forall₂_left hds c (List.mem_filter.mpr ⟨hc, by simpa using hkind⟩)
      rw [hd] at hsame
      obtain rfl := Except.ok.inj hsame
      exact hd'
    · intro hd
      obtain ⟨c, hc, hsame⟩ := forall₂_left hds.flip d hd
      obtain ⟨hc, hkind⟩ := List.mem_filter.mp hc
      exact ⟨c, hc, by simpa using hkind, hsame⟩
  have hset : windowDeadlines archive b tzdbVersion now = {d | d ∈ ds} := Set.ext hmem
  have hpos : ∀ d ∈ ds, 0 < d := by
    intro d hd
    obtain ⟨c, -, -, hd⟩ := (hmem d).mpr hd
    exact windowContribution_pos hnow hd
  rw [hset]
  by_cases hnone : ds = []
  · subst hnone
    exact .inl ⟨rfl, by simp⟩
  · have hleast := foldl_tighten_isLeast hnone hpos
    exact .inr ⟨hpos _ hleast.1, hleast.isGLB⟩

/-! ## Certificates -/

/-- Where the certificates of a bundle expire. -/
def expiries (b : ProofBundleV2) : Set Int := {d | ∃ c ∈ b.delegations, d = c.expiresAt}

theorem isGLB_delegationValidUntil (h : b.delegations ≠ []) :
    IsGLB (expiries b) (delegationValidUntil b) := by
  have hmin : ∃ d, (b.delegations.map DelegationCertV2.expiresAt).min? = some d := by
    rw [← Option.isSome_iff_exists, List.isSome_min?_iff]
    simpa using h
  obtain ⟨d, hd⟩ := hmin
  obtain ⟨hmem, hle⟩ := List.min?_eq_some_iff.mp hd
  rw [delegationValidUntil, hd]
  have hleast : IsLeast (expiries b) d := by
    obtain ⟨c, hc, hexpiry⟩ := List.mem_map.mp hmem
    refine ⟨⟨c, hc, hexpiry.symm⟩, ?_⟩
    rintro _ ⟨c', hc', rfl⟩
    exact hle _ (List.mem_map_of_mem hc')
  exact hleast.isGLB

/-! ## Memberships -/

/-- Where the memberships that an audience stage rests on end or are too old. -/
def audienceDeadlines (deferred : List V2DeferredConstraint) (receiverId : String)
    (now futureSkew : Int) (ms : List V2AudienceMembership) : Set Int :=
  {d | ∃ links, SealedLinks deferred links ∧ ∃ l ∈ links, ∃ m,
    linkAnswer (audienceTime receiverId now futureSkew links) ms l = .matched m
      ∧ (d = m.expiresAt ∨ d = m.issuedAt + smallestAge links)}

theorem SealedLinks.unique {deferred : List V2DeferredConstraint} {links links' : List AudienceLink}
    (h : SealedLinks deferred links) (h' : SealedLinks deferred links') : links = links' := by
  have hread := mapM_eq_ok_iff.mpr h
  rw [mapM_eq_ok_iff.mpr h'] at hread
  exact (Except.ok.inj hread).symm

/-- A pass of the audience lasts as long as all the memberships it rests on. -/
theorem evaluateReceiverAudience_deadline {deferred : List V2DeferredConstraint}
    {receiverId : String} {now futureSkew : Int} {ms : List V2AudienceMembership}
    {a : V2AudienceAssessment} (hdistinct : DistinctPositions deferred)
    (h : evaluateReceiverAudience deferred receiverId ms now futureSkew = .ok a)
    (hpassed : a.status = .passed) :
    0 < a.freshUntil ∧ IsGLB (insert maxSafe
      (audienceDeadlines deferred receiverId now futureSkew ms)) a.freshUntil := by
  obtain ⟨hvalid, links, hlinks, -, -, rfl⟩ := (evaluateReceiverAudience_eq_ok_iff hdistinct).mp h
  rw [freshUntil_of_passed hpassed]
  set s := audienceTime receiverId now futureSkew links with hs
  set fresh := (links.foldl (fun a l => a.add s (linkAnswer s ms l)) AudienceState.initial).freshUntil
    with hfresh
  have hle (u : Int) : u ≤ fresh ↔ u ≤ maxSafe ∧ ∀ l ∈ links, ∀ m, linkAnswer s ms l = .matched m →
      u ≤ m.expiresAt ∧ u ≤ m.issuedAt + smallestAge links :=
    le_freshUntil_foldl_add u AudienceState.initial
  refine ⟨?_, isGLB_iff_le_iff.mpr fun u => ?_⟩
  · rw [Int.lt_iff_add_one_le, hle]
    have hnow := validV2Timestamp_iff.mp hvalid.2.1
    have hage := smallestAge_pos hlinks
    refine ⟨by decide, fun l _ m hm => ?_⟩
    obtain ⟨-, -, haccepts, -⟩ := matched_iff.mp hm
    have hunexpired := haccepts.unexpired
    have hyoung := haccepts.young
    simp only [hs, audienceTime] at hunexpired hyoung
    omega
  · rw [hle, mem_lowerBounds, Set.forall_mem_insert]
    apply and_congr_right'
    constructor
    · rintro h d ⟨links', hlinks', l, hl, m, hm, hd⟩
      obtain rfl := hlinks.unique hlinks'
      obtain ⟨hexpires, hage⟩ := h l hl m hm
      obtain rfl | rfl := hd
      · exact hexpires
      · exact hage
    · intro h l hl m hm
      exact ⟨h _ ⟨links, hlinks, l, hl, m, hm, .inl rfl⟩, h _ ⟨links, hlinks, l, hl, m, hm, .inr rfl⟩⟩

/-! ## The horizon -/

/-- The horizon of an assessment is the greatest bound of what its parts stand for. -/
theorem isGLB_allowHorizonV2 {a : V2LocalAuthorizationAssessment} {certs memberships windows
    extensions : Set Int} (hcerts : IsGLB certs a.delegationValidUntil)
    (hmemberships : Deadline memberships a.audienceFreshUntil)
    (hwindows : Deadline windows a.localTimeValidUntil)
    (hextensions : Deadline extensions a.extensionValidUntil) :
    IsGLB (certs ∪ {a.statusFreshUntil} ∪ memberships ∪ windows ∪ extensions
      ∪ {v2MaxTimestampSeconds}) (allowHorizonV2 a) :=
  (isGLB_boundBy (isGLB_boundBy (isGLB_boundBy (hcerts.union isGLB_singleton) hmemberships)
    hwindows) hextensions).union isGLB_singleton

/-- The deferred constraints of a proof. -/
def deferredConstraints (archive : ZoneArchive) (b : ProofBundleV2)
    (o : V2LocalAuthorizationOptions) (t : V2EvaluationToken) : List V2DeferredConstraint :=
  (evaluateV2LocalConstraints (t.localInputs archive o) b).deferred

/-- Every deadline behind an allow, with the memberships of the audience stage if there was
one. -/
def allowDeadlines (archive : ZoneArchive) (b : ProofBundleV2) (o : V2LocalAuthorizationOptions)
    (t : V2EvaluationToken) (aggregated : V2StatusAssessment)
    (memberships : Option (List V2AudienceMembership)) : Set Int :=
  expiries b ∪ {aggregated.freshUntil}
    ∪ (match memberships with
      | none => ∅
      | some ms => audienceDeadlines (deferredConstraints archive b o t)
          t.expected.expectedReceiverId t.claimedAt t.futureSkew ms)
    ∪ windowDeadlines archive b o.tzdbVersion t.claimedAt
    ∪ b.extensionHorizons (t.localInputs archive o) ∪ {v2MaxTimestampSeconds}

/-- The parts of an assessment that come from the local stage. -/
structure LocalParts (archive : ZoneArchive) (b : ProofBundleV2) (o : V2LocalAuthorizationOptions)
    (t : V2EvaluationToken) (a : V2LocalAuthorizationAssessment) : Prop where
  delegation : a.delegationValidUntil = delegationValidUntil b
  window : localTimeWindowValidUntilV2 archive b o.tzdbVersion t.claimedAt
    = .ok a.localTimeValidUntil
  extension : a.extensionValidUntil
    = (evaluateV2LocalConstraints (t.localInputs archive o) b).extensionHorizon

variable {a : V2LocalAuthorizationAssessment} {aggregated : V2StatusAssessment}

theorem LocalParts.extensions (h : LocalParts archive b o t a) (hnow : 0 ≤ t.claimedAt) :
    Deadline (b.extensionHorizons (t.localInputs archive o)) a.extensionValidUntil := by
  rw [h.extension]
  obtain hnone | ⟨hpos, hleast⟩ :=
    evaluateV2LocalConstraints_horizon (s := t.localInputs archive o) (b := b) hnow
  · exact .inl hnone
  · exact .inr ⟨hpos, hleast.isGLB⟩

/-- The horizon of an allow that has seen no audience. -/
theorem LocalParts.isGLB_without (h : LocalParts archive b o t a) (hdelegated : b.delegations ≠ [])
    (hnow : 0 ≤ t.claimedAt) (hstatus : a.statusFreshUntil = aggregated.freshUntil)
    (haudience : a.audienceFreshUntil = 0) :
    IsGLB (allowDeadlines archive b o t aggregated none) (allowHorizonV2 a) := by
  rw [allowDeadlines, ← hstatus]
  exact isGLB_allowHorizonV2 (h.delegation ▸ isGLB_delegationValidUntil hdelegated)
    (.inl ⟨haudience, rfl⟩) (localTimeWindowValidUntilV2_deadline hnow h.window)
    (h.extensions hnow)

/-- The horizon of an allow after the audience has passed. -/
theorem LocalParts.isGLB_with {result : V2AudienceAssessment} {ms : List V2AudienceMembership}
    (h : LocalParts archive b o t a) (hdelegated : b.delegations ≠ []) (hnow : 0 ≤ t.claimedAt)
    (hstatus : a.statusFreshUntil = aggregated.freshUntil)
    (haudience : a.audienceFreshUntil = result.freshUntil)
    (hdistinct : DistinctPositions (deferredConstraints archive b o t))
    (hresult : evaluateReceiverAudience (deferredConstraints archive b o t)
      t.expected.expectedReceiverId ms t.claimedAt t.futureSkew = .ok result)
    (hpassed : result.status = .passed) :
    IsGLB (allowDeadlines archive b o t aggregated (some ms)) (allowHorizonV2 a) := by
  obtain ⟨hpos, hglb⟩ := evaluateReceiverAudience_deadline hdistinct hresult hpassed
  have hall := isGLB_allowHorizonV2 (h.delegation ▸ isGLB_delegationValidUntil hdelegated)
    (.inr ⟨haudience ▸ hpos, haudience ▸ hglb⟩)
    (localTimeWindowValidUntilV2_deadline hnow h.window)
    (h.extensions hnow)
  rw [allowDeadlines, ← hstatus]
  -- The domain of timestamps ends before the largest number, which is no deadline of its own.
  refine isGLB_of_insert (y := maxSafe) ?_ (Set.mem_union_right _ (Set.mem_singleton _)) (by decide)
  convert hall using 1
  ext d
  simp only [Set.mem_insert_iff, Set.mem_union]
  tauto

end RatifyProtocol.V2
