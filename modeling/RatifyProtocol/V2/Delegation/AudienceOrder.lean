import RatifyProtocol.V2.Delegation.AudienceLaw
import RatifyProtocol.V2.JsonDepth
set_option autoImplicit false

/-!
# V2: what the audience stage returns

The stage refuses, denies or passes by what its constraints and memberships are;
a pass ends with the first of the memberships it rests on.
-/

namespace RatifyProtocol.V2

open Foundation

/-! ## The links of a stage -/

def V2DeferredConstraint.isAudience (d : V2DeferredConstraint) : Bool :=
  d.kind == constraintReceiverAudience

/-- The first pass reads the audience constraints as `links`. -/
def SealedLinks (deferred : List V2DeferredConstraint) (links : List AudienceLink) : Prop :=
  List.Forall₂ (fun d l => audienceLink [] d = .ok l)
    (deferred.filter V2DeferredConstraint.isAudience) links

/-- The audience constraints have positions of their own. -/
def DistinctPositions (deferred : List V2DeferredConstraint) : Prop :=
  ((deferred.filter V2DeferredConstraint.isAudience).map V2DeferredConstraint.position).Nodup

/-- A constraint at a new position is read as it is alone. -/
theorem audienceLink_of_not_mem {seen : List (Nat × Nat)} {d : V2DeferredConstraint}
    (h : d.position ∉ seen) : audienceLink seen d = audienceLink [] d := by
  have hseen : seen.contains d.position = ([] : List (Nat × Nat)).contains d.position := by
    rw [Bool.eq_iff_iff, List.contains_iff_mem, List.contains_iff_mem]
    exact ⟨fun hmem => absurd hmem h, fun hmem => absurd hmem List.not_mem_nil⟩
  rw [audienceLink, audienceLink, hseen]

/-- With distinct positions the first pass reads each constraint on its own. -/
theorem audienceLinks_eq {deferred : List V2DeferredConstraint} :
    ∀ {seen : List (Nat × Nat)}, DistinctPositions deferred →
      (∀ d ∈ deferred, d.isAudience = true → d.position ∉ seen) →
      audienceLinks seen deferred
        = (deferred.filter V2DeferredConstraint.isAudience).mapM (audienceLink []) := by
  induction deferred with
  | nil =>
    intro seen _ _
    rfl
  | cons d deferred ih =>
    intro seen hdistinct hnew
    rw [audienceLinks]
    cases hd : d.isAudience with
    | false =>
      have hkind : d.kind ≠ constraintReceiverAudience := beq_eq_false_iff_ne.mp hd
      have hfilter : (d :: deferred).filter V2DeferredConstraint.isAudience
          = deferred.filter V2DeferredConstraint.isAudience :=
        List.filter_cons_of_neg (by simp [hd])
      rw [DistinctPositions, hfilter] at hdistinct
      rw [if_pos hkind, hfilter,
        ih hdistinct fun e he => hnew e (List.mem_cons_of_mem d he)]
    | true =>
      have hkind : ¬ d.kind ≠ constraintReceiverAudience := not_not.mpr (beq_iff_eq.mp hd)
      rw [DistinctPositions, List.filter_cons_of_pos hd, List.map_cons, List.nodup_cons] at hdistinct
      obtain ⟨hfirst, hrest⟩ := hdistinct
      rw [if_neg hkind, List.filter_cons_of_pos hd, List.mapM_cons,
        audienceLink_of_not_mem (hnew d List.mem_cons_self hd)]
      cases audienceLink [] d with
      | error e => rfl
      | ok l =>
        rw [ok_bind, ok_bind, ih hrest fun e he hkind => ?_]
        · rfl
        · rw [List.mem_cons, not_or]
          refine ⟨fun heq => hfirst ?_, hnew e (List.mem_cons_of_mem d he) hkind⟩
          rw [← heq]
          exact List.mem_map_of_mem (List.mem_filter.mpr ⟨he, hkind⟩)

theorem audienceLinks_eq_ok_iff {deferred : List V2DeferredConstraint}
    (h : DistinctPositions deferred) {links : List AudienceLink} :
    audienceLinks [] deferred = .ok links ↔ SealedLinks deferred links := by
  rw [audienceLinks_eq h fun d _ _ => List.not_mem_nil, mapM_eq_ok_iff]
  rfl

/-- The least age limit bounds what the limits of all links with domains bound. -/
theorem le_smallestAge_iff {links : List AudienceLink} {t : Int} :
    t ≤ smallestAge links ↔ t ≤ maxSafe ∧ ∀ l ∈ links, l.trustDomainIds ≠ [] → t ≤ l.age := by
  have hfold : ∀ a : Int, t ≤ links.foldl (fun maxAge link =>
      if !link.trustDomainIds.isEmpty && decide (link.age < maxAge) then link.age else maxAge) a ↔
        t ≤ a ∧ ∀ l ∈ links, l.trustDomainIds ≠ [] → t ≤ l.age := by
    induction links with
    | nil => simp
    | cons x links ih =>
      intro a
      rw [List.foldl_cons, ih, List.forall_mem_cons, ← and_assoc]
      apply and_congr_left'
      by_cases hx : x.trustDomainIds = []
      · simp [hx]
      · by_cases hlt : x.age < a
        · simp only [List.isEmpty_eq_false_iff.mpr hx, hlt, ne_eq, hx, not_false_eq_true,
            Bool.not_false, decide_true, Bool.and_self, ↓reduceIte, forall_const]
          omega
        · simp only [List.isEmpty_eq_false_iff.mpr hx, hlt, ne_eq, hx, not_false_eq_true,
            Bool.not_false, decide_false, Bool.and_false, Bool.false_eq_true, ↓reduceIte,
            forall_const]
          omega
  exact hfold maxSafe

/-! ## The stage on its links -/

variable (receiverId : String) (now futureSkew : Int)

/-- What the second pass looks at. -/
def audienceTime (links : List AudienceLink) : AudienceTime :=
  { receiverId, now, futureSkew, maxAge := smallestAge links }

/-- The inputs the stage accepts. -/
def ValidAudienceInputs : Prop :=
  receiverId ≠ "" ∧ validV2Timestamp now = true ∧ 0 ≤ futureSkew
    ∧ futureSkew ≤ v2MaxFutureSkewSeconds

/-- The second pass. -/
def assessLinks (links : List AudienceLink) (ms : List V2AudienceMembership) :
    V2Result V2AudienceAssessment := do
  refuseIf links.isEmpty "v2 audience stage has no audience constraints"
  let s := audienceTime receiverId now futureSkew links
  assessAnswers s (linkAnswer s ms) links

theorem evaluateReceiverAudience_eq (deferred : List V2DeferredConstraint)
    (ms : List V2AudienceMembership) :
    evaluateReceiverAudience deferred receiverId ms now futureSkew =
      (refuseIf (receiverId == "" || !validV2Timestamp now
          || !(0 ≤ futureSkew && futureSkew ≤ v2MaxFutureSkewSeconds))
        "v2 audience requires a sealed receiver and valid security time" >>= fun _ =>
      audienceLinks [] deferred >>= fun links =>
        assessLinks receiverId now futureSkew links ms) := by
  rfl

variable {receiverId} {now futureSkew}

/-- The second pass does not depend on how its inputs are listed. -/
theorem assessLinks_congr {links links' : List AudienceLink} {ms ms' : List V2AudienceMembership}
    (hlinks : Rearranged AudienceLink.Alike links links')
    (hms : Rearranged V2AudienceMembership.Alike ms ms') :
    assessLinks receiverId now futureSkew links ms
      = assessLinks receiverId now futureSkew links' ms' := by
  have hempty : links.isEmpty = links'.isEmpty := by
    rw [Bool.eq_iff_iff, List.isEmpty_iff_length_eq_zero, List.isEmpty_iff_length_eq_zero,
      hlinks.length_eq]
  have hage : smallestAge links = smallestAge links' := by
    have hle : ∀ t, t ≤ smallestAge links ↔ t ≤ smallestAge links' := by
      intro t
      rw [le_smallestAge_iff, le_smallestAge_iff]
      apply and_congr_right'
      constructor
      · intro h l' hl' hne
        obtain ⟨l, hl, hll⟩ := hlinks.backward l' hl'
        rw [← hll.age]
        refine h l hl fun hnil => hne ?_
        exact List.nil_perm.mp (hnil ▸ hll.trustDomainIds)
      · intro h l hl hne
        obtain ⟨l', hl', hll⟩ := hlinks.forward l hl
        rw [hll.age]
        refine h l' hl' fun hnil => hne ?_
        exact List.perm_nil.mp (hnil ▸ hll.trustDomainIds)
    exact le_antisymm ((hle _).mp (le_refl _)) ((hle _).mpr (le_refl _))
  have htime : audienceTime receiverId now futureSkew links
      = audienceTime receiverId now futureSkew links' := by
    rw [audienceTime, audienceTime, hage]
  rw [assessLinks, assessLinks, hempty, htime]
  dsimp only
  rw [assessAnswers_congr (fun l hl => ?_) (fun l' hl' => ?_)]
  · obtain ⟨l', hl', hll⟩ := hlinks.forward l hl
    exact ⟨l', hl', linkAnswer_alike hms hll⟩
  · obtain ⟨l, hl, hll⟩ := hlinks.backward l' hl'
    exact ⟨l, hl, (linkAnswer_alike hms hll).symm⟩

/-! ## Rearranged constraints -/

/-- Deferred constraints at one position that are read alike. -/
def V2DeferredConstraint.Alike (d d' : V2DeferredConstraint) : Prop :=
  d.kind = d'.kind ∧ d.position = d'.position ∧
    (audienceLink [] d = audienceLink [] d' ∨
      ∃ l l', audienceLink [] d = .ok l ∧ audienceLink [] d' = .ok l' ∧ l.Alike l')

theorem V2DeferredConstraint.Alike.symm {d d' : V2DeferredConstraint} (h : d.Alike d') :
    d'.Alike d := by
  obtain ⟨hkind, hpos, heq | ⟨l, l', hl, hl', hll⟩⟩ := h
  · exact ⟨hkind.symm, hpos.symm, .inl heq.symm⟩
  · exact ⟨hkind.symm, hpos.symm, .inr ⟨l', l, hl', hl, hll.symm⟩⟩

variable {deferred deferred' : List V2DeferredConstraint} {ms ms' : List V2AudienceMembership}

theorem Rearranged.audience (h : Rearranged V2DeferredConstraint.Alike deferred deferred') :
    Rearranged V2DeferredConstraint.Alike (deferred.filter V2DeferredConstraint.isAudience)
      (deferred'.filter V2DeferredConstraint.isAudience) :=
  h.filter fun d d' hd => by
    rw [V2DeferredConstraint.isAudience, V2DeferredConstraint.isAudience, hd.1]

theorem DistinctPositions.rearranged (h : Rearranged V2DeferredConstraint.Alike deferred deferred')
    (hdistinct : DistinctPositions deferred) : DistinctPositions deferred' :=
  ((Rearranged.audience h).map_perm fun _ _ hd => hd.2.1).nodup_iff.mp hdistinct

theorem exists_sealedLinks_rearranged
    (h : Rearranged V2DeferredConstraint.Alike deferred deferred') {links : List AudienceLink}
    (hlinks : SealedLinks deferred links) :
    ∃ links', SealedLinks deferred' links' ∧ Rearranged AudienceLink.Alike links links' := by
  refine (Rearranged.audience h).exists_forall₂ ?_ hlinks
  rintro d d' l ⟨-, -, heq | ⟨l₁, l', hl₁, hl', hll⟩⟩ hl
  · exact ⟨l, heq ▸ hl, .refl l⟩
  · obtain rfl := Except.ok.inj (hl₁.symm.trans hl)
    exact ⟨l', hl', hll⟩

/-- Constraints that are read are evaluated alike in every order. -/
theorem evaluateReceiverAudience_rearranged (hdistinct : DistinctPositions deferred)
    (hdeferred : Rearranged V2DeferredConstraint.Alike deferred deferred')
    (hms : Rearranged V2AudienceMembership.Alike ms ms') {links : List AudienceLink}
    (hlinks : SealedLinks deferred links) :
    evaluateReceiverAudience deferred' receiverId ms' now futureSkew
      = evaluateReceiverAudience deferred receiverId ms now futureSkew := by
  obtain ⟨links', hlinks', hrearranged⟩ := exists_sealedLinks_rearranged hdeferred hlinks
  rw [evaluateReceiverAudience_eq, evaluateReceiverAudience_eq,
    (audienceLinks_eq_ok_iff hdistinct).mpr hlinks,
    (audienceLinks_eq_ok_iff (hdistinct.rearranged hdeferred)).mpr hlinks', ok_bind, ok_bind,
    assessLinks_congr hrearranged hms]

/-- A constraint that is not read refuses the stage. -/
theorem evaluateReceiverAudience_unread (hdistinct : DistinctPositions deferred)
    (h : ∀ links, ¬ SealedLinks deferred links) :
    (evaluateReceiverAudience deferred receiverId ms now futureSkew).toOption = none := by
  rw [evaluateReceiverAudience_eq]
  cases hread : audienceLinks [] deferred with
  | ok links => exact absurd ((audienceLinks_eq_ok_iff hdistinct).mp hread) (h links)
  | error e =>
    rw [refuseIf]
    split <;> rfl

/-! ## Results -/

theorem validAudienceInputs_iff :
    ValidAudienceInputs receiverId now futureSkew ↔
      (receiverId == "" || !validV2Timestamp now
        || !(decide (0 ≤ futureSkew) && decide (futureSkew ≤ v2MaxFutureSkewSeconds))) = false := by
  simp [ValidAudienceInputs, and_assoc]

/-- What a returned assessment rests on. -/
theorem evaluateReceiverAudience_eq_ok_iff (hdistinct : DistinctPositions deferred)
    {a : V2AudienceAssessment} :
    evaluateReceiverAudience deferred receiverId ms now futureSkew = .ok a ↔
      ValidAudienceInputs receiverId now futureSkew ∧ ∃ links, SealedLinks deferred links ∧
        links ≠ [] ∧ (∀ l ∈ links, linkAnswer (audienceTime receiverId now futureSkew links) ms l
          ≠ .unmatchable) ∧
        (links.foldl (fun a l => a.add (audienceTime receiverId now futureSkew links)
          (linkAnswer (audienceTime receiverId now futureSkew links) ms l))
          AudienceState.initial).assessment = a := by
  rw [evaluateReceiverAudience_eq, refuseIf_bind_eq_ok_iff, bind_eq_ok_iff,
    ← validAudienceInputs_iff]
  apply and_congr_right'
  apply exists_congr
  intro links
  rw [audienceLinks_eq_ok_iff hdistinct, assessLinks, refuseIf_bind_eq_ok_iff,
    List.isEmpty_eq_false_iff]
  apply and_congr_right'
  apply and_congr_right'
  dsimp only
  by_cases hrefused : ∃ l ∈ links,
      linkAnswer (audienceTime receiverId now futureSkew links) ms l = .unmatchable
  · rw [assessAnswers_refused hrefused]
    constructor
    · intro h
      cases h
    · rintro ⟨hanswered, -⟩
      obtain ⟨l, hl, hfl⟩ := hrefused
      exact absurd hfl (hanswered l hl)
  · have hanswered : ∀ l ∈ links,
        linkAnswer (audienceTime receiverId now futureSkew links) ms l ≠ .unmatchable :=
      fun l hl hfl => hrefused ⟨l, hl, hfl⟩
    rw [assessAnswers_eq hanswered, Except.ok.injEq]
    exact ⟨fun h => ⟨hanswered, h⟩, fun h => h.2⟩

/-- A constraint with domains has an age limit. -/
theorem age_pos_of_audienceLink {d : V2DeferredConstraint} {l : AudienceLink}
    (h : audienceLink [] d = .ok l) (hne : l.trustDomainIds ≠ []) : 0 < l.age := by
  simp only [audienceLink, bind_eq_ok_iff, refuseIf_eq_ok_iff, Except.ok.injEq] at h
  obtain ⟨_, -, _, -, _, -, _, -, _, -, _, -, _, hage, rfl⟩ := h
  rw [Bool.and_eq_false_iff, Bool.not_eq_false', List.isEmpty_iff] at hage
  obtain hnil | hage := hage
  · exact absurd hnil hne
  · rw [decide_eq_false_iff_not, not_or, not_le] at hage
    exact hage.1

theorem smallestAge_pos {links : List AudienceLink} (h : SealedLinks deferred links) :
    0 < smallestAge links := by
  refine Int.lt_iff_add_one_le.mpr (le_smallestAge_iff.mpr ⟨by decide, fun l hl hne => ?_⟩)
  obtain ⟨d, -, hd⟩ := forall₂_left h.flip l hl
  exact age_pos_of_audienceLink hd hne

/-- The stage denies when a constraint that does not name the receiver has one
membership, accepted and without a domain of the constraint. -/
def DeniedBy (s : AudienceTime) (ms : List V2AudienceMembership) (l : AudienceLink) : Prop :=
  ¬ MatchedExactly s l ∧ ∃ m, OnlyMembership ms l m ∧ s.Accepts m ∧ ¬ SharesDomain l m

/-- A constraint is met when it names the receiver or has one membership, accepted and
with a domain of the constraint. -/
def MetBy (s : AudienceTime) (ms : List V2AudienceMembership) (l : AudienceLink) : Prop :=
  MatchedExactly s l ∨ ∃ m, OnlyMembership ms l m ∧ s.Accepts m ∧ SharesDomain l m

section Answers

variable {s : AudienceTime} {l : AudienceLink}

theorem OnlyMembership.unique {m m' : V2AudienceMembership} (h : OnlyMembership ms l m)
    (h' : OnlyMembership ms l m') : m = m' := by
  rw [OnlyMembership] at h h'
  exact List.singleton_inj.mp (h.symm.trans h')

/-- What each answer says of its link. -/
theorem linkAnswer_cases (s : AudienceTime) (ms : List V2AudienceMembership) (l : AudienceLink) :
    (linkAnswer s ms l = .exact ∧ MatchedExactly s l) ∨
    (linkAnswer s ms l = .unmatchable ∧ ¬ MatchedExactly s l ∧ l.trustDomainIds = []) ∨
    (linkAnswer s ms l = .unavailable ∧ ¬ MatchedExactly s l ∧ l.trustDomainIds ≠ [] ∧
      ∀ m, OnlyMembership ms l m → ¬ s.Accepts m) ∨
    ∃ m, ¬ MatchedExactly s l ∧ l.trustDomainIds ≠ [] ∧ OnlyMembership ms l m ∧ s.Accepts m ∧
      ((SharesDomain l m ∧ linkAnswer s ms l = .matched m) ∨
        (¬ SharesDomain l m ∧ linkAnswer s ms l = .mismatched m)) := by
  by_cases hexact : MatchedExactly s l
  · exact .inl ⟨linkAnswer_exact hexact, hexact⟩
  by_cases hnone : l.trustDomainIds = []
  · exact .inr (.inl ⟨linkAnswer_unmatchable hexact hnone, hexact, hnone⟩)
  obtain ⟨hanswer, hall⟩ | ⟨m, honly, haccepts, hmatch⟩ :=
    linkAnswer_member hexact hnone
  · exact .inr (.inr (.inl ⟨hanswer, hexact, hnone, hall⟩))
  · exact .inr (.inr (.inr ⟨m, hexact, hnone, honly, haccepts, hmatch⟩))

theorem unmatchable_iff :
    linkAnswer s ms l = .unmatchable ↔ ¬ MatchedExactly s l ∧ l.trustDomainIds = [] := by
  constructor
  · intro h
    obtain ⟨hx, -⟩ | ⟨-, hl⟩ | ⟨hx, -⟩ | ⟨m, -, -, -, -, ⟨-, hx⟩ | ⟨-, hx⟩⟩ :=
      linkAnswer_cases s ms l
    · rw [h] at hx
      cases hx
    · exact hl
    · rw [h] at hx
      cases hx
    · rw [h] at hx
      cases hx
    · rw [h] at hx
      cases hx
  · rintro ⟨hexact, hnone⟩
    exact linkAnswer_unmatchable hexact hnone

theorem mismatched_iff (hanswered : linkAnswer s ms l ≠ .unmatchable) :
    (∃ m, linkAnswer s ms l = .mismatched m) ↔ DeniedBy s ms l := by
  obtain ⟨hx, hexact⟩ | ⟨hx, -⟩ | ⟨hx, -, -, hall⟩ |
    ⟨m, hexact, -, honly, haccepts, ⟨hmatch, hx⟩ | ⟨hmatch, hx⟩⟩ := linkAnswer_cases s ms l
  · rw [hx]
    exact ⟨fun ⟨_, h⟩ => (nomatch h), fun h => absurd hexact h.1⟩
  · exact absurd hx hanswered
  · rw [hx]
    exact ⟨fun ⟨_, h⟩ => (nomatch h), fun ⟨_, m, honly, haccepts, _⟩ =>
      absurd haccepts (hall m honly)⟩
  · rw [hx]
    refine ⟨fun ⟨_, h⟩ => (nomatch h), fun ⟨_, m', honly', _, hnot⟩ => ?_⟩
    rw [honly'.unique honly] at hnot
    exact absurd hmatch hnot
  · exact ⟨fun _ => ⟨hexact, m, honly, haccepts, hmatch⟩, fun _ => ⟨m, hx⟩⟩

/-- A link that neither denies nor lacks a membership is met. -/
theorem met_iff (hanswered : linkAnswer s ms l ≠ .unmatchable) :
    MetBy s ms l ↔
      (∀ m, linkAnswer s ms l ≠ .mismatched m) ∧ linkAnswer s ms l ≠ .unavailable := by
  obtain ⟨hx, hexact⟩ | ⟨hx, -⟩ | ⟨hx, hexact, -, hall⟩ |
    ⟨m, hexact, -, honly, haccepts, ⟨hmatch, hx⟩ | ⟨hmatch, hx⟩⟩ := linkAnswer_cases s ms l
  · rw [hx]
    exact ⟨fun _ => ⟨fun _ h => (nomatch h), fun h => (nomatch h)⟩, fun _ => .inl hexact⟩
  · exact absurd hx hanswered
  · rw [hx]
    refine ⟨fun hmet => ?_, fun h => absurd rfl h.2⟩
    obtain hmet | ⟨m, honly, haccepts, -⟩ := hmet
    · exact absurd hmet hexact
    · exact absurd haccepts (hall m honly)
  · rw [hx]
    exact ⟨fun _ => ⟨fun _ h => (nomatch h), fun h => (nomatch h)⟩,
      fun _ => .inr ⟨m, honly, haccepts, hmatch⟩⟩
  · rw [hx]
    refine ⟨fun hmet => ?_, fun h => absurd rfl (h.1 m)⟩
    obtain hmet | ⟨m', honly', -, hmatch'⟩ := hmet
    · exact absurd hmet hexact
    · rw [honly'.unique honly] at hmatch'
      exact absurd hmatch' hmatch

theorem matched_iff {m : V2AudienceMembership} :
    linkAnswer s ms l = .matched m ↔
      ¬ MatchedExactly s l ∧ OnlyMembership ms l m ∧ s.Accepts m ∧ SharesDomain l m := by
  obtain ⟨hx, hexact⟩ | ⟨hx, hexact, hnone⟩ | ⟨hx, -, -, hall⟩ |
    ⟨m', hexact, -, honly, haccepts, ⟨hmatch, hx⟩ | ⟨hmatch, hx⟩⟩ := linkAnswer_cases s ms l
  · rw [hx]
    exact ⟨fun h => (nomatch h), fun h => absurd hexact h.1⟩
  · rw [hx]
    refine ⟨fun h => (nomatch h), fun ⟨_, _, _, d, _, hd⟩ => ?_⟩
    rw [hnone] at hd
    cases hd
  · rw [hx]
    exact ⟨fun h => (nomatch h), fun ⟨_, honly, haccepts, _⟩ => absurd haccepts (hall m honly)⟩
  · rw [hx]
    constructor
    · intro h
      obtain rfl := LinkAnswer.matched.inj h
      exact ⟨hexact, honly, haccepts, hmatch⟩
    · rintro ⟨-, honly', -⟩
      rw [honly'.unique honly]
  · rw [hx]
    refine ⟨fun h => (nomatch h), fun ⟨_, honly', _, hmatch'⟩ => ?_⟩
    rw [honly'.unique honly] at hmatch'
    exact absurd hmatch' hmatch

end Answers

theorem status_denied_iff {b : AudienceState} :
    b.assessment.status = .denied ↔ b.denied = true := by
  rw [AudienceState.assessment]
  cases b.denied <;> cases b.unavailable <;> simp

theorem status_passed_iff {b : AudienceState} :
    b.assessment.status = .passed ↔ b.denied = false ∧ b.unavailable = false := by
  rw [AudienceState.assessment]
  cases b.denied <;> cases b.unavailable <;> simp

theorem freshUntil_of_passed {b : AudienceState} (h : b.assessment.status = .passed) :
    b.assessment.freshUntil = b.freshUntil := by
  obtain ⟨hdenied, hunavailable⟩ := status_passed_iff.mp h
  rw [AudienceState.assessment, hdenied, hunavailable]
  rfl

/-- The audience stage, for constraints at distinct positions.  Listing constraints,
memberships or their identifiers in another order leaves the result, or that there
is none; and if every constraint is read, it leaves the refusal too.  A result is
returned for valid inputs and constraints that can be met; it is a denial exactly
when some constraint denies, a pass exactly when every constraint is met, and a
pass lasts beyond now and to no later than its memberships allow. -/
theorem evaluateReceiverAudience_law (receiverId : String) (now futureSkew : Int)
    (ms : List V2AudienceMembership) (hdistinct : DistinctPositions deferred) :
    (∀ deferred' ms', Rearranged V2DeferredConstraint.Alike deferred deferred' →
      Rearranged V2AudienceMembership.Alike ms ms' →
      (evaluateReceiverAudience deferred' receiverId ms' now futureSkew).toOption
          = (evaluateReceiverAudience deferred receiverId ms now futureSkew).toOption ∧
        ((∀ d ∈ deferred, d.isAudience = true → ∃ l, audienceLink [] d = .ok l) →
          evaluateReceiverAudience deferred' receiverId ms' now futureSkew
            = evaluateReceiverAudience deferred receiverId ms now futureSkew)) ∧
    ((∃ a, evaluateReceiverAudience deferred receiverId ms now futureSkew = .ok a) ↔
      ValidAudienceInputs receiverId now futureSkew ∧ ∃ links, SealedLinks deferred links ∧
        links ≠ [] ∧ ∀ l ∈ links,
          MatchedExactly (audienceTime receiverId now futureSkew links) l
            ∨ l.trustDomainIds ≠ []) ∧
    ∀ a, evaluateReceiverAudience deferred receiverId ms now futureSkew = .ok a →
      ∃ links, SealedLinks deferred links ∧
        (a.status = .denied ↔
          ∃ l ∈ links, DeniedBy (audienceTime receiverId now futureSkew links) ms l) ∧
        (a.status = .passed ↔
          ∀ l ∈ links, MetBy (audienceTime receiverId now futureSkew links) ms l) ∧
        (a.status = .passed → now < a.freshUntil ∧ ∀ l ∈ links,
          ¬ MatchedExactly (audienceTime receiverId now futureSkew links) l →
            ∀ m, OnlyMembership ms l m →
              a.freshUntil ≤ m.expiresAt ∧ a.freshUntil ≤ m.issuedAt + smallestAge links) := by
  refine ⟨fun deferred' ms' hdeferred hms => ⟨?_, fun hread => ?_⟩, ?_, fun a ha => ?_⟩
  · by_cases hlinks : ∃ links, SealedLinks deferred links
    · obtain ⟨links, hlinks⟩ := hlinks
      rw [evaluateReceiverAudience_rearranged hdistinct hdeferred hms hlinks]
    · have hunread : ∀ links, ¬ SealedLinks deferred links := fun links h => hlinks ⟨links, h⟩
      rw [evaluateReceiverAudience_unread hdistinct hunread,
        evaluateReceiverAudience_unread (hdistinct.rearranged hdeferred) fun links' hlinks' => ?_]
      obtain ⟨links, hlinks, -⟩ :=
        exists_sealedLinks_rearranged (hdeferred.symm fun _ _ h => h.symm) hlinks'
      exact hunread links hlinks
  · have heach : ∀ d ∈ deferred.filter V2DeferredConstraint.isAudience,
        ∃ l, audienceLink [] d = .ok l ∧ True := by
      intro d hd
      obtain ⟨l, hl⟩ := hread d (List.mem_filter.mp hd).1 (List.mem_filter.mp hd).2
      exact ⟨l, hl, trivial⟩
    obtain ⟨links, hlinks, -⟩ := exists_mapM_eq_ok heach
    exact evaluateReceiverAudience_rearranged hdistinct hdeferred hms (mapM_eq_ok_iff.mp hlinks)
  · constructor
    · rintro ⟨a, ha⟩
      obtain ⟨hvalid, links, hlinks, hne, hanswered, -⟩ :=
        (evaluateReceiverAudience_eq_ok_iff hdistinct).mp ha
      refine ⟨hvalid, links, hlinks, hne, fun l hl => ?_⟩
      by_contra hnot
      rw [not_or, not_not] at hnot
      exact hanswered l hl (unmatchable_iff.mpr hnot)
    · rintro ⟨hvalid, links, hlinks, hne, hall⟩
      refine ⟨_, (evaluateReceiverAudience_eq_ok_iff hdistinct).mpr
        ⟨hvalid, links, hlinks, hne, fun l hl hanswer => ?_, rfl⟩⟩
      obtain ⟨hexact, hnone⟩ := unmatchable_iff.mp hanswer
      obtain h | h := hall l hl
      · exact hexact h
      · exact h hnone
  · obtain ⟨hvalid, links, hlinks, -, hanswered, rfl⟩ :=
      (evaluateReceiverAudience_eq_ok_iff hdistinct).mp ha
    refine ⟨links, hlinks, ?_, ?_, fun hpassed => ?_⟩
    · rw [status_denied_iff, denied_foldl_add]
      simp only [AudienceState.initial, Bool.false_eq_true, false_or]
      exact exists_congr fun l => and_congr_right fun hl => mismatched_iff (hanswered l hl)
    · rw [status_passed_iff, ← Bool.not_eq_true, ← Bool.not_eq_true, denied_foldl_add,
        unavailable_foldl_add]
      simp only [AudienceState.initial, Bool.false_eq_true, false_or]
      constructor
      · rintro ⟨hdenied, hunavailable⟩ l hl
        exact (met_iff (hanswered l hl)).mpr ⟨fun m hm => hdenied ⟨l, hl, m, hm⟩,
          fun hx => hunavailable ⟨l, hl, hx⟩⟩
      · intro hmet
        refine ⟨?_, ?_⟩
        · rintro ⟨l, hl, m, hm⟩
          exact ((met_iff (hanswered l hl)).mp (hmet l hl)).1 m hm
        · rintro ⟨l, hl, hx⟩
          exact ((met_iff (hanswered l hl)).mp (hmet l hl)).2 hx
    · have hpass := hpassed
      rw [status_passed_iff, ← Bool.not_eq_true, ← Bool.not_eq_true, denied_foldl_add,
        unavailable_foldl_add] at hpass
      rw [freshUntil_of_passed hpassed]
      have hnow := validV2Timestamp_iff.mp hvalid.2.1
      have hage := smallestAge_pos hlinks
      refine ⟨?_, fun l hl hexact m honly => ?_⟩
      · rw [Int.lt_iff_add_one_le, le_freshUntil_foldl_add]
        refine ⟨?_, fun l _ m hm => ?_⟩
        · rw [AudienceState.initial]
          have hlast : v2MaxTimestampSeconds < maxSafe := by decide
          dsimp only
          omega
        · obtain ⟨-, -, haccepts, -⟩ := matched_iff.mp hm
          have hunexpired := haccepts.unexpired
          have hyoung := haccepts.young
          simp only [audienceTime] at hunexpired hyoung ⊢
          omega
      · have hmatched : linkAnswer (audienceTime receiverId now futureSkew links) ms l
            = .matched m := by
          obtain ⟨hx, hyes⟩ | ⟨hx, -⟩ | ⟨hx, -⟩ |
            ⟨m', -, -, honly', -, ⟨-, hx⟩ | ⟨-, hx⟩⟩ :=
            linkAnswer_cases (audienceTime receiverId now futureSkew links) ms l
          · exact absurd hyes hexact
          · exact absurd hx (hanswered l hl)
          · exact absurd (.inr ⟨l, hl, hx⟩) hpass.2
          · rw [honly.unique honly']
            exact hx
          · exact absurd (.inr ⟨l, hl, m', hx⟩) hpass.1
        exact ((le_freshUntil_foldl_add _ _).mp (le_refl _)).2 l hl m hmatched

/-- A sealed constraint to the trust domain `d`, with memberships of at most a minute. -/
def domainConstraint (j : Nat) : V2DeferredConstraint :=
  { delegationIndex := 0, constraintIndex := j, issuerId := "i", certId := "c"
    kind := constraintReceiverAudience
    canonicalJson := utf8 (String.join ["\x7b\"params\":\x7b\"exact_receiver_ids\":[],",
      "\"max_membership_age_seconds\":60,\"trust_domain_ids\":[\"d\"]\x7d,",
      "\"type\":\"ratify.receiver_audience\"\x7d"]) }

/-- A membership of `d` issued at 90. -/
def domainMembership (j : Nat) : V2AudienceMembership :=
  { delegationIndex := 0, constraintIndex := j, receiverId := "r", trustDomainIds := ["e", "d"]
    issuedAt := 90, expiresAt := 1000
    evidenceDigest := String.ofList ("sha384:".toList ++ List.replicate 96 '0') }

/-- Two constraints are assessed alike in either order. -/
theorem evaluateReceiverAudience_law_swapped :
    (evaluateReceiverAudience [domainConstraint 1, domainConstraint 0] "r"
        [domainMembership 1, domainMembership 0] 100 0).toOption
      = (evaluateReceiverAudience [domainConstraint 0, domainConstraint 1] "r"
        [domainMembership 0, domainMembership 1] 100 0).toOption := by
  have hdistinct : DistinctPositions [domainConstraint 0, domainConstraint 1] := by
    unfold DistinctPositions
    decide
  have hlike : ∀ d : V2DeferredConstraint, d.Alike d := fun d => ⟨rfl, rfl, .inl rfl⟩
  have hsame : ∀ m : V2AudienceMembership, m.Alike m := fun m =>
    ⟨rfl, rfl, .refl _, rfl, rfl, rfl⟩
  apply ((evaluateReceiverAudience_law "r" 100 0 [domainMembership 0, domainMembership 1]
    hdistinct).1 _ _ ?_ ?_).1
  · exact Rearranged.of_perm hlike (List.Perm.swap ..)
  · exact Rearranged.of_perm hsame (List.Perm.swap ..)

end RatifyProtocol.V2
