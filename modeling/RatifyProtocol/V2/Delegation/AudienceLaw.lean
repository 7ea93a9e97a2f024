import RatifyProtocol.Foundation.Rearranged
import RatifyProtocol.V2.Delegation.Audience
set_option autoImplicit false

/-!
# V2: a receiver audience has no order

What the audience stage concludes depends on which constraints and memberships
there are, not on how they are listed: each loop only looks for the existence of
an answer, the least of some instants or the set of some digests.
-/

namespace RatifyProtocol.V2

open Foundation

/-! ## One membership -/

/-- Memberships that differ in the order of their domains only. -/
structure V2AudienceMembership.Alike (m m' : V2AudienceMembership) : Prop where
  position : m.position = m'.position
  receiverId : m.receiverId = m'.receiverId
  trustDomainIds : m.trustDomainIds.Perm m'.trustDomainIds
  issuedAt : m.issuedAt = m'.issuedAt
  expiresAt : m.expiresAt = m'.expiresAt
  evidenceDigest : m.evidenceDigest = m'.evidenceDigest

/-- Links that differ in the order of their identifiers only. -/
structure AudienceLink.Alike (l l' : AudienceLink) : Prop where
  position : l.position = l'.position
  exactReceiverIds : l.exactReceiverIds.Perm l'.exactReceiverIds
  trustDomainIds : l.trustDomainIds.Perm l'.trustDomainIds
  age : l.age = l'.age

theorem AudienceLink.Alike.refl (l : AudienceLink) : l.Alike l := ⟨rfl, .refl _, .refl _, rfl⟩

/-- The loop finds a membership when there is exactly one at the position. -/
theorem membershipFor_eq (l : AudienceLink) (ms : List V2AudienceMembership) :
    ∀ found, membershipFor l found ms =
      match found.toList ++ ms.filter fun m => m.position = l.position with
      | [m] => some m
      | _ => none := by
  induction ms with
  | nil =>
    intro found
    cases found <;> rfl
  | cons m ms ih =>
    intro found
    rw [membershipFor]
    by_cases hpos : m.position = l.position
    · rw [if_pos hpos, List.filter_cons_of_pos (by simpa using hpos)]
      cases found with
      | none =>
        rw [if_neg (by simp), ih]
        rfl
      | some m' => rfl
    · rw [if_neg hpos, List.filter_cons_of_neg (by simpa using hpos), ih]

/-- `m` is the only membership at the position of `l`. -/
def OnlyMembership (ms : List V2AudienceMembership) (l : AudienceLink) (m : V2AudienceMembership) :
    Prop :=
  (ms.filter fun m => m.position = l.position) = [m]

theorem membershipFor_eq_some_iff {l : AudienceLink} {ms : List V2AudienceMembership}
    {m : V2AudienceMembership} : membershipFor l none ms = some m ↔ OnlyMembership ms l m := by
  rw [membershipFor_eq, OnlyMembership]
  change (match ms.filter fun m => m.position = l.position with
    | [m] => some m
    | _ => none) = some m ↔ _
  split
  · rename_i m' heq
    rw [heq, List.singleton_inj, Option.some_inj]
  · rename_i hne
    constructor
    · intro h
      cases h
    · intro h
      exact absurd h (hne m)

theorem OnlyMembership.alike {ms ms' : List V2AudienceMembership} {l l' : AudienceLink}
    {m : V2AudienceMembership} (hms : Rearranged V2AudienceMembership.Alike ms ms')
    (hl : l.Alike l') (h : OnlyMembership ms l m) : ∃ m', OnlyMembership ms' l' m' ∧ m.Alike m' := by
  have hfilter := hms.filter (p := fun m => decide (m.position = l.position)) fun x y hxy => by
    rw [hxy.position]
  rw [OnlyMembership] at h
  rw [h] at hfilter
  obtain ⟨m', hm', halike⟩ := hfilter.singleton
  rw [hl.position] at hm'
  exact ⟨m', hm', halike⟩

theorem no_onlyMembership_alike {ms ms' : List V2AudienceMembership} {l l' : AudienceLink}
    (hms : Rearranged V2AudienceMembership.Alike ms ms') (hl : l.Alike l')
    (h : membershipFor l none ms = none) : membershipFor l' none ms' = none := by
  cases hfound : membershipFor l' none ms' with
  | none => rfl
  | some m' =>
    have honly := membershipFor_eq_some_iff.mp hfound
    have hlength := (hms.filter (p := fun m => decide (m.position = l.position)) fun x y hxy => by
      rw [hxy.position]).length_eq
    rw [OnlyMembership, ← hl.position] at honly
    rw [honly] at hlength
    obtain ⟨m, hm⟩ := List.length_eq_one_iff.mp hlength
    rw [membershipFor_eq_some_iff.mpr (show OnlyMembership ms l m from hm)] at h
    cases h

/-- The domains of a membership are well formed when none is empty or repeated. -/
theorem matchDomains_eq (l : AudienceLink) (ds : List String) : ∀ (seen : List String) (matched : Bool),
    matchDomains l seen matched ds =
      if (∀ d ∈ ds, d ≠ "" ∧ d ∉ seen) ∧ ds.Nodup then
        some (matched || ds.any fun d => l.trustDomainIds.contains d)
      else none := by
  induction ds with
  | nil =>
    intro seen matched
    simp [matchDomains]
  | cons d ds ih =>
    intro seen matched
    rw [matchDomains]
    by_cases hbad : d = "" ∨ seen.contains d = true
    · rw [if_pos hbad, if_neg]
      rintro ⟨hall, -⟩
      obtain ⟨hne, hnew⟩ := hall d List.mem_cons_self
      obtain hempty | hseen := hbad
      · exact hne hempty
      · exact hnew (by simpa using hseen)
    · rw [if_neg hbad, ih]
      obtain ⟨hne, hnew⟩ := not_or.mp hbad
      have hnew : d ∉ seen := by simpa using hnew
      congr 1
      · rw [List.nodup_cons, List.forall_mem_cons]
        apply propext
        constructor
        · rintro ⟨hall, hnodup⟩
          refine ⟨⟨⟨hne, hnew⟩, fun e he => ⟨(hall e he).1, fun hmem => ?_⟩⟩, fun hmem => ?_, hnodup⟩
          · exact (hall e he).2 (List.mem_cons_of_mem d hmem)
          · exact (hall d hmem).2 List.mem_cons_self
        · rintro ⟨⟨-, hall⟩, hnot, hnodup⟩
          refine ⟨fun e he => ⟨(hall e he).1, fun hmem => ?_⟩, hnodup⟩
          obtain rfl | hmem := List.mem_cons.mp hmem
          · exact hnot he
          · exact (hall e he).2 hmem
      · rw [List.any_cons, Bool.or_assoc]

/-! ## One link -/

/-- A membership that is used: of the receiver, well formed and current. -/
structure AudienceTime.Accepts (s : AudienceTime) (m : V2AudienceMembership) : Prop where
  receiver : m.receiverId = s.receiverId
  digest : validPrefixedDigest m.evidenceDigest = true
  issued : validV2Timestamp m.issuedAt = true
  expires : validV2Timestamp m.expiresAt = true
  ordered : m.issuedAt < m.expiresAt
  unexpired : s.now < m.expiresAt
  started : m.issuedAt ≤ s.now ∨ m.issuedAt - s.now ≤ s.futureSkew
  young : s.now < m.issuedAt ∨ s.now - m.issuedAt < s.maxAge
  named : "" ∉ m.trustDomainIds
  distinct : m.trustDomainIds.Nodup

/-- Some domain of the membership is one of the link's. -/
def SharesDomain (l : AudienceLink) (m : V2AudienceMembership) : Prop :=
  ∃ d ∈ m.trustDomainIds, d ∈ l.trustDomainIds

theorem current_eq_true_iff {s : AudienceTime} {m : V2AudienceMembership} :
    s.current m = true ↔ m.receiverId = s.receiverId ∧ validPrefixedDigest m.evidenceDigest = true
      ∧ validV2Timestamp m.issuedAt = true ∧ validV2Timestamp m.expiresAt = true
      ∧ m.issuedAt < m.expiresAt ∧ s.now < m.expiresAt
      ∧ (m.issuedAt ≤ s.now ∨ m.issuedAt - s.now ≤ s.futureSkew)
      ∧ (s.now < m.issuedAt ∨ s.now - m.issuedAt < s.maxAge) := by
  simp only [AudienceTime.current, Bool.not_eq_true', Bool.or_eq_false_iff, bne_eq_false_iff_eq,
    Bool.not_eq_false', decide_eq_false_iff_not, not_and_or, not_le, not_lt, ge_iff_le, gt_iff_lt,
    and_assoc]

variable {s : AudienceTime} {ms : List V2AudienceMembership} {l : AudienceLink}
  {m : V2AudienceMembership}

/-- The constraint names the receiver itself. -/
def MatchedExactly (s : AudienceTime) (l : AudienceLink) : Prop := s.receiverId ∈ l.exactReceiverIds

theorem matchedExactly_iff :
    (l.exactReceiverIds.any (· == s.receiverId)) = true ↔ MatchedExactly s l := by
  simp [MatchedExactly]

theorem linkAnswer_exact (h : MatchedExactly s l) : linkAnswer s ms l = .exact := by
  rw [linkAnswer, if_pos (matchedExactly_iff.mpr h)]

theorem linkAnswer_unmatchable (h : ¬ MatchedExactly s l) (hnone : l.trustDomainIds = []) :
    linkAnswer s ms l = .unmatchable := by
  rw [linkAnswer, if_neg (mt matchedExactly_iff.mp h), hnone]
  rfl

/-- The membership stage of a link. -/
theorem linkAnswer_member (h : ¬ MatchedExactly s l) (hsome : l.trustDomainIds ≠ []) :
    (linkAnswer s ms l = .unavailable ∧ ∀ m, OnlyMembership ms l m → ¬ s.Accepts m) ∨
    ∃ m, OnlyMembership ms l m ∧ s.Accepts m ∧
      ((SharesDomain l m ∧ linkAnswer s ms l = .matched m) ∨
        (¬ SharesDomain l m ∧ linkAnswer s ms l = .mismatched m)) := by
  have hempty : l.trustDomainIds.isEmpty = false := by simpa using hsome
  rw [linkAnswer, if_neg (mt matchedExactly_iff.mp h), hempty]
  simp only [Bool.false_eq_true, ↓reduceIte]
  cases hfound : membershipFor l none ms with
  | none =>
    refine .inl ⟨rfl, fun m hm => ?_⟩
    rw [membershipFor_eq_some_iff.mpr hm] at hfound
    cases hfound
  | some m =>
    have honly := membershipFor_eq_some_iff.mp hfound
    have hunique : ∀ m', OnlyMembership ms l m' → m' = m := by
      intro m' hm'
      rw [← membershipFor_eq_some_iff, hfound] at hm'
      exact (Option.some.inj hm').symm
    dsimp only
    by_cases hcurrent : s.current m = true
    · rw [if_pos hcurrent, matchDomains_eq]
      obtain ⟨hreceiver, hdigest, hissued, hexpires, hordered, hunexpired, hstarted, hyoung⟩ :=
        current_eq_true_iff.mp hcurrent
      split_ifs with hwell
      · obtain ⟨hall, hnodup⟩ := hwell
        have haccepts : s.Accepts m :=
          ⟨hreceiver, hdigest, hissued, hexpires, hordered, hunexpired, hstarted, hyoung,
            fun hmem => (hall "" hmem).1 rfl, hnodup⟩
        refine .inr ⟨m, honly, haccepts, ?_⟩
        rw [Bool.false_or]
        cases hany : m.trustDomainIds.any fun d => l.trustDomainIds.contains d with
        | true =>
          obtain ⟨d, hd, hmem⟩ := List.any_eq_true.mp hany
          exact .inl ⟨⟨d, hd, by simpa using hmem⟩, rfl⟩
        | false =>
          refine .inr ⟨?_, rfl⟩
          rintro ⟨d, hd, hmem⟩
          have hnot := List.any_eq_false.mp hany d hd
          exact hnot (by simpa using hmem)
      · refine .inl ⟨rfl, fun m' hm' haccepts => ?_⟩
        obtain rfl := hunique m' hm'
        exact hwell ⟨fun d hd => ⟨fun he => haccepts.named (he ▸ hd), List.not_mem_nil⟩,
          haccepts.distinct⟩
    · rw [if_neg hcurrent]
      refine .inl ⟨rfl, fun m' hm' haccepts => ?_⟩
      obtain rfl := hunique m' hm'
      exact hcurrent (current_eq_true_iff.mpr ⟨haccepts.receiver, haccepts.digest, haccepts.issued,
        haccepts.expires, haccepts.ordered, haccepts.unexpired, haccepts.started, haccepts.young⟩)

/-- Answers that differ in the order of a membership's domains only. -/
inductive LinkAnswer.Alike : LinkAnswer → LinkAnswer → Prop
  | exact : Alike .exact .exact
  | unmatchable : Alike .unmatchable .unmatchable
  | unavailable : Alike .unavailable .unavailable
  | mismatched {m m' : V2AudienceMembership} (alike : m.Alike m') :
      Alike (.mismatched m) (.mismatched m')
  | matched {m m' : V2AudienceMembership} (alike : m.Alike m') : Alike (.matched m) (.matched m')

theorem V2AudienceMembership.Alike.symm {m m' : V2AudienceMembership} (h : m.Alike m') :
    m'.Alike m :=
  ⟨h.position.symm, h.receiverId.symm, h.trustDomainIds.symm, h.issuedAt.symm, h.expiresAt.symm,
    h.evidenceDigest.symm⟩

theorem AudienceLink.Alike.symm {l l' : AudienceLink} (h : l.Alike l') : l'.Alike l :=
  ⟨h.position.symm, h.exactReceiverIds.symm, h.trustDomainIds.symm, h.age.symm⟩

theorem LinkAnswer.Alike.symm {x y : LinkAnswer} (h : x.Alike y) : y.Alike x := by
  cases h with
  | exact => exact .exact
  | unmatchable => exact .unmatchable
  | unavailable => exact .unavailable
  | mismatched hm => exact .mismatched hm.symm
  | matched hm => exact .matched hm.symm

theorem current_congr {m m' : V2AudienceMembership} (h : m.Alike m') :
    s.current m = s.current m' := by
  rw [AudienceTime.current, AudienceTime.current, h.receiverId, h.issuedAt, h.expiresAt,
    h.evidenceDigest]

theorem matchDomains_congr {l l' : AudienceLink} {m m' : V2AudienceMembership} (hl : l.Alike l')
    (hm : m.Alike m') :
    matchDomains l [] false m.trustDomainIds = matchDomains l' [] false m'.trustDomainIds := by
  have hall : (∀ d ∈ m.trustDomainIds, d ≠ "" ∧ d ∉ ([] : List String))
      ↔ ∀ d ∈ m'.trustDomainIds, d ≠ "" ∧ d ∉ ([] : List String) := by
    simp only [hm.trustDomainIds.mem_iff]
  have hany : (m.trustDomainIds.any fun d => l.trustDomainIds.contains d)
      = m'.trustDomainIds.any fun d => l'.trustDomainIds.contains d := by
    rw [Bool.eq_iff_iff, List.any_eq_true, List.any_eq_true]
    simp only [List.contains_iff_mem, hm.trustDomainIds.mem_iff, hl.trustDomainIds.mem_iff]
  rw [matchDomains_eq, matchDomains_eq, hany]
  simp only [hall, hm.trustDomainIds.nodup_iff]

/-- The answer for a link does not depend on how memberships and identifiers are
listed. -/
theorem linkAnswer_alike {ms' : List V2AudienceMembership} {l' : AudienceLink}
    (hms : Rearranged V2AudienceMembership.Alike ms ms') (hl : l.Alike l') :
    (linkAnswer s ms l).Alike (linkAnswer s ms' l') := by
  have hexact : MatchedExactly s l ↔ MatchedExactly s l' := hl.exactReceiverIds.mem_iff
  by_cases h : MatchedExactly s l
  · rw [linkAnswer_exact h, linkAnswer_exact (hexact.mp h)]
    exact .exact
  have h' := mt hexact.mpr h
  by_cases hnone : l.trustDomainIds = []
  · have hnone' : l'.trustDomainIds = [] := by
      rw [← List.nil_perm, ← hnone]
      exact hl.trustDomainIds
    rw [linkAnswer_unmatchable h hnone, linkAnswer_unmatchable h' hnone']
    exact .unmatchable
  have hempty : l.trustDomainIds.isEmpty = false := by simpa using hnone
  have hempty' : l'.trustDomainIds.isEmpty = false := by
    rw [List.isEmpty_eq_false_iff]
    rintro he
    exact hnone (List.perm_nil.mp (he ▸ hl.trustDomainIds))
  rw [linkAnswer, linkAnswer, if_neg (mt matchedExactly_iff.mp h),
    if_neg (mt matchedExactly_iff.mp h'), hempty, hempty']
  simp only [Bool.false_eq_true, ↓reduceIte]
  cases hfound : membershipFor l none ms with
  | none =>
    rw [no_onlyMembership_alike hms hl hfound]
    exact .unavailable
  | some m =>
    obtain ⟨m', honly', hm⟩ := (membershipFor_eq_some_iff.mp hfound).alike hms hl
    rw [membershipFor_eq_some_iff.mpr honly']
    dsimp only
    rw [current_congr hm, matchDomains_congr hl hm]
    split
    · split
      · exact .unavailable
      · exact .mismatched hm
      · exact .matched hm
    · exact .unavailable

/-! ## All links -/

/-- What a link that is not refused adds. -/
def AudienceState.add (s : AudienceTime) (a : AudienceState) : LinkAnswer → AudienceState
  | .exact => a
  | .unmatchable => a
  | .unavailable => { a with unavailable := true }
  | .mismatched m => { a with denied := true, evidence := a.evidence ++ [m.evidenceDigest] }
  | .matched m =>
    { a with
      evidence := a.evidence ++ [m.evidenceDigest]
      freshUntil := min (min a.freshUntil m.expiresAt) (m.issuedAt + s.maxAge) }

section Fold

variable {f : AudienceLink → LinkAnswer} {links : List AudienceLink}

theorem foldlM_record_refused (h : ∃ l ∈ links, f l = .unmatchable) : ∀ a : AudienceState,
    links.foldlM (fun (a : AudienceState) l => a.record s (f l)) a
      = plain "v2 exact-only audience mismatch passed preflight" := by
  induction links with
  | nil =>
    obtain ⟨l, hl, -⟩ := h
    cases hl
  | cons x links ih =>
    intro a
    rw [List.foldlM_cons]
    cases hx : f x with
    | unmatchable => rfl
    | _ =>
      have hrest : ∃ l ∈ links, f l = .unmatchable := by
        obtain ⟨l, hl, hfl⟩ := h
        obtain rfl | hl := List.mem_cons.mp hl
        · rw [hx] at hfl
          cases hfl
        · exact ⟨l, hl, hfl⟩
      exact ih hrest _

theorem foldlM_record_eq (h : ∀ l ∈ links, f l ≠ .unmatchable) : ∀ a : AudienceState,
    links.foldlM (fun (a : AudienceState) l => a.record s (f l)) a
      = .ok (links.foldl (fun a l => a.add s (f l)) a) := by
  induction links with
  | nil =>
    intro a
    rfl
  | cons x links ih =>
    intro a
    rw [List.foldlM_cons, List.foldl_cons]
    have hrest := ih fun l hl => h l (List.mem_cons_of_mem x hl)
    cases hx : f x with
    | unmatchable => exact absurd hx (h x List.mem_cons_self)
    | _ => exact hrest _

theorem denied_foldl_add : ∀ a : AudienceState,
    (links.foldl (fun a l => a.add s (f l)) a).denied = true ↔
      a.denied = true ∨ ∃ l ∈ links, ∃ m, f l = .mismatched m := by
  induction links with
  | nil => simp
  | cons x links ih =>
    intro a
    rw [List.foldl_cons, ih]
    cases hx : f x <;> simp [AudienceState.add, hx]

theorem unavailable_foldl_add : ∀ a : AudienceState,
    (links.foldl (fun a l => a.add s (f l)) a).unavailable = true ↔
      a.unavailable = true ∨ ∃ l ∈ links, f l = .unavailable := by
  induction links with
  | nil => simp
  | cons x links ih =>
    intro a
    rw [List.foldl_cons, ih]
    cases hx : f x <;> simp [AudienceState.add, hx]

theorem mem_evidence_foldl_add (d : String) : ∀ a : AudienceState,
    d ∈ (links.foldl (fun a l => a.add s (f l)) a).evidence ↔
      d ∈ a.evidence ∨ ∃ l ∈ links, ∃ m, (f l = .mismatched m ∨ f l = .matched m) ∧
        m.evidenceDigest = d := by
  induction links with
  | nil => simp
  | cons x links ih =>
    intro a
    rw [List.foldl_cons, ih]
    cases hx : f x <;> simp [AudienceState.add, hx, or_assoc, eq_comm]

/-- The horizon is the least of the instants of the memberships used. -/
theorem le_freshUntil_foldl_add (t : Int) : ∀ a : AudienceState,
    t ≤ (links.foldl (fun a l => a.add s (f l)) a).freshUntil ↔
      t ≤ a.freshUntil ∧ ∀ l ∈ links, ∀ m, f l = .matched m →
        t ≤ m.expiresAt ∧ t ≤ m.issuedAt + s.maxAge := by
  induction links with
  | nil => simp
  | cons x links ih =>
    intro a
    rw [List.foldl_cons, ih]
    cases hx : f x <;> simp [AudienceState.add, hx, and_assoc]

end Fold

/-- States that agree on what an assessment looks at are assessed alike. -/
theorem assessment_congr {a b : AudienceState} (hdenied : a.denied = true ↔ b.denied = true)
    (hunavailable : a.unavailable = true ↔ b.unavailable = true)
    (hevidence : ∀ d, d ∈ a.evidence ↔ d ∈ b.evidence)
    (hfresh : ∀ t, t ≤ a.freshUntil ↔ t ≤ b.freshUntil) : a.assessment = b.assessment := by
  have hfresh : a.freshUntil = b.freshUntil :=
    le_antisymm ((hfresh _).mp (le_refl _)) ((hfresh _).mpr (le_refl _))
  rw [AudienceState.assessment, AudienceState.assessment, sortedUnique_congr hevidence, hfresh,
    Bool.eq_iff_iff.mpr hdenied, Bool.eq_iff_iff.mpr hunavailable]

/-! ## The second pass -/

/-- The second loop and the assessment after it, for the answers `f` gives. -/
def assessAnswers (s : AudienceTime) (f : AudienceLink → LinkAnswer) (links : List AudienceLink) :
    V2Result V2AudienceAssessment := do
  let a ← links.foldlM (fun (a : AudienceState) link => a.record s (f link)) AudienceState.initial
  .ok a.assessment

/-- Every answer for `links` has one like it for `links'`. -/
def AnswersCover (f f' : AudienceLink → LinkAnswer) (links links' : List AudienceLink) : Prop :=
  ∀ l ∈ links, ∃ l' ∈ links', (f l).Alike (f' l')

namespace AnswersCover

variable {f f' : AudienceLink → LinkAnswer} {links links' : List AudienceLink}

theorem unmatchable (h : AnswersCover f f' links links') (hx : ∃ l ∈ links, f l = .unmatchable) :
    ∃ l ∈ links', f' l = .unmatchable := by
  obtain ⟨l, hl, hfl⟩ := hx
  obtain ⟨l', hl', halike⟩ := h l hl
  rw [hfl] at halike
  generalize hy : f' l' = y at halike
  cases halike
  exact ⟨l', hl', hy⟩

theorem unavailable (h : AnswersCover f f' links links') (hx : ∃ l ∈ links, f l = .unavailable) :
    ∃ l ∈ links', f' l = .unavailable := by
  obtain ⟨l, hl, hfl⟩ := hx
  obtain ⟨l', hl', halike⟩ := h l hl
  rw [hfl] at halike
  generalize hy : f' l' = y at halike
  cases halike
  exact ⟨l', hl', hy⟩

theorem mismatched (h : AnswersCover f f' links links') {l : AudienceLink} (hl : l ∈ links)
    {m : V2AudienceMembership} (hfl : f l = .mismatched m) :
    ∃ l' ∈ links', ∃ m', f' l' = .mismatched m' ∧ m.Alike m' := by
  obtain ⟨l', hl', halike⟩ := h l hl
  rw [hfl] at halike
  generalize hy : f' l' = y at halike
  cases halike with
  | mismatched hm => exact ⟨l', hl', _, hy, hm⟩

theorem matched (h : AnswersCover f f' links links') {l : AudienceLink} (hl : l ∈ links)
    {m : V2AudienceMembership} (hfl : f l = .matched m) :
    ∃ l' ∈ links', ∃ m', f' l' = .matched m' ∧ m.Alike m' := by
  obtain ⟨l', hl', halike⟩ := h l hl
  rw [hfl] at halike
  generalize hy : f' l' = y at halike
  cases halike with
  | matched hm => exact ⟨l', hl', _, hy, hm⟩

theorem denied (h : AnswersCover f f' links links') (hx : ∃ l ∈ links, ∃ m, f l = .mismatched m) :
    ∃ l ∈ links', ∃ m, f' l = .mismatched m := by
  obtain ⟨l, hl, m, hfl⟩ := hx
  obtain ⟨l', hl', m', hfl', -⟩ := h.mismatched hl hfl
  exact ⟨l', hl', m', hfl'⟩

theorem evidence (h : AnswersCover f f' links links') {d : String}
    (hx : ∃ l ∈ links, ∃ m, (f l = .mismatched m ∨ f l = .matched m) ∧ m.evidenceDigest = d) :
    ∃ l ∈ links', ∃ m, (f' l = .mismatched m ∨ f' l = .matched m) ∧ m.evidenceDigest = d := by
  obtain ⟨l, hl, m, hfl | hfl, hd⟩ := hx
  · obtain ⟨l', hl', m', hfl', hm⟩ := h.mismatched hl hfl
    exact ⟨l', hl', m', .inl hfl', hm.evidenceDigest ▸ hd⟩
  · obtain ⟨l', hl', m', hfl', hm⟩ := h.matched hl hfl
    exact ⟨l', hl', m', .inr hfl', hm.evidenceDigest ▸ hd⟩

theorem fresh (h : AnswersCover f f' links links') {t : Int}
    (hx : ∀ l ∈ links', ∀ m, f' l = .matched m → t ≤ m.expiresAt ∧ t ≤ m.issuedAt + s.maxAge) :
    ∀ l ∈ links, ∀ m, f l = .matched m → t ≤ m.expiresAt ∧ t ≤ m.issuedAt + s.maxAge := by
  intro l hl m hfl
  obtain ⟨l', hl', m', hfl', hm⟩ := h.matched hl hfl
  rw [hm.expiresAt, hm.issuedAt]
  exact hx l' hl' m' hfl'

end AnswersCover

variable {f f' : AudienceLink → LinkAnswer} {links links' : List AudienceLink}

theorem assessAnswers_refused (h : ∃ l ∈ links, f l = .unmatchable) :
    assessAnswers s f links = plain "v2 exact-only audience mismatch passed preflight" := by
  rw [assessAnswers, foldlM_record_refused h]
  rfl

theorem assessAnswers_eq (h : ∀ l ∈ links, f l ≠ .unmatchable) :
    assessAnswers s f links
      = .ok (links.foldl (fun a l => a.add s (f l)) AudienceState.initial).assessment := by
  rw [assessAnswers, foldlM_record_eq h, ok_bind]

/-- Answers that cover each other are assessed alike. -/
theorem assessAnswers_congr (h : AnswersCover f f' links links') (h' : AnswersCover f' f links' links) :
    assessAnswers s f links = assessAnswers s f' links' := by
  by_cases hrefused : ∃ l ∈ links, f l = .unmatchable
  · rw [assessAnswers_refused hrefused, assessAnswers_refused (h.unmatchable hrefused)]
  have hanswered : ∀ l ∈ links, f l ≠ .unmatchable := fun l hl hfl => hrefused ⟨l, hl, hfl⟩
  have hanswered' : ∀ l ∈ links', f' l ≠ .unmatchable := fun l hl hfl =>
    hrefused (h'.unmatchable ⟨l, hl, hfl⟩)
  rw [assessAnswers_eq hanswered, assessAnswers_eq hanswered']
  congr 1
  apply assessment_congr
  · rw [denied_foldl_add, denied_foldl_add]
    exact or_congr_right ⟨h.denied, h'.denied⟩
  · rw [unavailable_foldl_add, unavailable_foldl_add]
    exact or_congr_right ⟨h.unavailable, h'.unavailable⟩
  · intro d
    rw [mem_evidence_foldl_add, mem_evidence_foldl_add]
    exact or_congr_right ⟨h.evidence, h'.evidence⟩
  · intro t
    rw [le_freshUntil_foldl_add, le_freshUntil_foldl_add]
    exact and_congr_right' ⟨h'.fresh, h.fresh⟩

end RatifyProtocol.V2
