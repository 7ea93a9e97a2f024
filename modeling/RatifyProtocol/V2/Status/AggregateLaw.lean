import RatifyProtocol.V2.Status.EvidenceOrder
set_option autoImplicit false

/-!
# Status: the assessment does not depend on the order

The loop of `aggregate_certificate_status_v2` reads the results in chain order
and updates maps as it goes.  What it leaves in them is a statement about the
set of results, and so is the assessment.
-/

namespace RatifyProtocol.V2

open Foundation

/-! ## Gathering evidence -/

/-- Two different entries share the digest. -/
def ConflictIn (es : List StatusEvidenceEntryV2) (digest : String) : Prop :=
  ∃ e ∈ es, ∃ f ∈ es, e.digest = digest ∧ f.digest = digest ∧ e ≠ f

namespace GatheredEvidence

/-- What the gathered variables say of the entries read. -/
structure Holds (g : GatheredEvidence) (es : List StatusEvidenceEntryV2) : Prop where
  mem : ∀ e, e ∈ g.evidenceOut ↔ e ∈ es
  nodup : g.evidenceOut.Nodup
  unbound : ∀ d, g.bindings.get? d = none → ∀ e ∈ es, e.digest ≠ d
  bound : ∀ d e, g.bindings.get? d = some e → e ∈ es ∧ e.digest = d
  conflict : ∀ d, d ∈ g.invalidDigests ↔ ConflictIn es d

theorem Holds.empty : GatheredEvidence.empty.Holds [] where
  mem _ := Iff.rfl
  nodup := List.nodup_nil
  unbound _ _ e he := absurd he List.not_mem_nil
  bound d e h := by cases h
  conflict d := by
    constructor
    · intro h
      cases h
    · rintro ⟨e, he, -⟩
      cases he

theorem mem_pushUnique {evidence : List StatusEvidenceEntryV2} {e x : StatusEvidenceEntryV2} :
    x ∈ pushUnique evidence e ↔ x ∈ evidence ∨ x = e := by
  unfold pushUnique
  split
  · rename_i h
    rw [List.contains_iff_mem] at h
    constructor
    · exact Or.inl
    · rintro (hx | rfl)
      · exact hx
      · exact h
  · rw [List.mem_append, List.mem_singleton]

theorem nodup_pushUnique {evidence : List StatusEvidenceEntryV2} (h : evidence.Nodup)
    (e : StatusEvidenceEntryV2) : (pushUnique evidence e).Nodup := by
  unfold pushUnique
  split
  · exact h
  · rename_i hmem
    rw [List.contains_iff_mem] at hmem
    exact List.nodup_append.mpr ⟨h, List.nodup_singleton e, fun x hx y hy hxy => by
      rw [List.mem_singleton] at hy
      exact hmem (hy ▸ hxy ▸ hx)⟩

/-- Reading one more entry. -/
theorem Holds.add {g : GatheredEvidence} {es : List StatusEvidenceEntryV2} (h : g.Holds es)
    (e : StatusEvidenceEntryV2) : (g.add e).Holds (es ++ [e]) where
  mem x := by
    rw [List.mem_append, List.mem_singleton, ← h.mem x]
    exact mem_pushUnique
  nodup := nodup_pushUnique h.nodup e
  unbound d hd x hx := by
    rw [GatheredEvidence.add, OrderedMap.get?_insert] at hd
    split at hd
    · cases hd
    · rename_i hne
      obtain hx | hx := List.mem_append.mp hx
      · exact h.unbound d hd x hx
      · rw [List.mem_singleton.mp hx]
        exact fun heq => hne heq.symm
  bound d x hx := by
    rw [GatheredEvidence.add, OrderedMap.get?_insert] at hx
    split at hx
    · rename_i heq
      obtain rfl := Option.some.inj hx
      exact ⟨List.mem_append_right es List.mem_cons_self, heq.symm⟩
    · obtain ⟨hmem, hdigest⟩ := h.bound d x hx
      exact ⟨List.mem_append_left [e] hmem, hdigest⟩
  conflict d := by
    have hgrow : ConflictIn es d → ConflictIn (es ++ [e]) d := by
      rintro ⟨x, hx, y, hy, hxy⟩
      exact ⟨x, List.mem_append_left [e] hx, y, List.mem_append_left [e] hy, hxy⟩
    -- A conflict that is new is one with the entry bound to its digest.
    have hnew : ConflictIn (es ++ [e]) d → ConflictIn es d
        ∨ d = e.digest ∧ ∃ prior, g.bindings.get? e.digest = some prior ∧ prior ≠ e := by
      rintro ⟨x, hx, y, hy, hxd, hyd, hxy⟩
      by_contra hnone
      simp only [not_or] at hnone
      have hother : ∀ z ∈ es ++ [e], z.digest = d → d = e.digest → z = e := by
        intro z hz hzd hd
        obtain hz | hz := List.mem_append.mp hz
        · by_contra hne
          cases hprior : g.bindings.get? e.digest with
          | none => exact h.unbound e.digest hprior z hz (hzd.trans hd)
          | some prior =>
            obtain ⟨hpmem, hpd⟩ := h.bound e.digest prior hprior
            by_cases hpe : prior = e
            · exact hnone.1 ⟨z, hz, prior, hpmem, hzd, hpd.trans hd.symm,
                fun heq => hne (heq.trans hpe)⟩
            · exact hnone.2 ⟨hd, prior, hprior, hpe⟩
        · exact List.mem_singleton.mp hz
      by_cases hd : d = e.digest
      · exact hxy ((hother x hx hxd hd).trans (hother y hy hyd hd).symm)
      · have hin : ∀ z ∈ es ++ [e], z.digest = d → z ∈ es := by
          intro z hz hzd
          obtain hz | hz := List.mem_append.mp hz
          · exact hz
          · exact absurd (hzd ▸ List.mem_singleton.mp hz ▸ rfl) hd
        exact hnone.1 ⟨x, hin x hx hxd, y, hin y hy hyd, hxd, hyd, hxy⟩
    unfold GatheredEvidence.add
    dsimp only
    cases hprior : g.bindings.get? e.digest with
    | none =>
      rw [if_neg (by simp), h.conflict d]
      refine ⟨hgrow, fun hc => ?_⟩
      obtain hc | ⟨-, prior, hp, -⟩ := hnew hc
      · exact hc
      · rw [hprior] at hp
        cases hp
    | some prior =>
      by_cases hpe : prior = e
      · rw [if_neg (by simp [hpe]), h.conflict d]
        refine ⟨hgrow, fun hc => ?_⟩
        obtain hc | ⟨-, p, hp, hne⟩ := hnew hc
        · exact hc
        · rw [hprior] at hp
          exact absurd ((Option.some.inj hp).symm.trans hpe) hne
      · rw [if_pos (by simpa using hpe), List.mem_cons, h.conflict d]
        constructor
        · rintro (rfl | hc)
          · obtain ⟨hpmem, hpd⟩ := h.bound e.digest prior hprior
            exact ⟨prior, List.mem_append_left [e] hpmem, e,
              List.mem_append_right es List.mem_cons_self, hpd, rfl, hpe⟩
          · exact hgrow hc
        · intro hc
          obtain hc | ⟨hd, -⟩ := hnew hc
          · exact Or.inr hc
          · exact Or.inl hd

theorem Holds.foldl {g : GatheredEvidence} {es : List StatusEvidenceEntryV2} (h : g.Holds es)
    (fs : List StatusEvidenceEntryV2) : (fs.foldl GatheredEvidence.add g).Holds (es ++ fs) := by
  induction fs generalizing g es with
  | nil =>
    rw [List.append_nil]
    exact h
  | cons f fs ih =>
    rw [List.foldl_cons, List.append_cons]
    exact ih (h.add f)

end GatheredEvidence

/-- The loop over the entries of a result keeps the admitted ones. -/
theorem gatherEntries_eq (admitted : StatusEvidenceEntryV2 → Bool) (valid : Bool)
    (g : GatheredEvidence) (es : List StatusEvidenceEntryV2) :
    gatherEntries admitted valid g es
      = (valid && es.all admitted, (es.filter admitted).foldl GatheredEvidence.add g) := by
  induction es generalizing valid g with
  | nil =>
    rw [gatherEntries, List.all_nil, Bool.and_true]
    rfl
  | cons e es ih =>
    rw [gatherEntries]
    by_cases he : admitted e = true
    · rw [if_pos he, ih, List.filter_cons_of_pos he, List.all_cons, he, Bool.true_and]
      rfl
    · rw [if_neg he, ih, List.filter_cons_of_neg he, List.all_cons,
        Bool.eq_false_iff.mpr he, Bool.false_and, Bool.and_false]

/-! ## What one result says -/

def IsUnavailable (r : StatusResultV2) : Prop :=
  r.status = "indeterminate" ∧ r.reason = "unavailable"

def IsStale (r : StatusResultV2) : Prop := r.status = "indeterminate" ∧ r.reason = "stale"

/-- The evidence of the result is a history of its issuer. -/
def BearsHistory (r : StatusResultV2) : Prop := r.status = "not_revoked" ∨ IsStale r

/-- The members of a result are what its status requires. -/
def StatusFits (issuerId : String) (r : StatusResultV2) : Prop :=
  (r.status = "not_revoked" ∧ r.reason = "" ∧ 0 < r.freshUntil ∧ r.freshUntil ≤ maxSafe
      ∧ validCurrentEvidence r.evidence issuerId = true)
    ∨ (r.status = "revoked" ∧ r.reason = "" ∧ r.evidence ≠ [])
    ∨ IsUnavailable r
    ∨ (IsStale r ∧ validCurrentEvidence r.evidence issuerId = true)

instance (r : StatusResultV2) : Decidable (IsUnavailable r) := inferInstanceAs (Decidable (_ ∧ _))

instance (r : StatusResultV2) : Decidable (IsStale r) := inferInstanceAs (Decidable (_ ∧ _))

instance (r : StatusResultV2) : Decidable (BearsHistory r) := inferInstanceAs (Decidable (_ ∨ _))

instance (issuerId : String) (r : StatusResultV2) : Decidable (StatusFits issuerId r) :=
  inferInstanceAs (Decidable (_ ∨ _ ∨ _ ∨ _))

/-- The match on a status, member by member. -/
theorem Aggregation.judge_eq (a : Aggregation) (issuerId : String) (r : StatusResultV2)
    (valid : Bool) :
    a.judge issuerId r valid
      = (valid && decide (StatusFits issuerId r)
          && (!decide (BearsHistory r) || (addHistory a.history issuerId r.evidence).1),
        { a with
          anyUnavailable := a.anyUnavailable || decide (IsUnavailable r)
          anyStale := a.anyStale || decide (IsStale r)
          freshUntil :=
            if valid = true ∧ StatusFits issuerId r ∧ r.status = "not_revoked" then
              tighten a.freshUntil r.freshUntil
            else a.freshUntil
          revokedCandidates :=
            if valid = true ∧ StatusFits issuerId r ∧ r.status = "revoked" then
              a.revokedCandidates ++ [r]
            else a.revokedCandidates
          history :=
            if valid = true ∧ StatusFits issuerId r ∧ BearsHistory r then
              (addHistory a.history issuerId r.evidence).2
            else a.history }) := by
  unfold judge StatusFits BearsHistory IsStale IsUnavailable
  by_cases hnot : r.status = "not_revoked"
  · simp only [hnot]
    cases valid <;> by_cases h₁ : r.reason = "" <;> by_cases h₂ : 0 < r.freshUntil <;>
      by_cases h₃ : r.freshUntil ≤ maxSafe <;>
      by_cases h₄ : validCurrentEvidence r.evidence issuerId = true <;> simp [h₁, h₂, h₃, h₄]
  by_cases hrevoked : r.status = "revoked"
  · simp only [hrevoked]
    cases valid <;> by_cases h₁ : r.reason = "" <;> by_cases h₂ : r.evidence = [] <;>
      simp [h₁, h₂]
  by_cases hindeterminate : r.status = "indeterminate"
  · simp only [hindeterminate]
    cases valid <;> by_cases h₁ : r.reason = "unavailable" <;>
      by_cases h₂ : r.reason = "stale" <;>
      by_cases h₄ : validCurrentEvidence r.evidence issuerId = true <;> simp [h₁, h₂, h₄]
  · simp [hnot, hrevoked, hindeterminate]

/-! ## What the loop leaves -/

section Loop

variable (roles : V2StatusRoleBindings) (ids : ChainIds)

/-- A result that passes every check of its own. -/
structure ResultSound (row : String × StatusResultV2) : Prop where
  entries : ∀ e ∈ row.2.evidence, entryAdmitted roles ids row.1 row.2.status e = true
  fits : StatusFits row.1 row.2

theorem resultSound_iff {row : String × StatusResultV2} :
    ResultSound roles ids row ↔
      row.2.evidence.all (entryAdmitted roles ids row.1 row.2.status) = true
        ∧ StatusFits row.1 row.2 := by
  rw [List.all_eq_true]
  exact ⟨fun h => ⟨h.entries, h.fits⟩, fun h => ⟨h.1, h.2⟩⟩

instance (row : String × StatusResultV2) : Decidable (ResultSound roles ids row) :=
  decidable_of_iff _ (resultSound_iff roles ids).symm

/-- The entries of a result that pass their checks. -/
def admittedEvidence (row : String × StatusResultV2) : List StatusEvidenceEntryV2 :=
  row.2.evidence.filter (entryAdmitted roles ids row.1 row.2.status)

/-- Two results of one issuer do not show different histories. -/
def Agree (p q : String × StatusResultV2) : Prop :=
  BearsHistory p.2 → BearsHistory q.2 → p.1 = q.1 →
    sortEvidence p.2.evidence = sortEvidence q.2.evidence

/-- What the variables of the loop say of the results read. -/
structure Aggregation.Holds (a : Aggregation) (rows : List (String × StatusResultV2)) : Prop where
  gathered : a.gathered.Holds (rows.flatMap (admittedEvidence roles ids))
  valid : a.invalid = false ↔
    (∀ p ∈ rows, ResultSound roles ids p) ∧ ∀ p ∈ rows, ∀ q ∈ rows, Agree p q
  unavailable : a.anyUnavailable = true ↔ ∃ p ∈ rows, IsUnavailable p.2
  stale : a.anyStale = true ↔ ∃ p ∈ rows, IsStale p.2
  fresh : ∃ xs : List Int, a.freshUntil = xs.foldl tighten 0
    ∧ ∀ x, x ∈ xs ↔ ∃ p ∈ rows, ResultSound roles ids p ∧ p.2.status = "not_revoked" ∧ p.2.freshUntil = x
  candidates : ∀ r, r ∈ a.revokedCandidates ↔
    ∃ p ∈ rows, ResultSound roles ids p ∧ p.2.status = "revoked" ∧ p.2 = r
  absent : ∀ issuer, a.history.get? issuer = none →
    ∀ p ∈ rows, ResultSound roles ids p → BearsHistory p.2 → p.1 ≠ issuer
  present : ∀ issuer es, a.history.get? issuer = some es →
    ∃ p ∈ rows, ResultSound roles ids p ∧ BearsHistory p.2 ∧ p.1 = issuer
      ∧ sortEvidence p.2.evidence = es

namespace Aggregation

theorem Holds.empty : Aggregation.empty.Holds roles ids [] where
  gathered := .empty
  valid := by simp [Aggregation.empty]
  unavailable := by simp [Aggregation.empty]
  stale := by simp [Aggregation.empty]
  fresh := ⟨[], rfl, by simp⟩
  candidates := by simp [Aggregation.empty]
  absent _ _ p hp := absurd hp List.not_mem_nil
  present _ _ h := by cases h

variable {roles ids}

/-- The first history of an issuer stays. -/
theorem get?_addHistory (h : OrderedMap String (List StatusEvidenceEntryV2)) (issuer : String)
    (evidence : List StatusEvidenceEntryV2) (k : String) :
    (addHistory h issuer evidence).2.get? k
      = if k = issuer then some ((h.get? issuer).getD (sortEvidence evidence)) else h.get? k := by
  unfold addHistory
  cases hget : h.get? issuer with
  | none =>
    rw [OrderedMap.get?_insert]
    rfl
  | some prior =>
    dsimp only
    split
    · rename_i hk
      rw [hk, hget]
      rfl
    · rfl

/-- The history of a further result agrees with the one kept. -/
theorem Holds.addHistory_agrees {a : Aggregation} {rows : List (String × StatusResultV2)}
    (h : a.Holds roles ids rows) (hsound : ∀ p ∈ rows, ResultSound roles ids p)
    (hagree : ∀ p ∈ rows, ∀ q ∈ rows, Agree p q) {row : String × StatusResultV2}
    (hbears : BearsHistory row.2) :
    (addHistory a.history row.1 row.2.evidence).1 = true ↔ ∀ p ∈ rows, Agree p row := by
  unfold addHistory
  cases hget : a.history.get? row.1 with
  | none =>
    refine ⟨fun _ p hp hpBears _ hissuer => ?_, fun _ => rfl⟩
    exact absurd hissuer (h.absent row.1 hget p hp (hsound p hp) hpBears)
  | some es =>
    obtain ⟨q, hq, -, hqBears, hqIssuer, rfl⟩ := h.present row.1 es hget
    dsimp only
    rw [beq_iff_eq]
    constructor
    · intro hsame p hp hpBears _ hissuer
      exact (hagree p hp q hq hpBears hqBears (hissuer.trans hqIssuer.symm)).trans hsame
    · intro hall
      exact hall q hq hqBears hbears hqIssuer

/-- One round of the loop, member by member. -/
theorem step_eq (a : Aggregation) (row : String × StatusResultV2) :
    a.step roles ids row
      = { gathered := (admittedEvidence roles ids row).foldl GatheredEvidence.add a.gathered
          invalid := a.invalid || !(decide (ResultSound roles ids row)
            && (!decide (BearsHistory row.2) || (addHistory a.history row.1 row.2.evidence).1))
          anyUnavailable := a.anyUnavailable || decide (IsUnavailable row.2)
          anyStale := a.anyStale || decide (IsStale row.2)
          freshUntil :=
            if ResultSound roles ids row ∧ row.2.status = "not_revoked" then
              tighten a.freshUntil row.2.freshUntil
            else a.freshUntil
          revokedCandidates :=
            if ResultSound roles ids row ∧ row.2.status = "revoked" then
              a.revokedCandidates ++ [row.2]
            else a.revokedCandidates
          history :=
            if ResultSound roles ids row ∧ BearsHistory row.2 then
              (addHistory a.history row.1 row.2.evidence).2
            else a.history } := by
  have hsound : (row.2.evidence.all (entryAdmitted roles ids row.1 row.2.status)
      && decide (StatusFits row.1 row.2)) = decide (ResultSound roles ids row) := by
    rw [Bool.eq_iff_iff, Bool.and_eq_true, decide_eq_true_eq, decide_eq_true_eq, resultSound_iff]
  unfold step
  rw [gatherEntries_eq]
  dsimp only
  rw [judge_eq]
  simp only [Bool.true_and, hsound, ← and_assoc, ← resultSound_iff]
  rfl

theorem exists_mem_snoc {α : Type} {p : α → Prop} {xs : List α} {x : α} :
    (∃ y ∈ xs ++ [x], p y) ↔ (∃ y ∈ xs, p y) ∨ p x := by
  simp only [List.mem_append, List.mem_singleton]
  constructor
  · rintro ⟨y, hy | rfl, hp⟩
    · exact Or.inl ⟨y, hy, hp⟩
    · exact Or.inr hp
  · rintro (⟨y, hy, hp⟩ | hp)
    · exact ⟨y, Or.inl hy, hp⟩
    · exact ⟨x, Or.inr rfl, hp⟩

theorem forall_mem_snoc {α : Type} {p : α → Prop} {xs : List α} {x : α} :
    (∀ y ∈ xs ++ [x], p y) ↔ (∀ y ∈ xs, p y) ∧ p x := by
  simp only [List.mem_append, List.mem_singleton, or_imp, forall_and, forall_eq]

variable {a : Aggregation} {rows : List (String × StatusResultV2)}

/-- The flag of an invalid result after one more. -/
theorem Holds.valid_step (h : a.Holds roles ids rows) (row : String × StatusResultV2) :
    (a.step roles ids row).invalid = false ↔
      (∀ p ∈ rows ++ [row], ResultSound roles ids p)
        ∧ ∀ p ∈ rows ++ [row], ∀ q ∈ rows ++ [row], Agree p q := by
  have hself : Agree row row := fun _ _ _ => rfl
  have hsymm : ∀ {p q : String × StatusResultV2}, Agree p q → Agree q p :=
    fun hpq hq hp hissuer => (hpq hp hq hissuer.symm).symm
  have hpairs : (∀ p ∈ rows ++ [row], ∀ q ∈ rows ++ [row], Agree p q) ↔
      (∀ p ∈ rows, ∀ q ∈ rows, Agree p q) ∧ ∀ p ∈ rows, Agree p row := by
    simp only [forall_mem_snoc]
    constructor
    · rintro ⟨hrows, -⟩
      exact ⟨fun p hp => (hrows p hp).1, fun p hp => (hrows p hp).2⟩
    · rintro ⟨hrows, hrow⟩
      exact ⟨fun p hp => ⟨hrows p hp, hrow p hp⟩, fun q hq => hsymm (hrow q hq), hself⟩
  have hflag : (a.step roles ids row).invalid = false ↔ a.invalid = false ∧ ResultSound roles ids row
      ∧ (BearsHistory row.2 → (addHistory a.history row.1 row.2.evidence).1 = true) := by
    rw [step_eq]
    simp only [Bool.or_eq_false_iff, Bool.not_eq_false', Bool.and_eq_true, Bool.or_eq_true,
      Bool.not_eq_true', decide_eq_true_eq, decide_eq_false_iff_not, ← imp_iff_not_or]
  rw [hflag, h.valid, hpairs, forall_mem_snoc]
  constructor
  · rintro ⟨⟨hsound, hagree⟩, hrow, hhistory⟩
    refine ⟨⟨hsound, hrow⟩, hagree, fun p hp => ?_⟩
    by_cases hbears : BearsHistory row.2
    · exact (h.addHistory_agrees hsound hagree hbears).mp (hhistory hbears) p hp
    · exact fun _ hb => absurd hb hbears
  · rintro ⟨⟨hsound, hrow⟩, hagree, hnew⟩
    exact ⟨⟨hsound, hagree⟩, hrow,
      fun hbears => (h.addHistory_agrees hsound hagree hbears).mpr hnew⟩

/-- One more result read. -/
theorem Holds.step (h : a.Holds roles ids rows) (row : String × StatusResultV2) :
    (a.step roles ids row).Holds roles ids (rows ++ [row]) where
  gathered := by
    rw [step_eq, List.flatMap_append, List.flatMap_singleton]
    exact h.gathered.foldl _
  valid := h.valid_step row
  unavailable := by
    rw [step_eq, exists_mem_snoc, ← h.unavailable]
    simp only [Bool.or_eq_true, decide_eq_true_eq]
  stale := by
    rw [step_eq, exists_mem_snoc, ← h.stale]
    simp only [Bool.or_eq_true, decide_eq_true_eq]
  fresh := by
    obtain ⟨xs, hfold, hxs⟩ := h.fresh
    rw [step_eq]
    dsimp only
    by_cases hrow : ResultSound roles ids row ∧ row.2.status = "not_revoked"
    · refine ⟨xs ++ [row.2.freshUntil], ?_, fun x => ?_⟩
      · rw [if_pos hrow, hfold, List.foldl_append]
        rfl
      · rw [exists_mem_snoc, List.mem_append, hxs, List.mem_singleton]
        simp only [hrow.1, hrow.2, true_and, eq_comm]
    · refine ⟨xs, ?_, fun x => ?_⟩
      · rw [if_neg hrow, hfold]
      · rw [exists_mem_snoc, hxs, or_iff_left]
        exact fun hx => hrow ⟨hx.1, hx.2.1⟩
  candidates r := by
    rw [step_eq, exists_mem_snoc, ← h.candidates]
    dsimp only
    by_cases hrow : ResultSound roles ids row ∧ row.2.status = "revoked"
    · rw [if_pos hrow, List.mem_append, List.mem_singleton]
      simp only [hrow.1, hrow.2, true_and, eq_comm]
    · rw [if_neg hrow, or_iff_left]
      exact fun hr => hrow ⟨hr.1, hr.2.1⟩
  absent issuer hget := by
    rw [forall_mem_snoc]
    by_cases hrow : ResultSound roles ids row ∧ BearsHistory row.2
    · rw [step_eq] at hget
      dsimp only at hget
      rw [if_pos hrow, get?_addHistory] at hget
      split at hget
      · cases hget
      · rename_i hne
        exact ⟨h.absent issuer hget, fun _ _ hissuer => hne hissuer.symm⟩
    · rw [step_eq] at hget
      dsimp only at hget
      rw [if_neg hrow] at hget
      exact ⟨h.absent issuer hget, fun hsound hbears => absurd ⟨hsound, hbears⟩ hrow⟩
  present issuer es hget := by
    rw [exists_mem_snoc]
    by_cases hrow : ResultSound roles ids row ∧ BearsHistory row.2
    · rw [step_eq] at hget
      dsimp only at hget
      rw [if_pos hrow, get?_addHistory] at hget
      split at hget
      · rename_i hissuer
        obtain rfl := Option.some.inj hget
        cases hprior : a.history.get? row.1 with
        | none => exact Or.inr ⟨hrow.1, hrow.2, hissuer.symm, rfl⟩
        | some prior =>
          rw [hissuer]
          exact Or.inl (h.present row.1 prior hprior)
      · exact Or.inl (h.present issuer es hget)
    · rw [step_eq] at hget
      dsimp only at hget
      rw [if_neg hrow] at hget
      exact Or.inl (h.present issuer es hget)

/-- The whole loop. -/
theorem Holds.foldl (h : a.Holds roles ids rows) (more : List (String × StatusResultV2)) :
    (more.foldl (Aggregation.step roles ids) a).Holds roles ids (rows ++ more) := by
  induction more generalizing a rows with
  | nil =>
    rw [List.append_nil]
    exact h
  | cons row more ih =>
    rw [List.foldl_cons, List.append_cons]
    exact ih (h.step row)

end Aggregation

/-! ## The assessment -/

variable (rows : List (String × StatusResultV2))

/-- No entry of the result shares its digest with a different entry of the chain. -/
def Unconflicted (p : String × StatusResultV2) : Prop :=
  ∀ e ∈ p.2.evidence, ¬ ConflictIn (rows.flatMap (admittedEvidence roles ids)) e.digest

/-- A revoked result stands on its own evidence. -/
def SomeRevoked : Prop :=
  ∃ p ∈ rows, p.2.status = "revoked" ∧ ResultSound roles ids p ∧ Unconflicted roles ids rows p

/-- A result is invalid, unavailable, or at odds with another one. -/
def SomeUnavailable : Prop :=
  ∃ p ∈ rows, ¬ ResultSound roles ids p ∨ ¬ Unconflicted roles ids rows p ∨ IsUnavailable p.2
    ∨ ∃ q ∈ rows, ¬ Agree p q

def SomeStale : Prop := ∃ p ∈ rows, IsStale p.2

/-- The assessment and its reason. -/
inductive Verdict : String → String → Prop
  | revoked (h : SomeRevoked roles ids rows) : Verdict "revoked" "delegation_revoked"
  | unavailable (hrevoked : ¬ SomeRevoked roles ids rows) (h : SomeUnavailable roles ids rows) :
      Verdict "unavailable" "status_unavailable"
  | stale (hrevoked : ¬ SomeRevoked roles ids rows)
      (hunavailable : ¬ SomeUnavailable roles ids rows) (h : SomeStale rows) :
      Verdict "stale" "status_stale"
  | current (hrevoked : ¬ SomeRevoked roles ids rows)
      (hunavailable : ¬ SomeUnavailable roles ids rows) (h : ¬ SomeStale rows) :
      Verdict "current" ""

/-- What an assessment says of the set of results. -/
structure AssessmentLaw (a : V2StatusAssessment) : Prop where
  verdict : Verdict roles ids rows a.assessment a.reason
  evidence : ∀ e, e ∈ a.evidence ↔
    e ∈ rows.flatMap (admittedEvidence roles ids)
      ∧ ¬ ConflictIn (rows.flatMap (admittedEvidence roles ids)) e.digest
  nodup : a.evidence.Nodup
  sorted : sortEvidence a.evidence = a.evidence
  fresh : a.assessment = "current" → IsLeast { x | ∃ p ∈ rows, p.2.freshUntil = x } a.freshUntil
  stopped : a.assessment ≠ "current" → a.freshUntil = 0
  history : a.assessment = "current" ∨ a.assessment = "stale" →
    hasAcceptedStatusHistoryPerIssuer a.evidence (sortedUnique (rows.map (·.1))) = true

variable {roles ids rows}

theorem Verdict.unique {assessment reason assessment' reason' : String}
    (h : Verdict roles ids rows assessment reason)
    (h' : Verdict roles ids rows assessment' reason') :
    assessment = assessment' ∧ reason = reason' := by
  cases h <;> cases h' <;> first | exact ⟨rfl, rfl⟩ | contradiction

/-- The set of results determines the assessment. -/
theorem AssessmentLaw.unique {a b : V2StatusAssessment} (ha : AssessmentLaw roles ids rows a)
    (hb : AssessmentLaw roles ids rows b) : a = b := by
  obtain ⟨hassessment, hreason⟩ := ha.verdict.unique hb.verdict
  have hperm : a.evidence.Perm b.evidence := by
    rw [List.perm_ext_iff_of_nodup ha.nodup hb.nodup]
    intro e
    rw [ha.evidence, hb.evidence]
  have hevidence : a.evidence = b.evidence := by
    rw [← ha.sorted, ← hb.sorted]
    exact sortEvidence_congr hperm
  have hfresh : a.freshUntil = b.freshUntil := by
    by_cases hcurrent : a.assessment = "current"
    · exact (ha.fresh hcurrent).unique (hb.fresh (hassessment ▸ hcurrent))
    · rw [ha.stopped hcurrent, hb.stopped (hassessment ▸ hcurrent)]
  cases a
  cases b
  simp only [V2StatusAssessment.mk.injEq]
  exact ⟨hassessment, hreason, hevidence, hfresh⟩

theorem ResultSound.issuerId {p : String × StatusResultV2} (h : ResultSound roles ids p)
    {e : StatusEvidenceEntryV2} (he : e ∈ p.2.evidence) :
    e.issuerId = p.1 ∧ e.statusKeyId ≠ "" ∧ 0 < e.sequence := by
  have hadmitted := h.entries e he
  simp only [entryAdmitted, Bool.and_eq_true, beq_iff_eq, decide_eq_true_eq] at hadmitted
  obtain ⟨⟨⟨⟨⟨⟨⟨⟨⟨⟨hissuer, hkey⟩, hpos⟩, -⟩, -⟩, -⟩, -⟩, -⟩, -⟩, -⟩, -⟩ := hadmitted
  refine ⟨hissuer, ?_, hpos⟩
  intro hempty
  rw [hempty] at hkey
  exact absurd hkey (by decide)

end Loop

end RatifyProtocol.V2
