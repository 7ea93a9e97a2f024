import Mathlib.Algebra.Group.Int.Defs
import RatifyProtocol.V2.Status.Aggregate
set_option autoImplicit false

/-!
# Status: histories of evidence

The order of evidence, and the agreement of two validators: evidence that
`valid_current_evidence` accepts for an issuer passes the history check of a
receipt for that issuer, wherever its entries stand.
-/

namespace RatifyProtocol.V2

open Foundation

/-! ## The order of evidence -/

instance : Std.TransCmp compareEvidence :=
  inferInstanceAs (Std.TransCmp (compareLex (compareOn StatusEvidenceEntryV2.issuerId)
    (compareLex (compareOn StatusEvidenceEntryV2.statusKeyId)
      (compareLex (compareOn StatusEvidenceEntryV2.sequence)
        (compareLex (compareOn StatusEvidenceEntryV2.objectType)
          (compareOn StatusEvidenceEntryV2.digest))))))

/-- Entries that compare equal are equal. -/
theorem compareEvidence_eq_iff {a b : StatusEvidenceEntryV2} :
    compareEvidence a b = .eq ↔ a = b := by
  cases a
  cases b
  simp only [compareEvidence, Ordering.then_eq_eq, Std.compare_eq_iff_eq,
    StatusEvidenceEntryV2.mk.injEq]

theorem sortEvidence_perm (evidence : List StatusEvidenceEntryV2) :
    (sortEvidence evidence).Perm evidence :=
  List.perm_insertionSort _ _

/-- The sorted list depends on the entries alone. -/
theorem sortEvidence_congr {a b : List StatusEvidenceEntryV2} (h : a.Perm b) :
    sortEvidence a = sortEvidence b := by
  have hswap : ∀ x y : StatusEvidenceEntryV2, compareEvidence x y = (compareEvidence y x).swap :=
    fun x y => Std.OrientedCmp.eq_swap
  have htotal : ∀ x y : StatusEvidenceEntryV2,
      compareEvidence x y ≠ .gt ∨ compareEvidence y x ≠ .gt := by
    intro x y
    by_contra hboth
    simp only [not_or, not_not] at hboth
    rw [hswap, hboth.2] at hboth
    exact absurd hboth.1 (by decide)
  have htrans : ∀ x y z : StatusEvidenceEntryV2, compareEvidence x y ≠ .gt →
      compareEvidence y z ≠ .gt → compareEvidence x z ≠ .gt := by
    intro x y z hxy hyz
    exact Ordering.isLE_iff_ne_gt.mp (Std.TransCmp.isLE_trans
      (Ordering.isLE_iff_ne_gt.mpr hxy) (Ordering.isLE_iff_ne_gt.mpr hyz))
  have hanti : ∀ x y : StatusEvidenceEntryV2, compareEvidence x y ≠ .gt →
      compareEvidence y x ≠ .gt → x = y := by
    intro x y hxy hyx
    rw [hswap] at hyx
    rw [← compareEvidence_eq_iff]
    cases hcmp : compareEvidence x y with
    | lt => exact absurd (by rw [hcmp]; rfl) hyx
    | eq => rfl
    | gt => exact absurd hcmp hxy
  have : Std.Total fun x y : StatusEvidenceEntryV2 => compareEvidence x y ≠ .gt := ⟨htotal⟩
  have : IsTrans StatusEvidenceEntryV2 fun x y => compareEvidence x y ≠ .gt := ⟨htrans⟩
  exact (((sortEvidence_perm a).trans h).trans (sortEvidence_perm b).symm).eq_of_pairwise
    (fun x y _ _ hxy hyx => hanti x y hxy hyx) (List.pairwise_insertionSort _ a)
    (List.pairwise_insertionSort _ b)

/-! ## Histories -/

/-- The entries are one list and the pushes right after it, all under one key. -/
structure AcceptedHistory (entries : List StatusEvidenceEntryV2) (base : StatusEvidenceEntryV2) :
    Prop where
  lists : entries.filter (fun e => e.objectType == LIST) = [base]
  types : ∀ e ∈ entries, e.objectType = LIST ∨ e.objectType = PUSH
  key : ∀ e ∈ entries, e.statusKeyId = base.statusKeyId
  pushes : ((entries.filter fun e => e.objectType == PUSH).map (·.sequence)).Perm
    ((List.range (entries.filter fun e => e.objectType == PUSH).length).map
      fun i : Nat => base.sequence + i + 1)

namespace AcceptedHistory

variable {entries other : List StatusEvidenceEntryV2} {base : StatusEvidenceEntryV2}

/-- A history is one in every order. -/
theorem of_perm (h : AcceptedHistory entries base) (hperm : entries.Perm other) :
    AcceptedHistory other base where
  lists := by
    have hlists := hperm.filter fun e => e.objectType == LIST
    rw [h.lists] at hlists
    exact List.perm_singleton.mp hlists.symm
  types e he := h.types e (hperm.mem_iff.mpr he)
  key e he := h.key e (hperm.mem_iff.mpr he)
  pushes := by
    have hpushes := hperm.filter fun e => e.objectType == PUSH
    rw [← hpushes.length_eq]
    exact (hpushes.map _).symm.trans h.pushes

theorem base_mem (h : AcceptedHistory entries base) : base ∈ entries := by
  have hmem : base ∈ entries.filter fun e => e.objectType == LIST := by
    rw [h.lists]
    exact List.mem_cons_self
  exact (List.mem_filter.mp hmem).1

/-- No entry occurs twice. -/
theorem nodup (h : AcceptedHistory entries base) : entries.Nodup := by
  rw [List.nodup_iff_count_le_one]
  intro e
  by_cases hmem : e ∈ entries
  · obtain htype | htype := h.types e hmem
    · have hcount := List.count_filter (p := fun e => e.objectType == LIST) (l := entries)
        (a := e) (by simpa using htype)
      rw [← hcount, h.lists]
      exact List.nodup_iff_count_le_one.mp (List.nodup_singleton base) e
    · have hcount := List.count_filter (p := fun e => e.objectType == PUSH) (l := entries)
        (a := e) (by simpa using htype)
      rw [← hcount]
      apply List.nodup_iff_count_le_one.mp
      apply List.Nodup.of_map (·.sequence)
      rw [h.pushes.nodup_iff]
      apply List.Nodup.map _ List.nodup_range
      intro i j hij
      dsimp only at hij
      omega
  · rw [List.count_eq_zero_of_not_mem hmem]
    omega

end AcceptedHistory

/-- Sorting by sequence. -/
theorem pushes_sorted (pushes : List StatusEvidenceEntryV2) :
    ((pushes.insertionSort fun a b => a.sequence ≤ b.sequence).map
      (·.sequence)).Pairwise (· ≤ ·) := by
  have : Std.Total fun a b : StatusEvidenceEntryV2 => a.sequence ≤ b.sequence :=
    ⟨fun a b => le_total a.sequence b.sequence⟩
  have : IsTrans StatusEvidenceEntryV2 fun a b => a.sequence ≤ b.sequence :=
    ⟨fun a b c => le_trans⟩
  rw [List.pairwise_map]
  exact List.pairwise_insertionSort _ pushes

/-- What `valid_current_evidence` accepts. -/
theorem validCurrentEvidence_iff {evidence : List StatusEvidenceEntryV2} {issuerId : String} :
    validCurrentEvidence evidence issuerId = true ↔
      (∀ e ∈ evidence, e.issuerId = issuerId) ∧ ∃ base, AcceptedHistory evidence base := by
  have hperm := List.perm_insertionSort (fun a b : StatusEvidenceEntryV2 => a.sequence ≤ b.sequence)
    (evidence.filter fun e => e.objectType == PUSH)
  have hsorted := pushes_sorted (evidence.filter fun e => e.objectType == PUSH)
  have hmem : ∀ p ∈ evidence, p.objectType = PUSH →
      p ∈ (evidence.filter fun e => e.objectType == PUSH).insertionSort
        fun a b => a.sequence ≤ b.sequence := by
    intro p hp htype
    exact hperm.mem_iff.mpr (List.mem_filter.mpr ⟨hp, beq_iff_eq.mpr htype⟩)
  have hof : ∀ p ∈ (evidence.filter fun e => e.objectType == PUSH).insertionSort
      fun a b => a.sequence ≤ b.sequence, p ∈ evidence := by
    intro p hp
    exact (List.mem_filter.mp (hperm.mem_iff.mp hp)).1
  unfold validCurrentEvidence
  simp only [Bool.and_eq_true, List.all_eq_true, Bool.or_eq_true, beq_iff_eq]
  generalize (evidence.filter fun e => e.objectType == PUSH).insertionSort
    (fun a b => a.sequence ≤ b.sequence) = sorted at hperm hsorted hmem hof ⊢
  constructor
  · rintro ⟨hall, hmatch⟩
    refine ⟨fun e he => (hall e he).1, ?_⟩
    split at hmatch
    · rename_i base hlists
      simp only [Bool.and_eq_true, List.all_eq_true, beq_iff_eq] at hmatch
      obtain ⟨hkey, hsequence⟩ := hmatch
      refine ⟨base, hlists, fun e he => (hall e he).2, fun e he => ?_, ?_⟩
      · obtain htype | htype := (hall e he).2
        · have hbase : e ∈ evidence.filter fun e => e.objectType == LIST :=
            List.mem_filter.mpr ⟨he, beq_iff_eq.mpr htype⟩
          rw [hlists, List.mem_singleton] at hbase
          rw [hbase]
        · exact hkey e (hmem e he htype)
      · rw [← hperm.length_eq, ← hsequence]
        exact (hperm.map _).symm
    · cases hmatch
  · rintro ⟨hissuer, base, h⟩
    refine ⟨fun e he => ⟨hissuer e he, h.types e he⟩, ?_⟩
    rw [h.lists]
    simp only [Bool.and_eq_true, List.all_eq_true, beq_iff_eq]
    refine ⟨fun p hp => h.key p (hof p hp), ?_⟩
    have hsame := (hperm.map StatusEvidenceEntryV2.sequence).trans h.pushes
    rw [← hperm.length_eq] at hsame
    apply hsame.eq_of_pairwise (fun _ _ _ _ => le_antisymm) hsorted
    rw [List.pairwise_map]
    apply List.pairwise_le_range.imp
    intro i j hij
    omega

/-- One scan over entries under one key: the list is found and the pushes are
collected. -/
theorem historyScan_eq {key : String} (hkey : key ≠ "") {es : List StatusEvidenceEntryV2}
    (hes : ∀ e ∈ es, e.statusKeyId = key ∧ (e.objectType = LIST ∨ e.objectType = PUSH))
    {seen : String} (hseen : seen = "" ∨ seen = key) (base : Int) (pushes : List Int)
    (hnodup : (pushes ++ (es.filter fun e => e.objectType == PUSH).map (·.sequence)).Nodup) :
    (es.filter (fun e => e.objectType == LIST) = [] →
        historyScan base seen pushes es
          = some (base, pushes ++ (es.filter fun e => e.objectType == PUSH).map (·.sequence)))
      ∧ ∀ b, es.filter (fun e => e.objectType == LIST) = [b] → base = 0 →
        historyScan base seen pushes es = some (b.sequence,
          pushes ++ (es.filter fun e => e.objectType == PUSH).map (·.sequence)) := by
  induction es generalizing seen base pushes with
  | nil =>
    refine ⟨fun _ => ?_, fun b hb => ?_⟩
    · rw [historyScan, List.filter_nil, List.map_nil, List.append_nil]
    · cases hb
  | cons e es ih =>
    obtain ⟨hekey, htype⟩ := hes e List.mem_cons_self
    have hrest : ∀ x ∈ es, x.statusKeyId = key ∧ (x.objectType = LIST ∨ x.objectType = PUSH) :=
      fun x hx => hes x (List.mem_cons_of_mem e hx)
    have hguard : ¬ (seen ≠ "" ∧ seen ≠ e.statusKeyId) := by
      rw [hekey]
      obtain rfl | rfl := hseen
      · exact fun h => h.1 rfl
      · exact fun h => h.2 rfl
    rw [historyScan, if_neg hguard, hekey]
    obtain htype | htype := htype
    · -- The full list.
      have hlist : (e.objectType == LIST) = true := beq_iff_eq.mpr htype
      have hpush : (e.objectType == PUSH) = false := by
        rw [htype]
        rfl
      simp only [List.filter_cons, hlist, hpush, if_true, Bool.false_eq_true, if_false]
        at hnodup ⊢
      rw [if_pos htype]
      refine ⟨fun h => (List.cons_ne_nil _ _ h).elim, fun b hb hbase => ?_⟩
      obtain ⟨rfl, hnone⟩ := List.cons.inj hb
      rw [if_neg (not_not.mpr hbase)]
      exact (ih hrest (Or.inr rfl) e.sequence pushes hnodup).1 hnone
    · -- A push.
      have hlist : (e.objectType == LIST) = false := by
        rw [htype]
        rfl
      have hpush : (e.objectType == PUSH) = true := beq_iff_eq.mpr htype
      simp only [List.filter_cons, hlist, hpush, if_true, Bool.false_eq_true, if_false,
        List.map_cons] at hnodup ⊢
      have hfresh : ¬ pushes.contains e.sequence = true := by
        rw [List.contains_iff_mem]
        intro hmem
        exact (List.nodup_append.mp hnodup).2.2 _ hmem _ List.mem_cons_self rfl
      have hsplit := List.append_cons pushes e.sequence
        ((es.filter fun e => e.objectType == PUSH).map (·.sequence))
      rw [if_neg (show ¬ e.objectType = 3 by rw [htype]; decide), if_neg hfresh]
      rw [hsplit] at hnodup ⊢
      exact ih hrest (Or.inr rfl) base (pushes ++ [e.sequence]) hnodup

/-- A history of positive sequences under a named key passes the check of a
receipt. -/
theorem AcceptedHistory.accepted {evidence : List StatusEvidenceEntryV2} {issuer : String}
    {base : StatusEvidenceEntryV2}
    (h : AcceptedHistory (evidence.filter fun e => e.issuerId == issuer) base)
    (hkey : base.statusKeyId ≠ "") (hpos : 0 < base.sequence) :
    hasAcceptedStatusHistory evidence issuer = true := by
  have hnodup : (((evidence.filter fun e => e.issuerId == issuer).filter
      fun e => e.objectType == PUSH).map (·.sequence)).Nodup := by
    rw [h.pushes.nodup_iff]
    apply List.Nodup.map _ List.nodup_range
    intro i j hij
    dsimp only at hij
    omega
  have hscan := (historyScan_eq hkey (fun e he => ⟨h.key e he, h.types e he⟩) (Or.inl rfl) 0 []
    hnodup).2 base h.lists rfl
  have hpushes := h.pushes
  unfold hasAcceptedStatusHistory
  rw [hscan]
  generalize (((evidence.filter fun e => e.issuerId == issuer).filter
    fun e => e.objectType == PUSH).map (·.sequence)) = pushes at hpushes ⊢
  simp only [List.nil_append, Bool.and_eq_true, bne_iff_ne, List.all_eq_true,
    decide_eq_true_eq, List.contains_iff_mem]
  have hmem : ∀ s, s ∈ pushes ↔ ∃ i < pushes.length, base.sequence + (i : Int) + 1 = s := by
    intro s
    have hlength : pushes.length = ((evidence.filter fun e => e.issuerId == issuer).filter
        fun e => e.objectType == PUSH).length := by
      rw [hpushes.length_eq, List.length_map, List.length_range]
    rw [hpushes.mem_iff, List.mem_map, hlength]
    simp only [List.mem_range]
  refine ⟨⟨by omega, fun s hs => ?_⟩, fun i hi => ?_⟩
  · obtain ⟨i, -, rfl⟩ := (hmem s).mp hs
    omega
  · refine (hmem _).mpr ⟨i, List.mem_range.mp hi, ?_⟩
    omega

/-! ## The check of a receipt accepts nothing else -/

/-- An entry with a named key, a positive sequence and a known type. -/
structure StatusEvidenceEntryV2.Proper (e : StatusEvidenceEntryV2) : Prop where
  key : e.statusKeyId ≠ ""
  pos : 0 < e.sequence
  /-- Below `i64::MAX`, so that the sequence after it is an `i64`. -/
  lt_max : e.sequence < 2 ^ 63 - 1
  type : e.objectType = LIST ∨ e.objectType = PUSH

/-- What one scan has seen when it succeeds: one key and at most one list. -/
theorem of_historyScan {es : List StatusEvidenceEntryV2} (hes : ∀ e ∈ es, e.Proper) {key : String}
    {base b : Int} {pushes all : List Int} (h : historyScan base key pushes es = some (b, all)) :
    (∃ k, (key = "" ∨ key = k) ∧ ∀ e ∈ es, e.statusKeyId = k) ∧
    all = pushes ++ (es.filter fun e => e.objectType == PUSH).map (·.sequence) ∧
    ((es.filter (fun e => e.objectType == LIST) = [] ∧ b = base) ∨
      (base = 0 ∧ ∃ l, es.filter (fun e => e.objectType == LIST) = [l] ∧ b = l.sequence)) := by
  induction es generalizing key base pushes with
  | nil =>
    rw [historyScan] at h
    obtain ⟨rfl, rfl⟩ := Prod.mk.inj (Option.some.inj h)
    refine ⟨⟨key, .inr rfl, ?_⟩, ?_, .inl ⟨rfl, rfl⟩⟩
    · intro e he
      cases he
    · rw [List.filter_nil, List.map_nil, List.append_nil]
  | cons e es ih =>
    have he := hes e List.mem_cons_self
    have hrest : ∀ x ∈ es, x.Proper := fun x hx => hes x (List.mem_cons_of_mem e hx)
    -- The scan goes on under the key of this entry.
    have hkeys : ∀ {k : String}, (e.statusKeyId = "" ∨ e.statusKeyId = k) →
        (∀ x ∈ es, x.statusKeyId = k) → ¬ (key ≠ "" ∧ key ≠ e.statusKeyId) →
        ∃ k, (key = "" ∨ key = k) ∧ ∀ x ∈ e :: es, x.statusKeyId = k := by
      intro k hk hes' hguard
      obtain rfl := hk.resolve_left he.key
      refine ⟨e.statusKeyId, ?_, List.forall_mem_cons.mpr ⟨rfl, hes'⟩⟩
      by_contra hne
      exact hguard (not_or.mp hne)
    rw [historyScan] at h
    split at h
    · cases h
    rename_i hguard
    split at h
    · rename_i htype
      split at h
      · cases h
      rename_i hbase
      have hlist : (e.objectType == LIST) = true := beq_iff_eq.mpr htype
      have hpush : (e.objectType == PUSH) = false := by
        rw [htype]
        rfl
      obtain ⟨⟨k, hk, hks⟩, hall, hlists⟩ := ih hrest h
      refine ⟨hkeys hk hks hguard, ?_, .inr ⟨not_not.mp hbase, e, ?_⟩⟩
      · rw [List.filter_cons, hpush]
        exact hall
      · rw [List.filter_cons, hlist]
        obtain ⟨hnone, rfl⟩ | ⟨hzero, -⟩ := hlists
        · exact ⟨congrArg (e :: ·) hnone, rfl⟩
        · exact absurd hzero he.pos.ne'
    · rename_i htype
      split at h
      · cases h
      have hlist : (e.objectType == LIST) = false := beq_eq_false_iff_ne.mpr htype
      have hpush : (e.objectType == PUSH) = true := beq_iff_eq.mpr (he.type.resolve_left htype)
      obtain ⟨⟨k, hk, hks⟩, hall, hlists⟩ := ih hrest h
      refine ⟨hkeys hk hks hguard, ?_, ?_⟩
      · rw [List.filter_cons, hpush]
        rw [hall, List.append_assoc]
        rfl
      · rw [List.filter_cons, hlist]
        exact hlists

/-- Sequences that cover the range right after `base` are that range: there are no
more of them. -/
theorem perm_range_of_covers {base : Int} {pushes : List Int}
    (hcovers : ∀ i < pushes.length, base + 1 + (i : Int) ∈ pushes) :
    pushes.Perm ((List.range pushes.length).map fun i : Nat => base + i + 1) := by
  have hrange : ((List.range pushes.length).map fun i : Nat => base + (i : Int) + 1).Nodup := by
    apply List.Nodup.map _ List.nodup_range
    intro i j hij
    dsimp only at hij
    omega
  have hsubset : ((List.range pushes.length).map fun i : Nat => base + (i : Int) + 1) ⊆ pushes := by
    intro s hs
    obtain ⟨i, hi, rfl⟩ := List.mem_map.mp hs
    have hmem := hcovers i (List.mem_range.mp hi)
    rwa [Int.add_right_comm] at hmem
  refine ((List.subperm_of_subset hrange hsubset).perm_of_length_le ?_).symm
  rw [List.length_map, List.length_range]

/-- The check of a receipt accepts the histories of proper entries, and no more. -/
theorem hasAcceptedStatusHistory_iff {evidence : List StatusEvidenceEntryV2} {issuer : String}
    (hevidence : ∀ e ∈ evidence, e.Proper) :
    hasAcceptedStatusHistory evidence issuer = true ↔
      ∃ base, AcceptedHistory (evidence.filter fun e => e.issuerId == issuer) base := by
  have hproper : ∀ e ∈ evidence.filter fun e => e.issuerId == issuer, e.Proper :=
    fun e he => hevidence e (List.mem_filter.mp he).1
  constructor
  · intro h
    unfold hasAcceptedStatusHistory at h
    split at h
    · cases h
    rename_i b pushes hscan
    simp only [Bool.and_eq_true, bne_iff_ne, List.all_eq_true, decide_eq_true_eq,
      List.contains_iff_mem, List.mem_range] at h
    obtain ⟨⟨hb, -⟩, hcovers⟩ := h
    obtain ⟨⟨k, -, hks⟩, hpushes, hlists⟩ := of_historyScan hproper hscan
    obtain ⟨-, rfl⟩ | ⟨-, base, hlist, rfl⟩ := hlists
    · exact absurd rfl hb
    rw [List.nil_append] at hpushes
    have hbase : base ∈ evidence.filter fun e => e.issuerId == issuer := by
      have hmem : base ∈ (evidence.filter fun e => e.issuerId == issuer).filter
          fun e => e.objectType == LIST := by
        rw [hlist]
        exact List.mem_singleton_self base
      exact (List.mem_filter.mp hmem).1
    refine ⟨base, hlist, fun e he => (hproper e he).type, fun e he => ?_, ?_⟩
    · rw [hks e he, hks base hbase]
    · have hperm := perm_range_of_covers hcovers
      rwa [hpushes, List.length_map] at hperm
  · rintro ⟨base, h⟩
    have hbase := hproper base h.base_mem
    exact h.accepted hbase.key hbase.pos

/-- The evidence of one issuer as `valid_current_evidence` is given it. -/
theorem validCurrentEvidence_filter_iff {evidence : List StatusEvidenceEntryV2} {issuer : String} :
    validCurrentEvidence (evidence.filter fun e => e.issuerId == issuer) issuer = true ↔
      ∃ base, AcceptedHistory (evidence.filter fun e => e.issuerId == issuer) base := by
  rw [validCurrentEvidence_iff]
  exact and_iff_right fun e he => beq_iff_eq.mp (List.mem_filter.mp he).2

/-- Two validators agree.  Over proper entries, in any order, a receipt's check of
a list of issuers is `valid_current_evidence` of the entries of each, which is to
be one list and the pushes right after it under one key. -/
theorem statusHistory_validators_agree {evidence : List StatusEvidenceEntryV2}
    {issuerIds : List String} (hissuers : issuerIds ≠ []) (hevidence : ∀ e ∈ evidence, e.Proper) :
    (hasAcceptedStatusHistoryPerIssuer evidence issuerIds = true ↔
      ∀ issuer ∈ issuerIds,
        validCurrentEvidence (evidence.filter fun e => e.issuerId == issuer) issuer = true) ∧
    (∀ issuer, validCurrentEvidence (evidence.filter fun e => e.issuerId == issuer) issuer = true ↔
      ∃ base, AcceptedHistory (evidence.filter fun e => e.issuerId == issuer) base) ∧
    ∀ other, other.Perm evidence →
      hasAcceptedStatusHistoryPerIssuer other issuerIds
        = hasAcceptedStatusHistoryPerIssuer evidence issuerIds ∧
      ∀ issuer, validCurrentEvidence (other.filter fun e => e.issuerId == issuer) issuer
        = validCurrentEvidence (evidence.filter fun e => e.issuerId == issuer) issuer := by
  have hissuer : ∀ other : List StatusEvidenceEntryV2, (∀ e ∈ other, e.Proper) → ∀ issuer,
      hasAcceptedStatusHistory other issuer
        = validCurrentEvidence (other.filter fun e => e.issuerId == issuer) issuer := by
    intro other hother issuer
    rw [Bool.eq_iff_iff, hasAcceptedStatusHistory_iff hother, validCurrentEvidence_filter_iff]
  have hall : ∀ other : List StatusEvidenceEntryV2, (∀ e ∈ other, e.Proper) →
      (hasAcceptedStatusHistoryPerIssuer other issuerIds = true ↔
        ∀ issuer ∈ issuerIds,
          validCurrentEvidence (other.filter fun e => e.issuerId == issuer) issuer = true) := by
    intro other hother
    have hne : issuerIds.isEmpty = false := by
      rwa [List.isEmpty_eq_false_iff]
    unfold hasAcceptedStatusHistoryPerIssuer
    simp only [hne, Bool.not_false, Bool.and_true, List.all_eq_true, hissuer other hother]
  refine ⟨hall evidence hevidence, fun _ => validCurrentEvidence_filter_iff,
    fun other hperm => ?_⟩
  have hvalid : ∀ issuer,
      validCurrentEvidence (other.filter fun e => e.issuerId == issuer) issuer
        = validCurrentEvidence (evidence.filter fun e => e.issuerId == issuer) issuer := by
    intro issuer
    have hfilter := hperm.filter fun e => e.issuerId == issuer
    rw [Bool.eq_iff_iff, validCurrentEvidence_filter_iff, validCurrentEvidence_filter_iff]
    exact ⟨fun ⟨base, h⟩ => ⟨base, h.of_perm hfilter⟩,
      fun ⟨base, h⟩ => ⟨base, h.of_perm hfilter.symm⟩⟩
  have hother : ∀ e ∈ other, e.Proper := fun e he => hevidence e (hperm.mem_iff.mp he)
  refine ⟨?_, hvalid⟩
  rw [Bool.eq_iff_iff, hall other hother, hall evidence hevidence]
  simp only [hvalid]

/-- A list and the push after it. -/
theorem statusHistory_validators_agree_two :
    hasAcceptedStatusHistoryPerIssuer [⟨"i", "k", 2, PUSH, "e"⟩, ⟨"i", "k", 1, LIST, "d"⟩] ["i"]
      = true := by
  have hproper : ∀ e ∈ [(⟨"i", "k", 2, PUSH, "e"⟩ : StatusEvidenceEntryV2),
      ⟨"i", "k", 1, LIST, "d"⟩], e.Proper := by
    intro e he
    simp only [List.mem_cons, List.not_mem_nil, or_false] at he
    obtain rfl | rfl := he
    · exact ⟨by decide, by decide, by decide, .inr rfl⟩
    · exact ⟨by decide, by decide, by decide, .inl rfl⟩
  exact (statusHistory_validators_agree (List.cons_ne_nil _ _) hproper).1.mpr (by decide)

/-- An empty key is no key to the scan: it accepts two keys that
`valid_current_evidence` refuses, and only in this order. -/
theorem hasAcceptedStatusHistoryPerIssuer_emptyKey :
    hasAcceptedStatusHistoryPerIssuer [⟨"i", "", 1, LIST, "d"⟩, ⟨"i", "k", 2, PUSH, "e"⟩] ["i"]
      = true ∧
    hasAcceptedStatusHistoryPerIssuer [⟨"i", "k", 2, PUSH, "e"⟩, ⟨"i", "", 1, LIST, "d"⟩] ["i"]
      = false ∧
    validCurrentEvidence [⟨"i", "", 1, LIST, "d"⟩, ⟨"i", "k", 2, PUSH, "e"⟩] "i" = false := by
  decide

end RatifyProtocol.V2
