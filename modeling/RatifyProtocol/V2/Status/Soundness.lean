import RatifyProtocol.V2.Status.Recovery
set_option autoImplicit false

/-!
# Status: what a `not_revoked` answer rests on

The flags of the state summarise the whole run: the accepted history is made of
delivered objects, the floor is the greatest sequence delivered, and every fork
of the epoch was answered by a full list beyond it.
-/

namespace RatifyProtocol.V2

open Foundation

variable {P : Primitives} {policy : RevocationStatusPolicyV2} {d : Delivery}
  {s t u b r : RevocationStatusStateV2} {o : RevocationObservationV2} {is : List StatusStep}
  {H : List Delivery}

/-! ## Forks and their recovery -/

/-- The delivery marks a fork at `f` when it is applied in `s`. -/
def DetectsFork (P : Primitives) (policy : RevocationStatusPolicyV2)
    (s : RevocationStatusStateV2) (d : Delivery) (f : Int) : Prop :=
  ∃ b o, d.Checks P policy s b o ∧ match d.object with
    | .list l => listSettled P b l o.evidenceDigest o (listFresh l policy d.now)
        (redelivers b l o.evidenceDigest o) = false ∧ listFork b o = some f
    | .push p => pushSettled b p o = false ∧ pushFork b o = some f

/-- The delivery is a list that `s` accepts. -/
def AcceptsList (P : Primitives) (policy : RevocationStatusPolicyV2)
    (s : RevocationStatusStateV2) (d : Delivery) (l : RevocationListV2) : Prop :=
  d.object = .list l ∧ ∃ b o, d.Checks P policy s b o ∧
    listSettled P b l o.evidenceDigest o (listFresh l policy d.now)
      (redelivers b l o.evidenceDigest o) = false ∧
    listPlacement (sighted b o (duplicates b l o) none) o (listFresh l policy d.now)
      (listConflicts b o) = .accepted

/-- The run `mid` after the fork at `f` accepts a full list beyond it that names
everything denied by then. -/
def AnsweredBy (P : Primitives) (policy : RevocationStatusPolicyV2) (pre post : List StatusStep)
    (f : Int) : Prop :=
  ∃ mid d rest u l, post = mid ++ .deliver d :: rest ∧ StatusRun P policy (pre ++ mid) u ∧
    AcceptsList P policy u d l ∧ f < l.sequence ∧
    ∀ id ∈ u.denyUnionCertIds, id ∈ revokedIds l.revoked

theorem AnsweredBy.extend {pre post : List StatusStep} {f : Int}
    (h : AnsweredBy P policy pre post f) (i : StatusStep) :
    AnsweredBy P policy pre (post ++ [i]) f := by
  obtain ⟨mid, d, rest, u, l, rfl, hrest⟩ := h
  exact ⟨mid, d, rest ++ [i], u, l, by simp, hrest⟩

/-- A sighting that marks a fork keeps it at or above the mark. -/
theorem fork_le_retain {dup g : Bool} {f : Int} :
    f ≤ (retain b o dup (some f) g).forkSequence := by
  change f ≤ max (max (max b.forkSequence b.floor) f) 0
  omega

theorem retain_fork_ge {dup g : Bool} {f : Option Int} :
    b.forkSequence ≤ (retain b o dup f g).forkSequence := by
  cases f with
  | none => exact le_refl _
  | some n =>
    change b.forkSequence ≤ max (max (max b.forkSequence b.floor) n) 0
    omega

/-- A push that forks is at or below the floor or leaves status unreconciled, so
it is never accepted. -/
theorem not_continues_of_fork {f : Int} (h : pushFork b o = some f) :
    pushContinues b o = false := by
  by_contra hc
  obtain ⟨-, hseq, -, -, hnone⟩ := pushContinues_iff.mp (by simpa using hc)
  unfold pushFork at h
  have hle : decide (o.sequence ≤ b.floor) = false := by
    simp only [decide_eq_false_iff_not]
    omega
  rw [hle, hnone] at h
  simp at h

/-- A detected fork stays in the fork sequence of the state the step leads to. -/
theorem DetectsFork.fork_le {f : Int} (h : DetectsFork P policy s d f) (hs : WellFormed P s)
    (happ : applyDelivery P policy s d = .ok t) : f ≤ t.forkSequence := by
  obtain ⟨b, o, hc, hdet⟩ := h
  obtain ⟨b', o', r, hc', hred, rfl⟩ := (applyDelivery_eq_ok_iff hs).mp happ
  obtain ⟨rfl, rfl⟩ := hc.unique hc'
  have hfinal : f ≤ r.forkSequence := by
    cases hx : d.object with
    | list l =>
      have hcl : V2.Checks P s (.list l) d.issuerId d.epoch d.key policy d.now b o := hx ▸ hc
      rw [hx] at hdet
      rw [hx, reduceObject] at hred
      obtain ⟨hset, hfork⟩ := hdet
      rcases reduceList_cases hcl hred with ⟨hyes, -⟩ | ⟨-, g, -, rfl⟩ | ⟨-, hp, -⟩
      · rw [hset] at hyes
        cases hyes
      · rw [hfork]
        exact fork_le_retain
      · obtain ⟨-, hno, -⟩ := listPlacement_eq_accepted_iff.mp hp
        simp [listFork, hno] at hfork
    | push p =>
      have hcp : V2.Checks P s (.push p) d.issuerId d.epoch d.key policy d.now b o := hx ▸ hc
      rw [hx] at hdet
      rw [hx, reduceObject] at hred
      obtain ⟨hset, hfork⟩ := hdet
      rcases reducePush_cases hcp (Except.ok.inj hred).symm with
        ⟨hyes, -⟩ | ⟨-, -, rfl⟩ | ⟨-, hcont, -⟩
      · rw [hset] at hyes
        cases hyes
      · rw [hfork]
        exact fork_le_retain
      · rw [not_continues_of_fork hfork] at hcont
        cases hcont
  unfold compactBound
  split <;> exact hfinal

theorem DetectsFork.pos {f : Int} (h : DetectsFork P policy s d f) : 0 < f := by
  obtain ⟨b, o, hc, hdet⟩ := h
  have hpos := hc.sightingOk.sequence_pos
  cases hx : d.object with
  | list l =>
    rw [hx] at hdet
    rw [listFork_le hdet.2]
    exact hpos
  | push p =>
    rw [hx] at hdet
    have hfork := hdet.2
    unfold pushFork at hfork
    have hsight : ∀ n, pushSightingFork b o = some n → 0 < n :=
      fun n hn => hpos.trans_le (sequence_le_of_pushSightingFork hpos hn)
    split at hfork
    · cases hf : pushSightingFork b o with
      | none =>
        rw [hf] at hfork
        rw [← Option.some.inj hfork]
        exact hpos
      | some m =>
        rw [hf] at hfork
        rw [← Option.some.inj hfork]
        exact hsight m hf
    · exact hsight f hfork

/-- One delivery keeps a fork open or accepts a full list beyond it. -/
theorem fork_kept_or_answered {f : Int} (hs : WellFormed P s) (hbound : s.issuerId ≠ "")
    (hf : f ≤ s.forkSequence) (hpos : 0 < f) (happ : applyDelivery P policy s d = .ok t) :
    f ≤ t.forkSequence ∨ ∃ l, AcceptsList P policy s d l ∧ f < l.sequence ∧
      ∀ id ∈ s.denyUnionCertIds, id ∈ revokedIds l.revoked := by
  obtain ⟨b, o, r, hc, hred, rfl⟩ := (applyDelivery_eq_ok_iff hs).mp happ
  have hb : b = s := by
    rw [hc.bound, boundState, if_neg hbound]
  subst hb
  have hcompact : ∀ r : RevocationStatusStateV2, f ≤ r.forkSequence →
      f ≤ (compactBound P r).forkSequence := by
    intro r hr
    unfold compactBound
    split <;> exact hr
  cases hx : d.object with
  | list l =>
    have hcl : V2.Checks P b (.list l) d.issuerId d.epoch d.key policy d.now b o := hx ▸ hc
    rw [hx, reduceObject] at hred
    rcases reduceList_cases hcl hred with ⟨-, rfl⟩ | ⟨-, g, -, rfl⟩ | ⟨hset, hp, rfl⟩
    · exact .inl (hcompact _ hf)
    · exact .inl (hcompact _ (hf.trans retain_fork_ge))
    · by_cases hset' : ((sighted b o (duplicates b l o) none).reconciliationRequired
          && settles (sighted b o (duplicates b l o) none) l) = true
      · right
        simp only [settles, Bool.and_eq_true, Bool.or_eq_true, beq_iff_eq, decide_eq_true_eq,
          containsAll_iff] at hset'
        obtain ⟨-, ⟨hfork, -⟩, hids⟩ := hset'
        change b.forkSequence = 0 ∨ l.sequence > b.forkSequence at hfork
        refine ⟨l, ⟨hx, b, o, hc, hset, hp⟩, by omega, fun id hid => hids id ?_⟩
        change id ∈ if duplicates b l o then b.denyUnionCertIds
          else sortedUnique (b.denyUnionCertIds ++ o.revokedCertIds)
        split
        · exact hid
        · exact mem_sortedUnique.mpr (List.mem_append_left _ hid)
      · refine .inl (hcompact _ ?_)
        simp only [acceptedList, if_neg hset']
        exact hf
  | push p =>
    have hcp : V2.Checks P b (.push p) d.issuerId d.epoch d.key policy d.now b o := hx ▸ hc
    rw [hx, reduceObject] at hred
    rcases reducePush_cases hcp (Except.ok.inj hred).symm with ⟨-, rfl⟩ | ⟨-, -, rfl⟩ | ⟨-, -, rfl⟩
    · exact .inl (hcompact _ hf)
    · exact .inl (hcompact _ (hf.trans retain_fork_ge))
    · exact .inl (hcompact _ hf)

/-- Every fork of the current epoch is still open or was answered. -/
theorem forks_open_or_answered (hrun : StatusRun P policy is s)
    (hfree : CollisionFree P (objectsOf (deliveries is))) :
    ∀ pre d post t f, is = pre ++ .deliver d :: post → StatusRun P policy pre t →
      DetectsFork P policy t d f → d.epoch = s.statusKeyEpoch →
      f ≤ s.forkSequence ∨ AnsweredBy P policy (pre ++ [.deliver d]) post f := by
  induction hrun with
  | nil => simp
  | @snoc is t u i run last ih =>
    intro pre d post v f hsplit hv hdet hep
    rcases List.eq_nil_or_concat post with rfl | ⟨post, j, rfl⟩
    · obtain ⟨rfl, hi⟩ := List.append_inj' hsplit rfl
      obtain rfl := List.head_eq_of_cons_eq hi
      obtain rfl := statusRun_unique run hv
      rw [deliveries_deliver] at hfree
      have ht := (reachable_keeps run (hfree.mono (objectsOf_append_left _ _))).1
      exact .inl (hdet.fork_le ht last)
    rw [List.concat_eq_append, ← List.cons_append, ← List.append_assoc] at hsplit
    obtain ⟨rfl, hi⟩ := List.append_inj' hsplit rfl
    obtain rfl := List.head_eq_of_cons_eq hi
    have hmem : d ∈ deliveries (pre ++ .deliver d :: post) := by simp [deliveries]
    rw [deliveries_append] at hfree
    have hfree' := hfree.mono (objectsOf_append_left _ _)
    obtain ⟨ht, hh⟩ := reachable_keeps run hfree'
    have hdpos : 0 < d.epoch := by
      obtain ⟨b, o, hc, -⟩ := hdet
      exact hc.epoch_pos
    have hle := hh.epoch_le d hmem
    have hbound : t.issuerId ≠ "" := by
      intro hi
      rw [ht.unbound hi] at hle
      have : d.epoch ≤ 0 := hle
      omega
    cases i with
    | transition issuerId nextEpoch key =>
      obtain ⟨-, -, rfl, -, -, keyId, -, -, -, rfl⟩ := (transition_eq_ok_iff ht).mp last
      have : d.epoch = t.statusKeyEpoch + 1 := hep
      omega
    | deliver e =>
      obtain ⟨b, o, r, hc, hred, hu⟩ := (applyDelivery_eq_ok_iff ht).mp last
      have hep' : u.statusKeyEpoch = t.statusKeyEpoch := by
        have hout := outcome_of_reduce (deliveries_deliver _ e ▸ deliveries_append _ _ ▸ hfree)
          (hc.wellFormed ht) (hh.bound ht hc) hc hred
        have hbe : b = t := by rw [hc.bound, boundState, if_neg hbound]
        obtain ⟨e₁, e₂, -⟩ := hout.effect (hc.wellFormed ht)
        rw [hu, compactBound_of_bound (e₁ ▸ hc.bound_ne)]
        exact e₂.trans (hbe ▸ rfl)
      rw [List.concat_eq_append]
      rcases ih hfree' pre d post v f rfl hv hdet (hep.trans hep') with hopen | hans
      · rcases fork_kept_or_answered ht hbound hopen hdet.pos last with hkept | ⟨l, hacc, hl⟩
        · exact .inl hkept
        · exact .inr ⟨post, e, [], t, l, rfl, by simpa using run, hacc, hl⟩
      · exact .inr (hans.extend _)

/-! ## The accepted history -/

/-- The list `L` and the pushes that follow it up to the floor are delivered in the
epoch, nothing of the epoch lies beyond the floor, and together they name every ID
ever delivered. -/
structure CompleteHistory (H : List Delivery) (epoch : Nat) (floor : Int) (L : RevocationListV2)
    (pushes : List RevocationPushV2) : Prop where
  list : ∃ d ∈ H, d.object = .list L ∧ d.epoch = epoch
  delivered : ∀ p ∈ pushes, ∃ d ∈ H, d.object = .push p ∧ d.epoch = epoch
  list_le : L.sequence ≤ floor
  contiguous : pushes.map (·.sequence)
    = (List.range (floor - L.sequence).toNat).map fun (i : Nat) => L.sequence + 1 + (i : Int)
  greatest : ∀ d ∈ H, d.epoch = epoch → d.object.sequence ≤ floor
  covers : ∀ d ∈ H, ∀ id ∈ d.object.ids,
    id ∈ revokedIds L.revoked ∨ ∃ p ∈ pushes, id ∈ revokedIds p.revoked

/-- A retained push of the accepted range is delivered with all its IDs. -/
theorem accepted_push_delivered (hh : History P H s) {snap : RevocationListV2}
    (ho : o ∈ s.observations) (hin : acceptedPushInRange s snap o = true) :
    ∃ p, (∃ d ∈ H, d.object = .push p ∧ d.epoch = s.statusKeyEpoch) ∧
      p.sequence = o.sequence ∧ ∀ id ∈ o.revokedCertIds, id ∈ revokedIds p.revoked := by
  obtain ⟨h₁, h₂, -⟩ := acceptedPushInRange_iff.mp hin
  obtain ⟨d, hd, ⟨hep, hty, hseq⟩, -, -, hids⟩ := (hh.sourced o ho).body
  cases hx : d.object with
  | list l =>
    rw [hx, h₂] at hty
    exact absurd hty (show ¬ LIST = PUSH by decide)
  | push p =>
    rw [hx] at hseq hids
    exact ⟨p, ⟨d, hd, hx, hep.trans h₁⟩, hseq, hids⟩

/-- The accepted history of a settled state is complete. -/
theorem completeHistory (hs : WellFormed P s) (hh : History P H s) {snap : RevocationListV2}
    (hsnap : s.acceptedSnapshot = some snap) (hf : s.hasFloor = true)
    (hmax : s.maxObservedSequence ≤ s.floor)
    (hcov : ∀ id ∈ s.denyUnionCertIds, id ∈ s.acceptedCertIds) :
    ∃ pushes, CompleteHistory H s.statusKeyEpoch s.floor snap pushes := by
  obtain ⟨snap', hsnap', hacc⟩ := hs.floor.present hf
  obtain rfl := Option.some.inj (hsnap.symm.trans hsnap')
  -- One retained push a sequence, hence one delivered push.
  have hone : ∀ n : Int, snap.sequence < n → n ≤ s.floor → ∃ p,
      (∃ d ∈ H, d.object = .push p ∧ d.epoch = s.statusKeyEpoch) ∧ p.sequence = n ∧
      ∀ a ∈ s.observations, acceptedPushInRange s snap a = true → a.sequence = n →
        ∀ id ∈ a.revokedCertIds, id ∈ revokedIds p.revoked := by
    intro n hn hnf
    obtain ⟨a, ha, hin, rfl⟩ := hacc.contiguous n hn hnf
    obtain ⟨p, hp, hseq, hids⟩ := accepted_push_delivered hh ha hin
    refine ⟨p, hp, hseq, fun c hc hinc hsc => ?_⟩
    have hsame : c = a := by
      by_contra hne
      obtain ⟨h₁, h₂, h₃, -⟩ := acceptedPushInRange_iff.mp hin
      obtain ⟨k₁, k₂, k₃, -⟩ := acceptedPushInRange_iff.mp hinc
      exact hs.evidence.accepted.forall hc ha hne ⟨k₂, h₂, k₁.trans h₁.symm, hsc, k₃, h₃⟩
    exact hsame ▸ hids
  have hrange : ∀ i ∈ List.range (s.floor - snap.sequence).toNat,
      snap.sequence < snap.sequence + 1 + (i : Int) ∧ snap.sequence + 1 + (i : Int) ≤ s.floor := by
    intro i hi
    have := List.mem_range.mp hi
    omega
  choose f hf₁ hf₂ hf₃ using hone
  let pushes := (List.range (s.floor - snap.sequence).toNat).attach.map fun i =>
    f (snap.sequence + 1 + (i.1 : Int)) (hrange i.1 i.2).1 (hrange i.1 i.2).2
  refine ⟨pushes, hh.snapshot snap hsnap, ?_, hacc.sequence_le, ?_, ?_, ?_⟩
  · intro p hp
    obtain ⟨i, -, rfl⟩ := List.mem_map.mp hp
    exact hf₁ _ _ _
  · rw [List.map_map]
    conv_rhs => rw [← List.attach_map_subtype_val (List.range _), List.map_map]
    refine List.map_congr_left fun i _ => ?_
    exact hf₂ _ _ _
  · exact fun d hd hep => (hh.observed d hd hep).trans hmax
  · intro d hd id hid
    have hin := hcov id ((hh.denied id).mpr ⟨d, hd, hid⟩)
    rcases (hacc.accepted_ids id).mp hin with hid | ⟨a, ha, hr, hid⟩
    · exact .inl hid
    · obtain ⟨-, -, -, hlt, hle⟩ := acceptedPushInRange_iff.mp hr
      have hmem : (a.sequence - snap.sequence - 1).toNat
          ∈ List.range (s.floor - snap.sequence).toNat := by
        rw [List.mem_range]
        omega
      have hn : snap.sequence + 1 + ((a.sequence - snap.sequence - 1).toNat : Int) = a.sequence := by
        omega
      refine .inr ⟨_, List.mem_map.mpr ⟨⟨_, hmem⟩, List.mem_attach _ _, rfl⟩, ?_⟩
      exact hf₃ _ _ _ a ha hr hn.symm id hid

/-! ## The answer -/

/-- What stands behind a `not_revoked` answer with the bound `freshUntil`. -/
structure Warranted (P : Primitives) (policy : RevocationStatusPolicyV2) (is : List StatusStep)
    (s : RevocationStatusStateV2) (certId : String) (policy' : RevocationStatusPolicyV2)
    (now freshUntil : Int) (L : RevocationListV2) (pushes : List RevocationPushV2) : Prop where
  unnamed : ∀ d ∈ deliveries is, certId ∉ d.object.ids
  history : CompleteHistory (deliveries is) s.statusKeyEpoch s.floor L pushes
  forks : ∀ pre d post t f, is = pre ++ .deliver d :: post → StatusRun P policy pre t →
    DetectsFork P policy t d f → d.epoch = s.statusKeyEpoch →
    AnsweredBy P policy (pre ++ [.deliver d]) post f
  now_lt : now < freshUntil
  bound_le : freshUntil ≤ min L.nextUpdate (L.updatedAt + policy'.maxStatusAgeSeconds)
  lifetime_le : L.nextUpdate - L.updatedAt ≤ policy'.maxListLifetimeSeconds

/-- Whenever a reachable state answers `not_revoked`, the answer is warranted. -/
theorem notRevoked_warranted (hrun : StatusRun P policy is s)
    (hfree : CollisionFree P (objectsOf (deliveries is))) {issuerId certId : String} {epoch : Nat}
    {key : HybridPublicKey} {policy' : RevocationStatusPolicyV2} {now : Int}
    {result : RevocationStatusResultV2}
    (hq : revocationStatusForCertV2 P s issuerId certId epoch key policy' now = .ok result)
    (hres : result.status = .notRevoked) :
    ∃ L pushes, Warranted P policy is s certId policy' now result.freshUntil L pushes := by
  obtain ⟨hs, hh⟩ := reachable_keeps hrun hfree
  obtain ⟨hpol, -, -, -, -, -, -, -, -, rfl⟩ := revocationStatusForCertV2_eq_ok_iff.mp hq
  obtain ⟨L, hans⟩ := answerForCert_notRevoked_iff.mp hres
  obtain ⟨pushes, hhist⟩ := completeHistory hs hh hans.snapshot hans.hasFloor hans.floor_max
    hans.covered
  obtain ⟨h₁, h₂, hlife, -, hnext, hage⟩ := listFresh_iff.mp hans.fresh
  have hbound := freshUntil_of_answers (P := P) issuerId s.statusKeyId hans
  have hclosed : s.forkSequence = 0 := by
    have h₁ := hs.evidence.fork_nonneg
    by_contra hne
    have := hs.evidence.fork_open (by omega)
    rw [hans.reconciled] at this
    cases this
  refine ⟨L, pushes, ?_, hhist, ?_, ?_, hbound.le, hlife⟩
  · intro d hd hid
    exact hans.notDenied ((hh.denied certId).mpr ⟨d, hd, hid⟩)
  · intro pre d post t f hsplit ht hdet hep
    have hpos := hdet.pos
    refine (forks_open_or_answered hrun hfree pre d post t f hsplit ht hdet hep).resolve_left ?_
    omega
  · rw [hbound, lt_min_iff]
    refine ⟨hnext, ?_⟩
    have hnonneg : 0 ≤ policy'.maxStatusAgeSeconds := by
      simp only [validatePolicy, refuseIf_eq_ok_iff, Bool.or_eq_false_iff,
        decide_eq_false_iff_not, not_lt] at hpol
      exact hpol.1.1.1.1.2
    rcases hage with hage | hage <;> omega

/-- A list delivered fresh answers `not_revoked` for another certificate, with everything
that warrants it. -/
theorem notRevoked_warranted_first :
    ∃ P s result L pushes, StatusRun P ⟨60, 60, 5⟩
        [.deliver ⟨.list (tabledList 100 160 1 ["a"]), tabledIssuer, 1, tabledKey 1, 100⟩] s ∧
      revocationStatusForCertV2 P s tabledIssuer "c" 1 (tabledKey 1) ⟨60, 60, 5⟩ 110 = .ok result ∧
      result.status = .notRevoked ∧
      Warranted P ⟨60, 60, 5⟩
        [.deliver ⟨.list (tabledList 100 160 1 ["a"]), tabledIssuer, 1, tabledKey 1, 100⟩] s "c"
        ⟨60, 60, 5⟩ 110 result.freshUntil L pushes := by
  have hwf : ListWellFormed (tabledList 100 160 1 ["a"]) :=
    listWellFormed_tabled (by decide) (by decide) (by decide) (by decide) (by decide) (by decide)
      ⟨by decide, by decide, by decide⟩
  obtain ⟨s, hrun, hs, hset, hissuer, hepoch, hkey⟩ := exists_run_first
    [.list (tabledList 100 160 1 ["a"])] ⟨60, 60, 5⟩ 100 hwf (by decide) rfl rfl rfl
  have hne : s.issuerId ≠ "" := by
    rw [hissuer]
    exact validV2Id_ne_empty validV2Id_tabledIssuer
  obtain ⟨result, hq, hres⟩ := query_settled ⟨60, 60, 5⟩ 110 "c" hs hset hkey hne
    (by rw [hissuer]; exact verify_tabledList hwf 1) rfl rfl rfl (by decide) (by decide)
  rw [hissuer, hepoch] at hq
  obtain ⟨L, pushes, hwar⟩ := notRevoked_warranted hrun
    (collisionFree_objectsOf (by simp [deliveries]) (by decide)) hq hres
  exact ⟨_, s, result, L, pushes, hrun, hq, hres, hwar⟩

end RatifyProtocol.V2
