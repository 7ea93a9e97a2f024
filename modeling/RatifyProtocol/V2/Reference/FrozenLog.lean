import RatifyProtocol.V2.Reference.LogIntegrity
import RatifyProtocol.V2.Reference.Recovery
set_option autoImplicit false

/-!
# Reference store: the frozen log

After the log is frozen nothing is appended any more, so a terminal claim is
settled only if it was appended before or is marked abandoned.  A claim that is
committed while the log is frozen is neither until a later abandonment.
-/

namespace RatifyProtocol.V2

open Foundation

variable {ω : Type} {P : Primitives} {anchor : StoreAnchor ω}

/-! ## Settled claims -/

/-- The signed receipt at a log position. -/
def wireAt (s : StoreState) (i : Nat) : Option Bytes := (s.outbox[i]?).bind (·.wire)

/-- The claim's receipt is appended to the log. -/
def Appended (s : StoreState) (r : ClaimRecord) : Prop :=
  ∃ i, r.outboxIndex = some i ∧ (wireAt s i).isSome = true

/-- No terminal claim is left pending. -/
def LogComplete (s : StoreState) : Prop :=
  ∀ id r, s.claims.get? id = some r → r.state = .terminal →
    Appended s r ∨ r.abandoned = true

/-! ## Steps -/

/-- A record as far as its receipt's fate is concerned. -/
structure SameFate (a b : ClaimRecord) : Prop where
  state : b.state = a.state
  abandoned : b.abandoned = a.abandoned
  position : b.outboxIndex = a.outboxIndex

/-- Every record is an old one or newly evaluating, and every log position keeps
its receipt. -/
structure FatesKept (s t : StoreState) : Prop where
  claims : ∀ id r', t.claims.get? id = some r' →
    (r'.state = .evaluating ∧ r'.abandoned = false)
      ∨ ∃ r, s.claims.get? id = some r ∧ SameFate r r'
  wires : ∀ i, wireAt t i = wireAt s i
  frozen : t.logFrozen = s.logFrozen

theorem FatesKept.of_eq {s t : StoreState} (hclaims : t.claims = s.claims)
    (houtbox : t.outbox = s.outbox) (hfrozen : t.logFrozen = s.logFrozen) : FatesKept s t := by
  refine
    { claims := fun id r' hr => .inr ⟨r', hclaims ▸ hr, ⟨rfl, rfl, rfl⟩⟩
      wires := ?_
      frozen := hfrozen }
  intro i
  rw [wireAt, houtbox, wireAt]

theorem FatesKept.of_insert {s t : StoreState} {id : String} {r r' : ClaimRecord}
    (hr : s.claims.get? id = some r) (hfate : SameFate r r')
    (hclaims : t.claims = s.claims.insert id r') (houtbox : t.outbox = s.outbox)
    (hfrozen : t.logFrozen = s.logFrozen) : FatesKept s t := by
  refine { claims := ?_, wires := ?_, frozen := hfrozen }
  · intro id' x hx
    rw [hclaims, OrderedMap.get?_insert] at hx
    split at hx
    · rename_i hid
      cases hx
      exact .inr ⟨r, hid ▸ hr, hfate⟩
    · exact .inr ⟨x, hx, ⟨rfl, rfl, rfl⟩⟩
  · intro i
    rw [wireAt, houtbox, wireAt]

theorem AckStep.fatesKept {new : Nat → OutboxEntry → Bool} {s t : StoreState}
    (h : AckStep new s t) (hfrozen : t.logFrozen = s.logFrozen) : FatesKept s t := by
  refine
    { claims := fun id r' hr => .inr ⟨r', h.claims ▸ hr, ⟨rfl, rfl, rfl⟩⟩
      wires := ?_
      frozen := hfrozen }
  intro i
  rw [wireAt, wireAt, h.outbox i]
  cases s.outbox[i]? with
  | none => rfl
  | some e =>
    simp only [Option.map_some, Option.bind_some]
    split <;> rfl

/-- What a call does to the fates of claims. -/
inductive FateEffect (call : StoreCall) (s : StoreState) (r : V2StoreResult StoreReply)
    (t : StoreState) : Prop
  | kept (fates : FatesKept s t) (reply : committedClaim (call, r) = none)
      (silent : ∀ ids, r = .ok (.abandoned ids) → ids = [])
  | appended (unfrozen : s.logFrozen = false) (after : t.logFrozen = false)
      (claims : t.claims = s.claims)
  | committed {claimId : String} {record : ClaimRecord} {terminal body : Bytes} {horizon : Int}
      {admitted : Bool} (reply : committedClaim (call, r) = some claimId)
      (answer : r = .ok (.committed true))
      (new : TerminalCommitted claimId record terminal body horizon admitted s t)
  | abandoned (reply : r = .ok (.abandoned (pendingClaims s))) (state : t = abandonPending s)

/-- Only an abandonment answers with abandoned claims. -/
theorem abandoned_reply {call : StoreCall} {s t : Anchored ω} {ids : List String}
    (h : call.perform P anchor s = (.ok (.abandoned ids), t)) :
    (t.store = s.store ∧ ids = [])
      ∨ (t.store = abandonPending s.store ∧ ids = pendingClaims s.store) := by
  cases call
  case abandonPendingReceipts =>
    obtain ⟨r', hm, heq⟩ := reply_eq h
    obtain ⟨a, rfl, ha⟩ := map_eq_ok heq.symm
    cases ha
    rcases abandonPendingReceipts_cases hm with ⟨hs, hids⟩ | ⟨hs, hids⟩
    · cases hids
      exact .inl ⟨hs, rfl⟩
    · cases hids
      exact .inr ⟨hs, rfl⟩
  all_goals
    obtain ⟨r', -, heq⟩ := reply_eq h
    obtain ⟨a, -, ha⟩ := map_eq_ok heq.symm
    cases ha

theorem loud_reply {a : StoreReply} (ha : ∀ ids, a ≠ .abandoned ids) (ids : List String)
    (h : (.ok a : V2StoreResult StoreReply) = .ok (.abandoned ids)) : ids = [] :=
  absurd (Except.ok.inj h) (ha ids)

theorem performs_fateEffect {s t : Anchored ω} {i : StoreEvent} (hlog : LogIntact P s.store)
    (h : Performs P anchor s i t) : FateEffect i.1 s.store i.2 t.store := by
  obtain ⟨call, r⟩ := i
  have heffect : CallEffect P call s.store r t.store := perform_effect h
  simp only
  generalize hr : r = r' at heffect
  generalize ht : t.store = t' at heffect
  cases heffect with
  | quiet hquiet hreply =>
    by_cases habandon : ∃ ids, r = .ok (.abandoned ids)
    · obtain ⟨ids, hids⟩ := habandon
      rcases abandoned_reply (hids ▸ h) with ⟨-, rfl⟩ | ⟨hs, rfl⟩
      · refine .kept ?_ (committedClaim_of_stale hreply) ?_
        · exact .of_eq hquiet.claims hquiet.outbox (by rcases hquiet with rfl | ⟨-, rfl⟩ <;> rfl)
        · intro ids' hids'
          rw [← hr, hids] at hids'
          cases hids'
          rfl
      · exact .abandoned (hr ▸ hids) (ht ▸ hs)
    · refine .kept ?_ (committedClaim_of_stale hreply) ?_
      · exact .of_eq hquiet.claims hquiet.outbox (by rcases hquiet with rfl | ⟨-, rfl⟩ <;> rfl)
      · intro ids hids
        exact absurd ⟨ids, hr.trans hids⟩ habandon
  | @created claim token advance _ _ hnew =>
    obtain rfl := hnew.state
    refine .kept { claims := ?_, wires := fun _ => rfl, frozen := rfl } rfl (loud_reply fun _ => StoreReply.noConfusion)
    intro id x hx
    have hget : ((insertClaim advance (newClaimRecord claim (P.sha256 token)
        (wrapI64 (s.store.now + s.store.leaseSeconds)) s.store.now) s.store.ticked).claims).get? id
        = some x := hx
    simp only [insertClaim, OrderedMap.get?_insert] at hget
    split at hget
    · cases hget
      exact .inl ⟨rfl, rfl⟩
    · exact .inr ⟨x, hget, ⟨rfl, rfl, rfl⟩⟩
  | progressed hnew =>
    obtain rfl := hnew.state
    refine .kept (.of_insert hnew.found ?_ rfl rfl rfl) rfl (loud_reply fun _ => StoreReply.noConfusion)
    exact ⟨rfl, rfl, rfl⟩
  | finalized hnew => exact .committed rfl rfl hnew.terminal
  | recovered hnew => exact .committed rfl rfl hnew.committed
  | released hnew =>
    obtain rfl := hnew.state
    refine .kept (.of_insert hnew.found ?_ rfl rfl rfl) rfl (loud_reply fun _ => StoreReply.noConfusion)
    exact ⟨rfl, rfl, rfl⟩
  | appended hnew hsubmitted =>
    have happend := congrArg StoreState.logFrozen hnew.state
    have hclaims := congrArg StoreState.claims hnew.state
    rcases hsubmitted with rfl | hack
    · exact .appended hnew.unfrozen (happend.trans hnew.unfrozen) hclaims
    · refine .appended hnew.unfrozen ?_ (hack.claims.trans hclaims)
      rw [hack.state]
      exact happend.trans hnew.unfrozen
  | acknowledged hnew =>
    refine .kept ((hnew.ackStep hlog).fatesKept ?_) rfl (loud_reply fun _ => StoreReply.noConfusion)
    rw [hnew.state]
    rfl
  | forked => exact .kept (.of_eq rfl rfl rfl) rfl (fun ids hids => by cases hids)
  | timeSet => exact .kept (.of_eq rfl rfl rfl) rfl (loud_reply fun _ => StoreReply.noConfusion)
  | signerSet => exact .kept (.of_eq rfl rfl rfl) rfl (loud_reply fun _ => StoreReply.noConfusion)
  | @withheldSet withheld _ _ hsubmitted =>
    have hset : FatesKept s.store { s.store with ackWithheld := withheld } := .of_eq rfl rfl rfl
    rcases hsubmitted with hs | hack
    · exact .kept (hs ▸ hset) rfl (loud_reply fun _ => StoreReply.noConfusion)
    · have hintact : LogIntact P { s.store with ackWithheld := withheld } :=
        hlog.kept rfl rfl (le_refl _) (.of_claims_eq rfl)
      have hstep := hack.ackStep hintact
      refine .kept ?_ rfl (loud_reply fun _ => StoreReply.noConfusion)
      have hkept := hstep.fatesKept (by rw [hack.state]; rfl)
      exact { claims := hkept.claims, wires := hkept.wires, frozen := hkept.frozen }
  | rateEnabled => exact .kept (.of_eq rfl rfl rfl) rfl (loud_reply fun _ => StoreReply.noConfusion)
  | abandoned => exact .abandoned rfl rfl

/-! ## Commits into a frozen log -/

/-- The event is an abandonment that marked the claim. -/
def abandons (id : String) : StoreEvent → Bool
  | (_, .ok (.abandoned ids)) => ids.contains id
  | _ => false

/-- The run committed the claim while the log was frozen, and no later abandonment
marked it. -/
def CommittedFrozen (P : Primitives) (anchor : StoreAnchor ω) (start : Anchored ω)
    (events : List StoreEvent) (id : String) : Prop :=
  ∃ before i after u, events = before ++ i :: after ∧ StoreRun P anchor start before u
    ∧ u.store.logFrozen = true ∧ committedClaim i = some id ∧ ∀ j ∈ after, abandons id j = false

theorem committedFrozen_nil {start : Anchored ω} {id : String} :
    ¬ CommittedFrozen P anchor start [] id := by
  rintro ⟨before, i, after, u, h, -⟩
  simp at h

theorem committedFrozen_snoc {start u : Anchored ω} {events : List StoreEvent} {i : StoreEvent}
    {id : String} (run : StoreRun P anchor start events u) :
    CommittedFrozen P anchor start (events ++ [i]) id ↔
      (CommittedFrozen P anchor start events id ∧ abandons id i = false)
        ∨ (u.store.logFrozen = true ∧ committedClaim i = some id) := by
  constructor
  · rintro ⟨before, j, after, v, hsplit, hrun, hfrozen, hcommit, hnone⟩
    rcases List.eq_nil_or_concat after with rfl | ⟨after, k, rfl⟩
    · obtain ⟨rfl, hj⟩ := List.append_inj' hsplit rfl
      obtain rfl := List.head_eq_of_cons_eq hj
      obtain rfl := Run.unique performs_unique hrun run
      exact .inr ⟨hfrozen, hcommit⟩
    · rw [List.concat_eq_append, ← List.cons_append, ← List.append_assoc] at hsplit
      obtain ⟨rfl, hk⟩ := List.append_inj' hsplit rfl
      obtain rfl := List.head_eq_of_cons_eq hk
      refine .inl ⟨⟨before, j, after, v, rfl, hrun, hfrozen, hcommit, ?_⟩, hnone _ (by simp)⟩
      intro l hl
      exact hnone l (by simp [hl])
  · rintro (⟨⟨before, j, after, v, rfl, hrun, hfrozen, hcommit, hnone⟩, hi⟩ | ⟨hfrozen, hcommit⟩)
    · refine ⟨before, j, after ++ [i], v, by simp, hrun, hfrozen, hcommit, ?_⟩
      intro l hl
      rcases List.mem_append.mp hl with hl | hl
      · exact hnone l hl
      · rw [List.mem_singleton.mp hl]
        exact hi
    · exact ⟨events, i, [], u, rfl, run, hfrozen, hcommit, by simp⟩

/-! ## The run invariant -/

/-- What a run keeps: only terminal claims are abandoned, nothing was committed
into a frozen log before the freeze, and from then on the claims that were are
exactly the ones left pending. -/
structure FatesRecorded (P : Primitives) (anchor : StoreAnchor ω) (start : Anchored ω)
    (events : List StoreEvent) (s : StoreState) : Prop where
  marked : ∀ id r, s.claims.get? id = some r → r.abandoned = true → r.state = .terminal
  open_ : s.logFrozen = false → ∀ id, ¬ CommittedFrozen P anchor start events id
  frozen : s.logFrozen = true → ∀ id r, s.claims.get? id = some r → r.state = .terminal →
    ((Appended s r ∨ r.abandoned = true) ↔ ¬ CommittedFrozen P anchor start events id)

theorem Appended.of_same {s t : StoreState} {r r' : ClaimRecord} (hfate : SameFate r r')
    (hwires : ∀ i, wireAt t i = wireAt s i) :
    (Appended t r' ∨ r'.abandoned = true) ↔ (Appended s r ∨ r.abandoned = true) := by
  simp only [Appended, hfate.position, hfate.abandoned, hwires]

variable {start : Anchored ω} {events : List StoreEvent} {u v : Anchored ω} {i : StoreEvent}

theorem FatesRecorded.afterKept (h : FatesRecorded P anchor start events u.store)
    (run : StoreRun P anchor start events u) (hkept : FatesKept u.store v.store)
    (hreply : committedClaim i = none) (hsilent : ∀ ids, i.2 = .ok (.abandoned ids) → ids = []) :
    FatesRecorded P anchor start (events ++ [i]) v.store := by
  have habandons : ∀ id, abandons id i = false := by
    intro id
    obtain ⟨call, r⟩ := i
    unfold abandons
    split
    · rename_i ids hi
      obtain ⟨-, rfl⟩ := Prod.mk.inj hi
      rw [hsilent ids rfl]
      rfl
    · rfl
  have hsame : ∀ id, CommittedFrozen P anchor start (events ++ [i]) id
      ↔ CommittedFrozen P anchor start events id := by
    intro id
    rw [committedFrozen_snoc run]
    simp [habandons, hreply]
  refine { marked := ?_, open_ := ?_, frozen := ?_ }
  · intro id r' hr' hmarked
    rcases hkept.claims id r' hr' with ⟨-, hfalse⟩ | ⟨r, hr, hfate⟩
    · rw [hfalse] at hmarked
      cases hmarked
    · rw [hfate.state]
      exact h.marked id r hr (hfate.abandoned ▸ hmarked)
  · intro hopen id
    rw [hsame id]
    exact h.open_ (hkept.frozen ▸ hopen) id
  · intro hfrozen id r' hr' hterminal
    rw [hsame id]
    rcases hkept.claims id r' hr' with ⟨hevaluating, -⟩ | ⟨r, hr, hfate⟩
    · rw [hevaluating] at hterminal
      cases hterminal
    · rw [Appended.of_same hfate hkept.wires]
      exact h.frozen (hkept.frozen ▸ hfrozen) id r hr (hfate.state ▸ hterminal)

theorem wireAt_append {s t : StoreState} {e : OutboxEntry} (houtbox : t.outbox = s.outbox ++ [e])
    (hpending : e.wire = none) (j : Nat) : wireAt t j = wireAt s j := by
  rw [wireAt, wireAt, houtbox]
  rcases Nat.lt_trichotomy j s.outbox.length with hlt | heq | hgt
  · rw [List.getElem?_append_left hlt]
  · subst heq
    rw [List.getElem?_concat_length, List.getElem?_eq_none (le_refl _)]
    exact hpending
  · rw [List.getElem?_eq_none (by simp; omega), List.getElem?_eq_none (by omega)]

theorem FatesRecorded.afterCommitted (h : FatesRecorded P anchor start events u.store)
    (run : StoreRun P anchor start events u) {claimId : String} {record : ClaimRecord}
    {terminal body : Bytes} {horizon : Int} {admitted : Bool}
    (hreply : committedClaim i = some claimId) (hanswer : i.2 = .ok (.committed true))
    (hnew : TerminalCommitted claimId record terminal body horizon admitted u.store v.store) :
    FatesRecorded P anchor start (events ++ [i]) v.store := by
  have habandons : ∀ id, abandons id i = false := by
    intro id
    obtain ⟨call, r⟩ := i
    simp only at hanswer
    subst hanswer
    rfl
  have hclaims := congrArg StoreState.claims hnew.state
  have houtbox := congrArg StoreState.outbox hnew.state
  have hfrozen : v.store.logFrozen = u.store.logFrozen := by
    rw [hnew.state]
    rfl
  have hget : ∀ id, v.store.claims.get? id
      = if id = claimId then some (record.commit terminal body horizon u.store.now
          u.store.outbox.length) else u.store.claims.get? id := by
    intro id
    rw [hclaims]
    exact OrderedMap.get?_insert _ _ _ _
  have hwires := wireAt_append houtbox (e := committedEntry claimId body) rfl
  have hunmarked : record.abandoned = false := by
    cases hmarked : record.abandoned with
    | false => rfl
    | true =>
      have hterminal := h.marked claimId record hnew.found hmarked
      rw [hnew.evaluating] at hterminal
      cases hterminal
  refine { marked := ?_, open_ := ?_, frozen := ?_ }
  · intro id r' hr' hmarked
    rw [hget id] at hr'
    split at hr'
    · cases hr'
      rfl
    · exact h.marked id r' hr' hmarked
  · intro hopen id
    rw [committedFrozen_snoc run]
    rintro (⟨hbefore, -⟩ | ⟨hlate, -⟩)
    · exact h.open_ (hfrozen ▸ hopen) id hbefore
    · rw [← hfrozen, hopen] at hlate
      cases hlate
  · intro hfreeze id r' hr' hterminal
    have hfreeze' : u.store.logFrozen = true := hfrozen ▸ hfreeze
    rw [committedFrozen_snoc run]
    rw [hget id] at hr'
    split at hr'
    · -- The new commit is pending and stays so.
      rename_i hid
      subst hid
      cases hr'
      have hnone : wireAt u.store u.store.outbox.length = none := by
        rw [wireAt, List.getElem?_eq_none (le_refl _)]
        rfl
      refine iff_of_false ?_ (not_not.mpr (.inr ⟨hfreeze', hreply⟩))
      rintro (⟨j, hj, hwire⟩ | hmarked)
      · cases hj
        rw [hwires, hnone] at hwire
        cases hwire
      · exact absurd (hunmarked.symm.trans hmarked) Bool.false_ne_true
    · rename_i hid
      have hother : committedClaim i ≠ some id := by
        rw [hreply]
        exact fun heq => hid (Option.some.inj heq).symm
      rw [Appended.of_same (SameFate.mk rfl rfl rfl : SameFate r' r') hwires]
      simp only [habandons, and_true, hother, and_false, or_false]
      exact h.frozen hfreeze' id r' hr' hterminal

/-- A pending claim is what an abandonment marks. -/
theorem LogIntact.pending_of_terminal {s : StoreState} (hlog : LogIntact P s) {id : String}
    {r : ClaimRecord} (hr : s.claims.get? id = some r) (hterminal : r.state = .terminal) :
    Appended s r ∨ id ∈ pendingClaims s := by
  obtain ⟨j, e, hj, he, hid⟩ := hlog.positioned id r hr hterminal
  cases hwire : e.wire with
  | some wire =>
    refine .inl ⟨j, hj, ?_⟩
    rw [wireAt, he, Option.bind_some, hwire]
    rfl
  | none =>
    refine .inr (List.mem_map.mpr ⟨e, List.mem_filter.mpr ⟨List.mem_of_getElem? he, ?_⟩, hid⟩)
    rw [hwire]
    rfl

theorem FatesRecorded.afterAbandoned (h : FatesRecorded P anchor start events u.store)
    (run : StoreRun P anchor start events u) (hlog : LogIntact P u.store)
    (hreply : i.2 = .ok (.abandoned (pendingClaims u.store)))
    (hstate : v.store = abandonPending u.store) :
    FatesRecorded P anchor start (events ++ [i]) v.store := by
  have hcommit : committedClaim i = none := by
    obtain ⟨call, r⟩ := i
    simp only at hreply
    subst hreply
    rfl
  have habandons : ∀ id, id ∈ pendingClaims u.store → abandons id i = true := by
    intro id hid
    obtain ⟨call, r⟩ := i
    simp only at hreply
    subst hreply
    exact List.contains_iff_mem.mpr hid
  have hget : ∀ id, v.store.claims.get? id
      = (u.store.claims.get? id).map (markAbandoned (pendingClaims u.store) id) := by
    intro id
    rw [hstate]
    exact get?_abandonPending u.store id
  have hfrozen : v.store.logFrozen = true := by
    rw [hstate]
    rfl
  refine { marked := ?_, open_ := ?_, frozen := ?_ }
  · intro id r' hr' hmarked
    rw [hget id] at hr'
    obtain ⟨r, hr, rfl⟩ := Option.map_eq_some_iff.mp hr'
    unfold markAbandoned at hmarked ⊢
    split
    · rename_i hpending
      obtain ⟨e, he, rfl⟩ := List.mem_map.mp hpending
      obtain ⟨j, hj⟩ := List.getElem?_of_mem (List.mem_of_mem_filter he)
      obtain ⟨r₀, hr₀⟩ := hlog.committed j e hj
      cases hr.symm.trans hr₀.found
      exact hr₀.terminal
    · rename_i hpending
      rw [if_neg hpending] at hmarked
      exact h.marked id r hr hmarked
  · intro hopen
    rw [hfrozen] at hopen
    cases hopen
  · intro _ id r' hr' hterminal
    rw [hget id] at hr'
    obtain ⟨r, hr, rfl⟩ := Option.map_eq_some_iff.mp hr'
    have hterminal₀ : r.state = .terminal := by
      unfold markAbandoned at hterminal
      split at hterminal <;> exact hterminal
    have hfate := hlog.pending_of_terminal hr hterminal₀
    refine iff_of_true ?_ ?_
    · rcases hfate with ⟨j, hj, hwire⟩ | hpending
      · refine .inl ⟨j, ?_, ?_⟩
        · unfold markAbandoned
          split <;> exact hj
        · rw [hstate]
          exact hwire
      · refine .inr ?_
        rw [markAbandoned, if_pos hpending]
    · rw [committedFrozen_snoc run, hcommit]
      rintro (⟨hbefore, hunnamed⟩ | ⟨-, hnone⟩)
      · cases hfreeze : u.store.logFrozen with
        | false => exact h.open_ hfreeze id hbefore
        | true =>
          -- A claim that was left pending is named by this abandonment.
          have hunsettled := mt (h.frozen hfreeze id r hr hterminal₀).mp (not_not.mpr hbefore)
          rcases hfate with happended | hpending
          · exact hunsettled (.inl happended)
          · rw [habandons id hpending] at hunnamed
            cases hunnamed
      · cases hnone

theorem FatesRecorded.step (h : FatesRecorded P anchor start events u.store)
    (run : StoreRun P anchor start events u) (hlog : LogIntact P u.store)
    (hlast : Performs P anchor u i v) : FatesRecorded P anchor start (events ++ [i]) v.store := by
  cases performs_fateEffect hlog hlast with
  | kept fates reply silent => exact h.afterKept run fates reply silent
  | committed reply answer new => exact h.afterCommitted run reply answer new
  | abandoned reply state => exact h.afterAbandoned run hlog reply state
  | appended unfrozen after claims =>
    refine
      { marked := fun id r hr => h.marked id r (claims ▸ hr)
        open_ := ?_
        frozen := fun hfrozen => absurd (after.symm.trans hfrozen) Bool.false_ne_true }
    intro _ id
    rw [committedFrozen_snoc run]
    rintro (⟨hbefore, -⟩ | ⟨hlate, -⟩)
    · exact h.open_ unfrozen id hbefore
    · exact absurd (unfrozen.symm.trans hlate) Bool.false_ne_true

theorem StoreRun.fatesRecorded {s : Anchored ω} (h : LogIntact P start.store)
    (htimes : TimesKept start.store) (hclaims : start.store.claims = .empty)
    (hopen : start.store.logFrozen = false) (run : StoreRun P anchor start events s) :
    FatesRecorded P anchor start events s.store := by
  refine run.history (fun events s => FatesRecorded P anchor start events s.store) ?_ ?_
  · refine
      { marked := ?_
        open_ := fun _ _ => committedFrozen_nil
        frozen := fun hfrozen => absurd (hopen.symm.trans hfrozen) Bool.false_ne_true }
    intro id r hr
    rw [hclaims] at hr
    cases hr
  · intro events u i v hrun hfates hlast
    exact hfates.step hrun (StoreRun.logIntact h htimes hrun).1 hlast

/-! ## The frozen log -/

/-- In a frozen log every terminal claim is appended or abandoned exactly when each
claim that was committed while the log was frozen was marked by a later
`abandon_pending_receipts` call that succeeded. -/
theorem frozenLog_complete_iff {now leaseSeconds : Int} {logId : String}
    {verifierKey : HybridPublicKey} {start : StoreState} {device : ω} {events : List StoreEvent}
    {s : Anchored ω} (hnew : StoreState.new P now leaseSeconds logId verifierKey = .ok start)
    (run : StoreRun P anchor { store := start, device } events s)
    (hfrozen : s.store.logFrozen = true) :
    LogComplete s.store ↔ ∀ before i after u id, events = before ++ i :: after →
      StoreRun P anchor { store := start, device } before u → u.store.logFrozen = true →
      committedClaim i = some id → ∃ j ∈ after, abandons id j = true := by
  obtain ⟨verifierId, -, -, -, hstart⟩ := StoreState.new_eq_ok hnew
  have hclaims : start.claims = .empty := by rw [hstart]
  have hstreams : start.streams = .empty := by rw [hstart]
  have houtbox : start.outbox = [] := by rw [hstart]
  have hopen : start.logFrozen = false := by rw [hstart]
  have htimes : TimesKept start := by
    intro id r hr
    rw [hclaims] at hr
    cases hr
  have hfates := StoreRun.fatesRecorded (.initial hclaims houtbox) htimes hclaims hopen run
  constructor
  · rintro hcomplete before i after u id rfl hu hlate hcommit
    have hcommitted : id ∈ committedClaims (before ++ i :: after) :=
      List.mem_filterMap.mpr ⟨i, by simp, hcommit⟩
    obtain ⟨r, hr, hterminal⟩ :=
      ((StoreRun.claimHistory hclaims hstreams run).terminal id).mp hcommitted
    by_contra hnone
    have hmarked : ∀ j ∈ after, abandons id j = false := by
      intro j hj
      cases hj' : abandons id j with
      | false => rfl
      | true => exact absurd ⟨j, hj, hj'⟩ hnone
    exact (hfates.frozen hfrozen id r hr hterminal).mp (hcomplete id r hr hterminal)
      ⟨before, i, after, u, rfl, hu, hlate, hcommit, hmarked⟩
  · intro hmarked id r hr hterminal
    refine (hfates.frozen hfrozen id r hr hterminal).mpr ?_
    rintro ⟨before, i, after, u, hsplit, hu, hlate, hcommit, hnone⟩
    obtain ⟨j, hj, hj'⟩ := hmarked before i after u id hsplit hu hlate hcommit
    exact absurd ((hnone j hj).symm.trans hj') Bool.false_ne_true

/-- A log frozen with an appended and an abandoned claim. -/
theorem frozenLog_complete_hourly :
    ∃ (events : List StoreEvent) (s : Anchored Unit) (id id' : String) (r r' : ClaimRecord),
      StoreRun (counting []) none { store := firstStore, device := () } events s
        ∧ s.store.logFrozen = true ∧ committedClaims events = [id, id']
        ∧ s.store.claims.get? id = some r ∧ Appended s.store r
        ∧ s.store.claims.get? id' = some r' ∧ r'.abandoned = true ∧ LogComplete s.store := by
  obtain ⟨terminal, body, terminal', body', wire, digest, -, hrun⟩ := run_hourly
  have hrate : Performs (counting []) (none : StoreAnchor Unit)
      { store := firstStore, device := () } (.withRateAtFinalization, .ok .configured)
      { store := { firstStore with rateAtFinalization := true }, device := () } := rfl
  have hopen := (Run.single hrate).append hrun
  have hlast : Performs (counting []) (none : StoreAnchor Unit)
      { store := acknowledgedHourly terminal body terminal' body' wire digest, device := () }
      (.abandonPendingReceipts, .ok (.abandoned [(hourlyClaim 2).claimId]))
      { store := abandonPending (acknowledgedHourly terminal body terminal' body' wire digest)
        device := () } := rfl
  have hfirst := get?_abandonPending (acknowledgedHourly terminal body terminal' body' wire digest)
    (hourlyClaim 1).claimId
  have hsecond := get?_abandonPending (acknowledgedHourly terminal body terminal' body' wire digest)
    (hourlyClaim 2).claimId
  have hfound : (acknowledgedHourly terminal body terminal' body' wire digest).claims.get?
      (hourlyClaim 1).claimId = some (allowedRecord terminal body) :=
    found_interruptedHourly terminal body terminal' body'
  have hfound' : (acknowledgedHourly terminal body terminal' body' wire digest).claims.get?
      (hourlyClaim 2).claimId = some ((hourlyRecord 2).commit terminal' body' 0 160 1) :=
    OrderedMap.get?_insert_self _ _ _
  rw [hfound] at hfirst
  rw [hfound'] at hsecond
  refine ⟨_, _, _, _, _, _, hopen.snoc hlast, rfl, rfl, hfirst, ⟨0, ?_, rfl⟩, hsecond, ?_, ?_⟩
  · unfold markAbandoned
    split <;> rfl
  · have hpending : (hourlyClaim 2).claimId
        ∈ pendingClaims (acknowledgedHourly terminal body terminal' body' wire digest) :=
      List.mem_singleton_self _
    rw [markAbandoned, if_pos hpending]
  · refine (frozenLog_complete_iff (accepting_counting []).new_firstStore (hopen.snoc hlast)
      rfl).mpr ?_
    intro before i after u id hsplit hu hlate hcommit
    by_contra hnone
    have hmarked : ∀ j ∈ after, abandons id j = false := by
      intro j hj
      exact Bool.eq_false_iff.mpr fun hj' => hnone ⟨j, hj, hj'⟩
    -- Nothing was committed into the frozen log: it was open up to its abandonment.
    have hclaims : ∀ id r, firstStore.claims.get? id = some r → False := by
      intro id r hr
      cases hr
    have hfates := StoreRun.fatesRecorded (.initial rfl rfl)
      (fun id r hr => (hclaims id r hr).elim) rfl rfl hopen
    rcases (committedFrozen_snoc hopen).mp ⟨before, i, after, u, hsplit, hu, hlate, hcommit, hmarked⟩
      with ⟨hbefore, -⟩ | ⟨hlate, -⟩
    · exact hfates.open_ rfl id hbefore
    · cases hlate

/-! ## A claim left pending -/

/-- The first claim, recovered after its log was frozen, is neither appended nor
abandoned. -/
theorem recovered_frozen_pending :
    ∃ terminal body s, StoreRun (tabled []) (none : StoreAnchor Unit)
        { store := firstStore, device := () }
        [(.claim firstClaim (.ok firstToken), .ok (.claimed
            { disposition := .created, claimedAt := 100, ownerToken := firstToken })),
          (.abandonPendingReceipts, .ok (.abandoned [])), (.setTime 160, .ok .configured),
          (.recover firstClaim.claimId terminal body, .ok (.committed true))] s
      ∧ s.store.logFrozen = true ∧ ¬ LogComplete s.store := by
  obtain ⟨terminal, body, hresult, hpayload⟩ := firstClaim_plain.passes
  have hfreeze : Performs (tabled []) (none : StoreAnchor Unit)
      { store := claimedStore 100 initialV2EvaluationProgress, device := () }
      (.abandonPendingReceipts, .ok (.abandoned []))
      { store := { claimedStore 100 initialV2EvaluationProgress with logFrozen := true },
        device := () } := rfl
  have hset : Performs (tabled []) (none : StoreAnchor Unit)
      { store := { claimedStore 100 initialV2EvaluationProgress with logFrozen := true },
        device := () } (.setTime 160, .ok .configured)
      { store := { claimedStore 160 initialV2EvaluationProgress with logFrozen := true },
        device := () } := rfl
  have hready := (leasePassed_claimedStore initialV2EvaluationProgress).ready
  have hrecover := @performs_recover (tabled []) (firstRecord initialV2EvaluationProgress)
    { claimedStore 160 initialV2EvaluationProgress with logFrozen := true } terminal body
    { ready := ⟨hready.notRegressed, hready.nonneg, hready.bounded⟩
      found := found_claimedStore 160 _, evaluating := rfl, leaseExpired := le_refl _ }
    hresult hpayload
  refine ⟨terminal, body, _,
    (((Run.single performs_firstClaim).snoc hfreeze).snoc hset).snoc hrecover, rfl, ?_⟩
  intro hcomplete
  rcases hcomplete firstClaim.claimId _ (OrderedMap.get?_insert_self _ _ _) rfl with
    ⟨j, hj, hwire⟩ | hmarked
  · cases hj
    cases hwire
  · cases hmarked

end RatifyProtocol.V2
