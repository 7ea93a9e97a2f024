import RatifyProtocol.V2.Authorization.VerifyLaw
import RatifyProtocol.V2.Reference.ClaimSafety
import RatifyProtocol.V2.Release
set_option autoImplicit false

/-!
# Authorization: verifications on the reference store

Any number of verifications, and anyone else, call one reference store; their calls come in
any order.  What a verification returns agrees with what the store holds, and one challenge
is evaluated once.
-/

namespace RatifyProtocol.V2

open Foundation

/-! ## Calls of a verification -/

def StoreReply.claimed? : StoreReply → Option V2ClaimResult
  | claimed result => some result
  | _ => none

def StoreReply.progressRecorded? : StoreReply → Option Unit
  | progressRecorded => some ()
  | _ => none

def StoreReply.committed? : StoreReply → Option Bool
  | committed fresh => some fresh
  | _ => none

/-- The questions that the claim store answers. -/
def VerifyCall.OfStore : VerifyCall → Prop
  | .claim _ => True
  | .progress .. => True
  | .finalize _ => True
  | _ => False

/-- A question of a verification, and the call of the store that has answered it.  The random
source of the store fills 32 bytes. -/
inductive Stored : Sigma VerifyCall.Reply → StoreEvent → Prop
  | claim (claim : V2ChallengeClaim) (owner : Except String Bytes)
      (random : ∀ token, owner = .ok token → token.length = 32) (r : V2StoreResult StoreReply) :
      Stored ⟨.claim claim, some (replyOf StoreReply.claimed? r)⟩ (.claim claim owner, r)
  | progress (claimId : String) (ownerToken : Bytes) (p : V2EvaluationProgress)
      (r : V2StoreResult StoreReply) :
      Stored ⟨.progress claimId ownerToken p, some (replyOf StoreReply.progressRecorded? r)⟩
        (.recordProgress claimId ownerToken p, r)
  | finalize (submission : Submission) (r : V2StoreResult StoreReply) :
      Stored ⟨.finalize submission, some (replyOf StoreReply.committed? r)⟩
        (.finalize submission.claimId submission.ownerToken submission.payload.terminalResult.1
          submission.payload.receiptBody.1 submission.allowValidUntil, r)

/-! ## Shared runs -/

/-- What happens on a shared store: someone else calls it, a verification asks something of
another, or a verification calls it. -/
inductive VerifyEvent (κ : Type) where
  | other (event : StoreEvent)
  | aside (n : κ) (q : Sigma VerifyCall.Reply)
  | stored (n : κ) (q : Sigma VerifyCall.Reply) (event : StoreEvent)

variable {κ : Type} {ω : Type} (P : Primitives) (anchor : StoreAnchor ω)

namespace VerifyEvent

/-- The verification that asks. -/
def client : VerifyEvent κ → Option κ
  | other _ => none
  | aside n _ => some n
  | stored n _ _ => some n

/-- The call of the store. -/
def performed : VerifyEvent κ → Option StoreEvent
  | other event => some event
  | aside .. => none
  | stored _ _ event => some event

/-- The question of the verification `n`. -/
def asked [DecidableEq κ] (n : κ) : VerifyEvent κ → Option (Sigma VerifyCall.Reply)
  | other _ => none
  | aside m q => if m = n then some q else none
  | stored m q _ => if m = n then some q else none

end VerifyEvent

inductive SharedStep (s : Anchored ω) : VerifyEvent κ → Anchored ω → Prop
  | other {event : StoreEvent} {t : Anchored ω} (h : Performs P anchor s event t) :
      SharedStep s (.other event) t
  | aside {n : κ} {q : Sigma VerifyCall.Reply} (h : ¬ q.1.OfStore) : SharedStep s (.aside n q) s
  | stored {n : κ} {q : Sigma VerifyCall.Reply} {event : StoreEvent} {t : Anchored ω}
      (answered : Stored q event) (h : Performs P anchor s event t) :
      SharedStep s (.stored n q event) t

abbrev SharedRun : Anchored ω → List (VerifyEvent κ) → Anchored ω → Prop :=
  Run (SharedStep P anchor)

/-- The calls of the store, in order. -/
def storeEvents (events : List (VerifyEvent κ)) : List StoreEvent :=
  events.filterMap VerifyEvent.performed

/-- What the verification `n` has asked. -/
def askedBy [DecidableEq κ] (n : κ) (events : List (VerifyEvent κ)) : VerifyLog :=
  events.filterMap (VerifyEvent.asked n)

variable {P anchor} {s t u v : Anchored ω} {events : List (VerifyEvent κ)} {e : VerifyEvent κ} {n : κ}
  {q : Sigma VerifyCall.Reply}

/-- A shared run is a run of the store. -/
theorem SharedRun.storeRun (h : SharedRun P anchor s events t) :
    StoreRun P anchor s (storeEvents events) t := by
  induction h with
  | nil => exact .nil
  | snoc _ hlast ih =>
    rw [storeEvents, List.filterMap_append]
    cases hlast with
    | other hperforms => exact ih.snoc hperforms
    | aside _ =>
      rw [show List.filterMap VerifyEvent.performed [VerifyEvent.aside _ _] = [] from rfl,
        List.append_nil]
      exact ih
    | stored _ hperforms => exact ih.snoc hperforms

/-- Every event of a run is a step of it. -/
theorem SharedRun.exists_step (h : SharedRun P anchor s events t) (he : e ∈ events) :
    ∃ u v, SharedStep P anchor u e v := by
  obtain ⟨before, after, rfl⟩ := List.append_of_mem he
  rw [List.append_cons] at h
  obtain ⟨v, hbefore, -⟩ := Run.append_iff.mp h
  obtain ⟨u, -, hstep⟩ := Run.snoc_iff.mp hbefore
  exact ⟨u, v, hstep⟩

variable [DecidableEq κ]

/-- A question of the store was answered by a call of it. -/
theorem SharedRun.exists_stored (h : SharedRun P anchor s events t) (hq : q ∈ askedBy n events)
    (hstore : q.1.OfStore) : ∃ event, .stored n q event ∈ events ∧ Stored q event := by
  obtain ⟨e, he, hasked⟩ := List.mem_filterMap.mp hq
  obtain ⟨u, v, hstep⟩ := h.exists_step he
  cases hstep with
  | other _ => cases hasked
  | @aside m q' hother =>
    rw [VerifyEvent.asked] at hasked
    split at hasked
    · obtain rfl := Option.some.inj hasked
      exact absurd hstore hother
    · cases hasked
  | @stored m q' event _ hanswered _ =>
    rw [VerifyEvent.asked] at hasked
    split at hasked
    · rename_i hm
      obtain rfl := Option.some.inj hasked
      exact ⟨event, hm ▸ he, hanswered⟩
    · cases hasked

/-! ## Creations -/

theorem replyOf_eq_ok {α : Type} {f : StoreReply → Option α} {r : V2StoreResult StoreReply} {a : α}
    (h : replyOf f r = .ok a) : ∃ reply, r = .ok reply ∧ f reply = some a := by
  cases r with
  | error e => cases h
  | ok reply =>
    cases hreply : f reply with
    | none =>
      simp only [replyOf, ok_bind, hreply] at h
      cases h
    | some b =>
      simp only [replyOf, ok_bind, hreply] at h
      exact ⟨reply, rfl, by rw [hreply, Except.ok.inj h]⟩

variable {archive : ZoneArchive} {req : V2VerifyRequest} {cb : V2VerifyCallbacks}
  {x : Session P req cb}

/-- The store has created the claim of an open session. -/
theorem SharedRun.created (h : SharedRun P anchor s events t) (hopened : x.Opened (askedBy n events)) :
    ∃ q event, .stored n q event ∈ events ∧ createdClaim event = some (x.claim, x.ownerToken) := by
  obtain ⟨event, hmem, hstored⟩ := h.exists_stored hopened trivial
  refine ⟨_, event, hmem, ?_⟩
  generalize hq : (⟨.claim x.claim, some (.ok ⟨.created, x.claimedAt, x.ownerToken⟩)⟩ :
    Sigma VerifyCall.Reply) = q at hstored
  cases hstored with
  | claim claim owner _ r =>
    cases hr : replyOf StoreReply.claimed? r with
    | error e =>
      rw [hr] at hq
      cases hq
    | ok result =>
      rw [hr] at hq
      cases hq
      obtain ⟨reply, rfl, hreply⟩ := replyOf_eq_ok hr
      cases reply with
      | claimed result =>
        obtain rfl := Option.some.inj hreply
        rfl
      | _ => cases hreply
  | progress _ _ _ r => cases hq
  | finalize _ r => cases hq

/-- Equal keys come from one place of a list. -/
theorem eq_of_nodup_filterMap {α β γ : Type} {f : α → Option β} {g : β → γ} {xs : List α}
    (h : ((xs.filterMap f).map g).Nodup) {a b : α} (ha : a ∈ xs) (hb : b ∈ xs) {y z : β}
    (hy : f a = some y) (hz : f b = some z) (hyz : g y = g z) : a = b := by
  induction xs with
  | nil => cases ha
  | cons first xs ih =>
    have hnext : ((xs.filterMap f).map g).Nodup := by
      cases hfirst : f first with
      | none => rwa [List.filterMap_cons_none hfirst] at h
      | some w =>
        rw [List.filterMap_cons_some hfirst, List.map_cons, List.nodup_cons] at h
        exact h.2
    have hnew {c d : α} {w w' : β} (hw : f c = some w) (hw' : f d = some w') (hww : g w = g w')
        (hd : d ∈ xs) (hc : c = first) : False := by
      rw [List.filterMap_cons_some (hc ▸ hw), List.map_cons, List.nodup_cons] at h
      exact h.1 (hww ▸ List.mem_map_of_mem (List.mem_filterMap.mpr ⟨d, hd, hw'⟩))
    obtain rfl | ha' := List.mem_cons.mp ha
    · obtain rfl | hb' := List.mem_cons.mp hb
      · rfl
      · exact (hnew hy hz hyz hb' rfl).elim
    · obtain rfl | hb' := List.mem_cons.mp hb
      · exact (hnew hz hy hyz.symm ha' rfl).elim
      · exact ih hnext ha' hb'

/-- An outcome whose claim was created has an open session. -/
theorem Ended.session {log : VerifyLog} {outcome : V2VerifyOutcome} (h : Ended P req cb log outcome)
    (hcreated : outcome.disposition = some .created) :
    ∃ x : Session P req cb, x.Opened log ∧ outcome.claim = some x.claim := by
  cases h with
  | preflight => cases hcreated
  | replay _ _ _ hexisting => exact absurd (Option.some.inj hcreated) hexisting
  | evaluating x hopened => exact ⟨x, hopened, rfl⟩
  | committed x hlast _ hopened =>
    rw [hlast]
    exact ⟨x, List.mem_append_left _ hopened, rfl⟩

/-- An outcome with a claim of this call is one of a created claim. -/
theorem Ended.created {log : VerifyLog} {outcome : V2VerifyOutcome} (h : Ended P req cb log outcome)
    {x : Session P req cb} (hopened : x.Opened log) : outcome.disposition = some .created := by
  cases h with
  | preflight _ hclosed => exact (hclosed x hopened).elim
  | replay _ hclosed => exact (hclosed x hopened).elim
  | evaluating => rfl
  | committed => rfl

/-! ## Commits -/

/-- Nothing is committed where nothing was asked to be. -/
theorem VerifyLog.Quiet.not_commits {log : VerifyLog} (h : log.Quiet) : ¬ log.Commits := by
  rintro ⟨submission, fresh, hmem⟩
  obtain hdone | ⟨claim, hclaim⟩ := h _ hmem
  · cases hdone
  · cases hclaim

theorem Ended.not_commits {log : VerifyLog} {outcome : V2VerifyOutcome}
    (h : Ended P req cb log outcome) (hnone : outcome.committed = none) : ¬ log.Commits := by
  cases h with
  | preflight hquiet => exact hquiet.not_commits
  | replay hquiet => exact hquiet.not_commits
  | evaluating x hopened huncommitted => exact huncommitted
  | committed => cases hnone

/-- A claim becomes terminal only by a commit of it. -/
theorem ClaimEffect.newly_terminal {call : StoreCall} {s t : StoreState} {r : V2StoreResult StoreReply}
    {id : String} (h : ClaimEffect P call s r t) (hafter : IsTerminal t id) (hbefore : ¬ IsTerminal s id) :
    r = .ok (.committed true) ∧ call.commits = some id := by
  obtain ⟨rec, hrec, hterminal⟩ := hafter
  cases h with
  | kept hclaims _ _ =>
    obtain ⟨rec₀, hrec₀, hsame⟩ := hclaims.before hrec
    exact absurd ⟨rec₀, hrec₀, hsame.state.symm.trans hterminal⟩ hbefore
  | created _ _ hnew =>
    obtain rfl := hnew.state
    simp only [insertClaim, OrderedMap.get?_insert] at hrec
    split at hrec
    · cases hrec
      cases hterminal
    · exact absurd ⟨rec, hrec, hterminal⟩ hbefore
  | committed hauthority hreply hnew =>
    obtain rfl := hnew.state
    simp only [committedState, OrderedMap.get?_insert] at hrec
    split at hrec
    · rename_i hid
      exact ⟨hreply, hid ▸ hauthority.commits⟩
    · exact absurd ⟨rec, hrec, hterminal⟩ hbefore

/-- A commit that a verification has asked for and been answered. -/
theorem Stored.of_commit {event : StoreEvent} {id : String} (h : Stored q event)
    (hcommitted : committedClaim event = some id) :
    ∃ submission, q = ⟨.finalize submission, some (.ok true)⟩ := by
  have hreply : ∀ {call : StoreCall} {r : V2StoreResult StoreReply}, committedClaim (call, r) = some id →
      r = .ok (.committed true) ∧ call.commits = some id := by
    intro call r hr
    rw [committedClaim.eq_def] at hr
    split at hr
    · rename_i heq
      obtain ⟨rfl, rfl⟩ := Prod.mk.inj heq
      exact ⟨rfl, hr⟩
    · cases hr
  cases h with
  | claim claim owner _ r => cases (hreply hcommitted).2
  | progress _ _ _ r => cases (hreply hcommitted).2
  | finalize submission r =>
    obtain ⟨rfl, -⟩ := hreply hcommitted
    exact ⟨submission, rfl⟩

/-- A repeated finalization finds the result that it has. -/
theorem finalizeV2Claim_repeat {claimId : String} {token terminal body : Bytes} {horizon : Int}
    (h : finalizeV2Claim P anchor claimId token terminal body horizon s = (.ok false, t)) :
    t.store = s.store ∧ ∃ record, s.store.claims.get? claimId = some record
      ∧ record.state = .terminal ∧ record.receiptBody = body := by
  obtain ⟨-, -, hterminal⟩ | ⟨_, _, -, hr⟩ := finalizeV2Claim_cases h
  · obtain ⟨record, hfound, hstate⟩ := hterminal rfl
    simp only [finalizeV2Claim] at h
    obtain ⟨e, u, -, h⟩ | ⟨e, record', hfound', -, h⟩ | ⟨record', hlive, -⟩ := ownerLocked_bind_cases h
    · cases h
    · obtain rfl := Option.some.inj (hfound.symm.trans hfound')
      simp only [getStore_bind] at h
      split at h
      · rename_i hsame
        cases h
        simp only [hfound, Option.any_some, Bool.and_eq_true, beq_iff_eq] at hsame
        exact ⟨rfl, record, hfound, hstate, hsame.2⟩
      · cases h
    · obtain rfl := Option.some.inj (hfound.symm.trans hlive.found)
      cases hstate.symm.trans hlive.evaluating
  · cases hr

/-- What a finalization leaves that the store has answered. -/
theorem performs_finalize {submission : Submission} {fresh : Bool}
    (h : Performs P anchor s (.finalize submission.claimId submission.ownerToken
      submission.payload.terminalResult.1 submission.payload.receiptBody.1
      submission.allowValidUntil, .ok (.committed fresh)) t) :
    ∃ r, t.store.claims.get? submission.claimId = some r ∧ r.state = .terminal
      ∧ r.receiptBody = submission.payload.receiptBody.1
      ∧ (r.allowHorizon = submission.allowValidUntil ∨ IsTerminal s.store submission.claimId) := by
  obtain ⟨r', hm, hr⟩ := reply_eq h
  obtain ⟨fresh', rfl, hfresh⟩ := map_eq_ok hr.symm
  obtain rfl := StoreReply.committed.inj hfresh
  cases fresh' with
  | false =>
    obtain ⟨hsame, record, hfound, hstate, hbody⟩ := finalizeV2Claim_repeat hm
    exact ⟨record, hsame ▸ hfound, hstate, hbody, .inr ⟨record, hfound, hstate⟩⟩
  | true =>
    obtain ⟨-, hne, -⟩ | ⟨record, receipt, hnew, -⟩ := finalizeV2Claim_cases hm
    · exact absurd rfl hne
    · rw [hnew.state]
      exact ⟨_, OrderedMap.get?_insert_self .., rfl, rfl, .inl rfl⟩

/-! ## Agreement -/

/-- Someone else has committed the claim before the verification `n` finalizes it. -/
def CommittedBefore (events : List (VerifyEvent κ)) (n : κ) (claimId : String) : Prop :=
  ∃ before submission answer event after,
    events = before ++ .stored n ⟨.finalize submission, answer⟩ event :: after
      ∧ submission.claimId = claimId
      ∧ ∃ e ∈ before, e.client ≠ some n ∧ e.performed.bind committedClaim = some claimId

/-- The store agrees with the outcome of the verification `n`. -/
structure StoreAgrees (P : Primitives) (anchor : StoreAnchor ω) (start : Anchored ω)
    (events : List (VerifyEvent κ)) (s : Anchored ω) (n : κ) (outcome : V2VerifyOutcome) : Prop where
  untouched : outcome.stage = .preflight ∨ outcome.stage = .replay → ∀ before e after u v,
    events = before ++ e :: after → e.client = some n → SharedRun P anchor start before u →
      SharedStep P anchor u e v → DurablesKept u.store v.store
  uncommitted : outcome.committed = none → ∀ before e after u v,
    events = before ++ e :: after → e.client = some n → SharedRun P anchor start before u →
      SharedStep P anchor u e v → ∀ id, IsTerminal v.store id → IsTerminal u.store id
  committed : ∀ c, outcome.committed = some c → ∃ r, s.store.claims.get? c.claimId = some r
    ∧ r.state = .terminal ∧ r.receiptBody = c.receiptBody ∧ r.claim.verifierId = c.verifierId
    ∧ r.claim.expiresAt = c.challengeExpiresAt
    ∧ (r.allowHorizon = c.allowHorizon ∨ CommittedBefore events n c.claimId)

section Agreement

variable {start : Anchored ω} {log : VerifyLog} {outcome : V2VerifyOutcome}

omit [DecidableEq κ] in
/-- A step of a verification is a question to another, or a call of the store. -/
theorem SharedStep.of_client (h : SharedStep P anchor u e v) (hn : e.client = some n) :
    v = u ∨ ∃ q event, e = .stored n q event ∧ Stored q event ∧ Performs P anchor u event v := by
  cases h with
  | other _ => cases hn
  | aside _ => exact .inl rfl
  | stored hanswered hperforms =>
    obtain rfl := Option.some.inj hn
    exact .inr ⟨_, _, rfl, hanswered, hperforms⟩

theorem mem_askedBy {event : StoreEvent} (h : .stored n q event ∈ events) : q ∈ askedBy n events :=
  List.mem_filterMap.mpr ⟨_, h, if_pos rfl⟩

/-- A claim that the store creates opens a session. -/
theorem opened_of_created {claim : V2ChallengeClaim} {token : Bytes}
    (hasks : ∀ before q after, log = before ++ q :: after → Due P req cb before q.1)
    (htoken : token.length = 32) (claimedAt : Int)
    (hmem : (⟨.claim claim, some (.ok ⟨.created, claimedAt, token⟩)⟩ : Sigma VerifyCall.Reply) ∈ log) :
    ∃ x : Session P req cb, x.Opened log := by
  obtain ⟨before, after, hlog⟩ := List.append_of_mem hmem
  have hdue := hasks before _ after hlog
  cases hdue with
  | claim hpreflight hsealing _ =>
    exact ⟨⟨_, _, _, claim, claimedAt, token, hpreflight, hsealing, htoken⟩, hmem⟩

/-- A verification that opens no session and asks only for its claim changes nothing. -/
theorem durablesKept_of_quiet
    (hasks : ∀ before q after, askedBy n events = before ++ q :: after → Due P req cb before q.1)
    (hquiet : (askedBy n events).Quiet)
    (hclosed : ∀ x : Session P req cb, ¬ x.Opened (askedBy n events)) (he : e ∈ events)
    (hn : e.client = some n) (hstep : SharedStep P anchor u e v) : DurablesKept u.store v.store := by
  obtain rfl | ⟨q, event, rfl, hstored, hperforms⟩ := hstep.of_client hn
  · exact (Quiet.refl v.store).durablesKept
  have hmem := mem_askedBy he
  have hcalls := hquiet q hmem
  cases hstored with
  | claim claim owner hrandom r =>
    have heffect := perform_effect hperforms
    cases heffect with
    | quiet hkept _ => exact hkept.durablesKept
    | @created _ token _ _ _ hnew =>
      obtain ⟨x, hx⟩ := opened_of_created hasks (hrandom token rfl) u.store.now hmem
      exact (hclosed x hx).elim
  | progress _ _ _ r =>
    obtain hdone | ⟨claim, hclaim⟩ := hcalls
    · cases hdone
    · cases hclaim
  | finalize _ r =>
    obtain hdone | ⟨claim, hclaim⟩ := hcalls
    · cases hdone
    · cases hclaim

/-- A verification that has committed nothing has made nothing terminal. -/
theorem isTerminal_of_uncommitted (huncommitted : ¬ (askedBy n events).Commits) (he : e ∈ events)
    (hn : e.client = some n) (hstep : SharedStep P anchor u e v) {id : String}
    (hafter : IsTerminal v.store id) : IsTerminal u.store id := by
  obtain rfl | ⟨q, event, rfl, hstored, hperforms⟩ := hstep.of_client hn
  · exact hafter
  by_contra hbefore
  obtain ⟨hreply, hcommits⟩ := (perform_effect hperforms).claimEffect.newly_terminal hafter hbefore
  have hcommitted : committedClaim event = some id := by
    obtain ⟨call, r⟩ := event
    dsimp only at hreply hcommits
    rw [hreply]
    exact hcommits
  obtain ⟨submission, rfl⟩ := hstored.of_commit hcommitted
  exact huncommitted ⟨submission, true, mem_askedBy he⟩

/-- The last question of a verification, where it was the store's. -/
theorem SharedRun.last_stored (h : SharedRun P anchor start events s) {before : VerifyLog}
    (hlast : askedBy n events = before ++ [q]) (hstore : q.1.OfStore) :
    ∃ pre event post u v, events = pre ++ .stored n q event :: post ∧ askedBy n pre = before
      ∧ SharedRun P anchor start pre u ∧ Stored q event ∧ Performs P anchor u event v
      ∧ SharedRun P anchor v post s := by
  obtain ⟨first, rest, rfl, hfirst, hrest⟩ := List.filterMap_eq_append_iff.mp hlast
  obtain ⟨skipped, e, post, rfl, hskipped, he, -⟩ := List.filterMap_eq_cons_iff.mp hrest
  rw [← List.append_assoc, List.append_cons] at h
  obtain ⟨v, hthrough, hpost⟩ := Run.append_iff.mp h
  obtain ⟨u, hpre, hstep⟩ := Run.snoc_iff.mp hthrough
  have hbefore : askedBy n (first ++ skipped) = before := by
    rw [askedBy, List.filterMap_append, hfirst, List.filterMap_eq_nil_iff.mpr hskipped,
      List.append_nil]
  cases hstep with
  | other _ => cases he
  | @aside m q' hother =>
    rw [VerifyEvent.asked] at he
    split at he
    · obtain rfl := Option.some.inj he
      exact absurd hstore hother
    · cases he
  | @stored m q' event _ hanswered hperforms =>
    rw [VerifyEvent.asked] at he
    split at he
    · rename_i hm
      obtain rfl := Option.some.inj he
      obtain rfl := hm
      exact ⟨first ++ skipped, event, post, u, v, (List.append_assoc ..).symm, hbefore, hpre, hanswered,
        hperforms, hpost⟩
    · cases he

/-- A claim that is terminal before a verification has committed it was committed by someone
else. -/
theorem SharedRun.committed_by_other (h : SharedRun P anchor start events s)
    (hhistory : ClaimHistory P (storeEvents events) s.store)
    (huncommitted : ¬ (askedBy n events).Commits) {id : String} (hterminal : IsTerminal s.store id) :
    ∃ e ∈ events, e.client ≠ some n ∧ e.performed.bind committedClaim = some id := by
  obtain ⟨event, hevent, hcommitted⟩ := List.mem_filterMap.mp ((hhistory.terminal id).mpr hterminal)
  obtain ⟨e, he, hperformed⟩ := List.mem_filterMap.mp hevent
  refine ⟨e, he, fun hn => ?_, by rw [hperformed]; exact hcommitted⟩
  obtain ⟨u, v, hstep⟩ := h.exists_step he
  cases hstep with
  | other _ => cases hn
  | aside _ => cases hperformed
  | stored hanswered _ =>
    obtain rfl := Option.some.inj hn
    obtain rfl := Option.some.inj hperformed
    obtain ⟨submission, rfl⟩ := hanswered.of_commit hcommitted
    exact huncommitted ⟨submission, true, mem_askedBy he⟩

theorem committed_agrees (h : SharedRun P anchor start events s)
    (hhistory : ∀ {pre : List (VerifyEvent κ)} {u : Anchored ω}, SharedRun P anchor start pre u →
      ClaimHistory P (storeEvents pre) u.store)
    (hasks : ∀ before q after, askedBy n events = before ++ q :: after → Due P req cb before q.1)
    {before : VerifyLog} {submission : Submission} {fresh : Bool}
    (hlast : askedBy n events = before ++ [⟨.finalize submission, some (.ok fresh)⟩])
    (hopened : x.Opened before) (huncommitted : ¬ before.Commits) :
    ∃ r, s.store.claims.get? x.claim.claimId = some r ∧ r.state = .terminal
      ∧ r.receiptBody = submission.payload.receiptBody.1 ∧ r.claim = x.claim
      ∧ (r.allowHorizon = submission.allowValidUntil
        ∨ CommittedBefore events n x.claim.claimId) := by
  have hid : submission.claimId = x.claim.claimId := by
    have hdue := hasks before _ [] hlast
    cases hdue with
    | finalize x' _ hcapability => rw [hcapability.1, x'.claim_unique x]
  obtain ⟨pre, event, post, u, v, rfl, rfl, hpre, hstored, hperforms, hpost⟩ :=
    h.last_stored hlast trivial
  obtain ⟨r, hr, hstate, hbody, hhorizon⟩ : ∃ r, v.store.claims.get? submission.claimId = some r
      ∧ r.state = .terminal ∧ r.receiptBody = submission.payload.receiptBody.1
      ∧ (r.allowHorizon = submission.allowValidUntil ∨ IsTerminal u.store submission.claimId) := by
    generalize hq : (⟨.finalize submission, some (.ok fresh)⟩ : Sigma VerifyCall.Reply) = q at hstored
    cases hstored with
    | claim _ _ _ r => cases hq
    | progress _ _ _ r => cases hq
    | finalize _ r =>
      cases hr : replyOf StoreReply.committed? r with
      | error e =>
        rw [hr] at hq
        cases hq
      | ok fresh' =>
        obtain ⟨reply, rfl, hreply⟩ := replyOf_eq_ok hr
        rw [hr] at hq
        cases hq
        cases reply with
        | committed fresh => exact performs_finalize hperforms
        | _ => cases hreply
  rw [hid] at hr hhorizon
  obtain ⟨r', hr', hsame⟩ := hpost.storeRun.terminalsKept _ r hr hstate
  have hopened' : x.Opened (askedBy n (pre ++ .stored n ⟨.finalize submission, some (.ok fresh)⟩ event
      :: post)) := hlast ▸ List.mem_append_left _ hopened
  obtain ⟨_, created, hmem, hcreated⟩ := h.created hopened'
  obtain ⟨r'', hr'', hclaim, -⟩ := (hhistory h).recorded (x.claim, x.ownerToken)
    (List.mem_filterMap.mpr ⟨created, List.mem_filterMap.mpr ⟨_, hmem, rfl⟩, hcreated⟩)
  obtain rfl := Option.some.inj (hr'.symm.trans hr'')
  refine ⟨r', hr', hsame.state.trans hstate, hsame.receiptBody.trans hbody, hclaim, ?_⟩
  refine hhorizon.imp (fun heq => hsame.allowHorizon.trans heq) fun hterminal => ?_
  obtain ⟨e, he, hother⟩ := hpre.committed_by_other (hhistory hpre) huncommitted hterminal
  exact ⟨pre, submission, _, event, post, rfl, hid, e, he, hother⟩

end Agreement

end RatifyProtocol.V2
