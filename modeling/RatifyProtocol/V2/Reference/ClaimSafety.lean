import RatifyProtocol.V2.Reference.Admission
set_option autoImplicit false

/-!
# Reference store: the claim store over whole runs

Every replay key is created at most once and committed at most once, what was
committed stays, and each stream counts the claims created on it.
-/

namespace RatifyProtocol.V2

open Foundation

variable {ω : Type} {P : Primitives} {anchor : StoreAnchor ω}

/-! ## What a call keeps -/

/-- `b` is `a` but for its progress, its release record and its abandonment. -/
def SameClaim (a b : ClaimRecord) : Prop :=
  b = { a with progress := b.progress, release := b.release, abandoned := b.abandoned }

theorem SameClaim.refl (r : ClaimRecord) : SameClaim r r := rfl

/-- The same claims are there, with the same sealed fields and the same terminal
results. -/
def ClaimsKept (s t : StoreState) : Prop :=
  ∀ id, Option.Rel SameClaim (s.claims.get? id) (t.claims.get? id)

theorem Option.Rel.of_eq {α : Type} {R : α → α → Prop} (hrefl : ∀ a, R a a) {x y : Option α}
    (h : y = x) : Option.Rel R x y := by
  rw [h]
  cases x with
  | none => exact .none
  | some a => exact .some (hrefl a)

theorem ClaimsKept.of_claims_eq {s t : StoreState} (h : t.claims = s.claims) : ClaimsKept s t :=
  fun id => Option.Rel.of_eq SameClaim.refl (by rw [h])

theorem ClaimsKept.of_insert {s t : StoreState} {id : String} {r r' : ClaimRecord}
    (hfound : s.claims.get? id = some r) (hsame : SameClaim r r')
    (h : t.claims = s.claims.insert id r') : ClaimsKept s t := by
  intro id'
  rw [h, OrderedMap.get?_insert]
  split
  · rename_i hid
    rw [hid, hfound]
    exact .some hsame
  · exact Option.Rel.of_eq SameClaim.refl rfl

/-- What is there after was there before. -/
theorem ClaimsKept.before {s t : StoreState} (h : ClaimsKept s t) {id : String} {r : ClaimRecord}
    (hr : t.claims.get? id = some r) : ∃ r₀, s.claims.get? id = some r₀ ∧ SameClaim r₀ r := by
  have hrel := h id
  rw [hr] at hrel
  generalize s.claims.get? id = x at hrel
  cases hrel with
  | some hsame => exact ⟨_, rfl, hsame⟩

/-- What was there before is there after. -/
theorem ClaimsKept.after {s t : StoreState} (h : ClaimsKept s t) {id : String} {r : ClaimRecord}
    (hr : s.claims.get? id = some r) : ∃ r', t.claims.get? id = some r' ∧ SameClaim r r' := by
  have hrel := h id
  rw [hr] at hrel
  generalize t.claims.get? id = x at hrel
  cases hrel with
  | some hsame => exact ⟨_, rfl, hsame⟩

/-! ### Abandonment -/

/-- A claim marked abandoned when it is among `ids`. -/
def markAbandoned (ids : List String) (id : String) (r : ClaimRecord) : ClaimRecord :=
  if id ∈ ids then { r with abandoned := true } else r

theorem get?_foldl_abandon (ids : List String) (m : OrderedMap String ClaimRecord) (id : String) :
    (ids.foldl (fun m i => m.modify i fun r => { r with abandoned := true }) m).get? id
      = (m.get? id).map (markAbandoned ids id) := by
  induction ids generalizing m with
  | nil =>
    have hmark : markAbandoned [] id = fun r => r := by
      funext r
      simp [markAbandoned]
    rw [hmark, Option.map_id']
    rfl
  | cons i ids ih =>
    rw [List.foldl_cons, ih, OrderedMap.get?_modify]
    split
    · rename_i hid
      subst hid
      cases m.get? id with
      | none => rfl
      | some r => simp [markAbandoned]
    · rename_i hid
      cases m.get? id with
      | none => rfl
      | some r => simp [markAbandoned, hid]

theorem get?_abandonPending (s : StoreState) (id : String) :
    (abandonPending s).claims.get? id
      = (s.claims.get? id).map (markAbandoned (pendingClaims s) id) :=
  get?_foldl_abandon (pendingClaims s) s.claims id

theorem claimsKept_abandonPending (s : StoreState) : ClaimsKept s (abandonPending s) := by
  intro id
  rw [get?_abandonPending]
  cases s.claims.get? id with
  | none => exact .none
  | some r =>
    apply Option.Rel.some
    simp only [SameClaim, markAbandoned]
    split <;> rfl

/-! ### Checkpoint and log -/

theorem EntriesAcknowledged.claims {s t : StoreState} (h : EntriesAcknowledged s t) :
    t.claims = s.claims := by
  rw [h.state]
  rfl

theorem EntriesAcknowledged.streams {s t : StoreState} (h : EntriesAcknowledged s t) :
    t.streams = s.streams := by
  rw [h.state]
  rfl

theorem EntriesAcknowledged.rateCommits {s t : StoreState} (h : EntriesAcknowledged s t) :
    t.rateCommits = s.rateCommits := by
  rw [h.state]
  rfl

theorem EntriesAcknowledged.highWater_le {s t : StoreState} (h : EntriesAcknowledged s t) :
    s.highWater ≤ t.highWater := by
  rw [h.state]
  exact h.ready.notRegressed

theorem Quiet.claims {s t : StoreState} (h : Quiet s t) : t.claims = s.claims := by
  rcases h with rfl | ⟨-, rfl⟩ <;> rfl

theorem Quiet.streams {s t : StoreState} (h : Quiet s t) : t.streams = s.streams := by
  rcases h with rfl | ⟨-, rfl⟩ <;> rfl

theorem Quiet.outbox {s t : StoreState} (h : Quiet s t) : t.outbox = s.outbox := by
  rcases h with rfl | ⟨-, rfl⟩ <;> rfl

theorem Quiet.rateCommits {s t : StoreState} (h : Quiet s t) : t.rateCommits = s.rateCommits := by
  rcases h with rfl | ⟨-, rfl⟩ <;> rfl

theorem Quiet.highWater_le {s t : StoreState} (h : Quiet s t) : s.highWater ≤ t.highWater := by
  rcases h with rfl | ⟨hready, rfl⟩
  · exact le_refl _
  · exact hready.notRegressed

/-! ## Creations and commits -/

/-- The claim a call asks to commit. -/
def StoreCall.commits : StoreCall → Option String
  | finalize claimId _ _ _ _ => some claimId
  | recover claimId _ _ => some claimId
  | _ => none

/-- A terminal commit of `claimId`, whoever made it. -/
structure TerminalCommitted (claimId : String) (record : ClaimRecord) (terminal body : Bytes)
    (horizon : Int) (admitted : Bool) (s t : StoreState) : Prop where
  ready : ClockReady s
  found : s.claims.get? claimId = some record
  evaluating : record.state = .evaluating
  inTime : 0 < horizon → s.now < horizon ∧ s.now < record.claim.expiresAt
  decided : ∃ receipt, decodeVerificationReceiptBodyV2 body = .ok receipt
    ∧ horizonOk receipt.decision horizon = true
  state : t = committedState claimId record terminal body horizon admitted s

/-- Who commits: the owner while its lease is live, or a recovery once it has
expired. -/
inductive CommitAuthority (P : Primitives) (s : StoreState) (claimId : String)
    (record : ClaimRecord) : StoreCall → Prop
  | owner {token terminal body : Bytes} {horizon : Int}
      (live : OwnerLive P claimId token record s) :
      CommitAuthority P s claimId record (.finalize claimId token terminal body horizon)
  | recovery {terminal body : Bytes} (leaseExpired : record.leaseExpiresAt ≤ s.now) :
      CommitAuthority P s claimId record (.recover claimId terminal body)

theorem CommitAuthority.commits {s : StoreState} {claimId : String} {record : ClaimRecord}
    {call : StoreCall} (h : CommitAuthority P s claimId record call) :
    call.commits = some claimId := by
  cases h <;> rfl

/-- What a call did to claims and streams. -/
inductive ClaimEffect (P : Primitives) (call : StoreCall) (s : StoreState)
    (r : V2StoreResult StoreReply) (t : StoreState) : Prop
  | kept (claims : ClaimsKept s t) (streams : t.streams = s.streams)
      (reply : ∀ a, r = .ok a → a.fresh = false)
  | created {claim : V2ChallengeClaim} {token : Bytes} {advance : Option (StreamKey × Int)}
      (call_eq : call = .claim claim (.ok token))
      (reply : r = .ok
        (.claimed { disposition := .created, claimedAt := s.now, ownerToken := token }))
      (new : ClaimCreated P claim token advance s t)
  | committed {claimId : String} {record : ClaimRecord} {terminal body : Bytes} {horizon : Int}
      {admitted : Bool} (authority : CommitAuthority P s claimId record call) (reply : r = .ok (.committed true))
      (new : TerminalCommitted claimId record terminal body horizon admitted s t)

theorem FinalizeCommitted.terminal {claimId : String} {token terminal body : Bytes}
    {horizon : Int} {record : ClaimRecord} {receipt : VerificationReceiptV2} {s t : StoreState}
    (h : FinalizeCommitted P claimId token terminal body horizon record receipt s t) :
    TerminalCommitted claimId record terminal body horizon (admitsRate s record horizon) s t :=
  { ready := h.ready, found := h.found, evaluating := h.evaluating, inTime := h.inTime,
    decided := ⟨receipt, h.decoded, h.horizonMatches⟩, state := h.state }

theorem RecoverCommitted.committed {claimId : String} {terminal body : Bytes}
    {record : ClaimRecord} {receipt : VerificationReceiptV2} {s t : StoreState}
    (h : RecoverCommitted claimId terminal body record receipt s t) :
    TerminalCommitted claimId record terminal body 0 false s t :=
  { ready := h.ready, found := h.found, evaluating := h.evaluating,
    inTime := fun hpos => absurd hpos (lt_irrefl _),
    decided := ⟨receipt, h.decoded, by rw [h.decision]; rfl⟩, state := h.state }

theorem stale_reply {a : StoreReply} (ha : a.fresh = false) (b : StoreReply)
    (h : (.ok a : V2StoreResult StoreReply) = .ok b) : b.fresh = false := by
  cases h
  exact ha

theorem CallEffect.claimEffect {call : StoreCall} {s t : StoreState}
    {r : V2StoreResult StoreReply} (h : CallEffect P call s r t) : ClaimEffect P call s r t := by
  cases h with
  | quiet hquiet hreply => exact .kept (.of_claims_eq hquiet.claims) hquiet.streams hreply
  | created hnew => exact .created rfl rfl hnew
  | progressed hnew =>
    obtain rfl := hnew.state
    refine .kept (.of_insert hnew.found ?_ rfl) rfl (stale_reply rfl)
    rfl
  | finalized hnew => exact .committed (.owner hnew.toOwnerLive) rfl hnew.terminal
  | recovered hnew => exact .committed (.recovery hnew.leaseExpired) rfl hnew.committed
  | released hnew =>
    obtain rfl := hnew.state
    refine .kept (.of_insert hnew.found ?_ rfl) rfl (stale_reply rfl)
    rfl
  | appended hnew hsubmitted =>
    obtain rfl := hnew.state
    rcases hsubmitted with rfl | hack
    · exact .kept (.of_claims_eq rfl) rfl (stale_reply rfl)
    · exact .kept (.of_claims_eq hack.claims) hack.streams (stale_reply rfl)
  | acknowledged hnew =>
    obtain rfl := hnew.state
    exact .kept (.of_claims_eq rfl) rfl (stale_reply rfl)
  | forked =>
    refine .kept (.of_claims_eq rfl) rfl ?_
    intro a ha
    cases ha
  | timeSet => exact .kept (.of_claims_eq rfl) rfl (stale_reply rfl)
  | signerSet => exact .kept (.of_claims_eq rfl) rfl (stale_reply rfl)
  | withheldSet hsubmitted =>
    rcases hsubmitted with rfl | hack
    · exact .kept (.of_claims_eq rfl) rfl (stale_reply rfl)
    · exact .kept (.of_claims_eq hack.claims) hack.streams (stale_reply rfl)
  | rateEnabled => exact .kept (.of_claims_eq rfl) rfl (stale_reply rfl)
  | abandoned => exact .kept (claimsKept_abandonPending s) rfl (stale_reply rfl)

theorem CallEffect.highWater_le {call : StoreCall} {s t : StoreState}
    {r : V2StoreResult StoreReply} (h : CallEffect P call s r t) :
    s.highWater ≤ t.highWater := by
  cases h with
  | quiet hquiet _ => exact hquiet.highWater_le
  | created hnew => rw [hnew.state]; exact hnew.ready.notRegressed
  | progressed hnew => rw [hnew.state]; exact hnew.ready.notRegressed
  | finalized hnew => rw [hnew.state]; exact hnew.ready.notRegressed
  | recovered hnew => rw [hnew.state]; exact hnew.ready.notRegressed
  | released hnew => rw [hnew.state]
  | appended hnew hsubmitted =>
    have happend := congrArg StoreState.highWater hnew.state
    rcases hsubmitted with rfl | hack
    · exact le_of_eq happend.symm
    · exact happend ▸ hack.highWater_le
  | acknowledged hnew => rw [hnew.state]; exact hnew.ready.notRegressed
  | forked => exact le_refl _
  | timeSet => exact le_refl _
  | signerSet => exact le_refl _
  | withheldSet hsubmitted =>
    rcases hsubmitted with rfl | hack
    · exact le_refl _
    · exact hack.highWater_le
  | rateEnabled => exact le_refl _
  | abandoned => exact le_refl _

/-! ## The history of a run -/

/-- The claim an event created, with the owner token it answered. -/
def createdClaim : StoreEvent → Option (V2ChallengeClaim × Bytes)
  | (.claim claim _, .ok (.claimed result)) =>
    if result.disposition = .created then some (claim, result.ownerToken) else none
  | _ => none

/-- The claims a run created, oldest first. -/
def createdClaims (events : List StoreEvent) : List (V2ChallengeClaim × Bytes) :=
  events.filterMap createdClaim

/-- The claim ID an event committed. -/
def committedClaim : StoreEvent → Option String
  | (call, .ok (.committed true)) => call.commits
  | _ => none

/-- The claim IDs a run committed, oldest first. -/
def committedClaims (events : List StoreEvent) : List String :=
  events.filterMap committedClaim

theorem createdClaims_snoc (events : List StoreEvent) (i : StoreEvent) :
    createdClaims (events ++ [i]) = createdClaims events ++ (createdClaim i).toList := by
  rw [createdClaims, List.filterMap_append]
  cases h : createdClaim i <;> simp [createdClaims, h]

theorem committedClaims_snoc (events : List StoreEvent) (i : StoreEvent) :
    committedClaims (events ++ [i]) = committedClaims events ++ (committedClaim i).toList := by
  rw [committedClaims, List.filterMap_append]
  cases h : committedClaim i <;> simp [committedClaims, h]

theorem createdClaim_of_stale {call : StoreCall} {r : V2StoreResult StoreReply}
    (h : ∀ a, r = .ok a → a.fresh = false) : createdClaim (call, r) = none := by
  simp only [createdClaim]
  split
  · rename_i claim owner result hi
    obtain ⟨-, rfl⟩ := Prod.mk.inj hi
    have hstale := h _ rfl
    simp only [StoreReply.fresh, decide_eq_false_iff_not] at hstale
    rw [if_neg hstale]
  · rfl

theorem committedClaim_of_stale {call : StoreCall} {r : V2StoreResult StoreReply}
    (h : ∀ a, r = .ok a → a.fresh = false) : committedClaim (call, r) = none := by
  simp only [committedClaim]
  split
  · rename_i hi
    obtain ⟨-, rfl⟩ := Prod.mk.inj hi
    exact absurd (h _ rfl) (by simp [StoreReply.fresh])
  · rfl

/-- A created claim advances the stream `k`. -/
def advances (k : StreamKey) (c : V2ChallengeClaim × Bytes) : Bool :=
  c.1.streamId.isSome && decide (streamKey c.1 = k)

/-- The number of claims created on the stream `k`. -/
def streamCount (k : StreamKey) (events : List StoreEvent) : Nat :=
  (createdClaims events).countP (advances k)

/-- The last sequence of a stream on which `n` claims were created. -/
def lastSequence (n : Nat) : Option Int := if n = 0 then none else some n

theorem lastSequence_succ (n : Nat) :
    lastSequence (n + 1) = some (match lastSequence n with
      | some last => last + 1
      | none => 1) := by
  cases n with
  | zero => rfl
  | succ n => simp [lastSequence]

/-- What the store and the run that led to it agree on. -/
structure ClaimHistory (P : Primitives) (events : List StoreEvent) (s : StoreState) : Prop where
  ids : ((createdClaims events).map fun c => c.1.claimId).Nodup
  keyed : ∀ c ∈ createdClaims events, claimIdMatchesKey P c.1 = true
  recorded : ∀ c ∈ createdClaims events, ∃ r, s.claims.get? c.1.claimId = some r
    ∧ r.claim = c.1 ∧ r.ownerDigest = P.sha256 c.2
  created : ∀ id r, s.claims.get? id = some r → r.claim.claimId = id
    ∧ ∃ token, (r.claim, token) ∈ createdClaims events
  commits : (committedClaims events).Nodup
  terminal : ∀ id, id ∈ committedClaims events ↔
    ∃ r, s.claims.get? id = some r ∧ r.state = .terminal
  streams : ∀ k, s.streams.get? k = lastSequence (streamCount k events)

theorem SameClaim.claim {a b : ClaimRecord} (h : SameClaim a b) : b.claim = a.claim := by rw [h]

theorem SameClaim.ownerDigest {a b : ClaimRecord} (h : SameClaim a b) :
    b.ownerDigest = a.ownerDigest := by rw [h]

theorem SameClaim.state {a b : ClaimRecord} (h : SameClaim a b) : b.state = a.state := by rw [h]

theorem ClaimHistory.initial {s : StoreState} (hclaims : s.claims = .empty)
    (hstreams : s.streams = .empty) : ClaimHistory P [] s where
  ids := List.nodup_nil
  keyed := fun _ h => absurd h List.not_mem_nil
  recorded := fun _ h => absurd h List.not_mem_nil
  created := by
    intro id r h
    rw [hclaims] at h
    cases h
  commits := List.nodup_nil
  terminal := by
    intro id
    constructor
    · intro h
      exact absurd h List.not_mem_nil
    · rintro ⟨r, h, -⟩
      rw [hclaims] at h
      cases h
  streams := by
    intro k
    rw [hstreams]
    rfl

/-- The history after a call that keeps the claims. -/
theorem ClaimHistory.kept {events : List StoreEvent} {i : StoreEvent} {s t : StoreState}
    (h : ClaimHistory P events s) (hclaims : ClaimsKept s t) (hstreams : t.streams = s.streams)
    (hreply : ∀ a, i.2 = .ok a → a.fresh = false) : ClaimHistory P (events ++ [i]) t := by
  have hcreated : createdClaims (events ++ [i]) = createdClaims events := by
    rw [createdClaims_snoc, createdClaim_of_stale hreply, Option.toList_none, List.append_nil]
  have hcommitted : committedClaims (events ++ [i]) = committedClaims events := by
    rw [committedClaims_snoc, committedClaim_of_stale hreply, Option.toList_none,
      List.append_nil]
  refine
    { ids := by rw [hcreated]; exact h.ids
      keyed := by rw [hcreated]; exact h.keyed
      recorded := ?_, created := ?_
      commits := by rw [hcommitted]; exact h.commits
      terminal := ?_, streams := ?_ }
  · intro c hc
    rw [hcreated] at hc
    obtain ⟨r, hr, hclaim, howner⟩ := h.recorded c hc
    obtain ⟨r', hr', hsame⟩ := hclaims.after hr
    exact ⟨r', hr', hsame.claim.trans hclaim, hsame.ownerDigest.trans howner⟩
  · intro id r hr
    obtain ⟨r₀, hr₀, hsame⟩ := hclaims.before hr
    rw [hcreated, hsame.claim]
    exact h.created id r₀ hr₀
  · intro id
    rw [hcommitted, h.terminal id]
    constructor
    · rintro ⟨r, hr, hterminal⟩
      obtain ⟨r', hr', hsame⟩ := hclaims.after hr
      exact ⟨r', hr', hsame.state.trans hterminal⟩
    · rintro ⟨r, hr, hterminal⟩
      obtain ⟨r₀, hr₀, hsame⟩ := hclaims.before hr
      exact ⟨r₀, hr₀, hsame.state.symm.trans hterminal⟩
  · intro k
    rw [hstreams, streamCount, hcreated]
    exact h.streams k

/-- What a stream advance asks for. -/
theorem claimStreamAdvance_eq_ok {s : StoreState} {claim : V2ChallengeClaim}
    {advance : Option (StreamKey × Int)} (h : claimStreamAdvance s claim = .ok advance) :
    (claim.streamId = none ∧ advance = none)
      ∨ claim.streamId.isSome = true
        ∧ advance = some (streamKey claim, match s.streams.get? (streamKey claim) with
            | some last => last + 1
            | none => 1) := by
  simp only [claimStreamAdvance] at h
  split at h
  · rename_i hnone _
    cases h
    exact .inl ⟨hnone, rfl⟩
  · rename_i id seq hid _
    refine .inr ⟨by rw [hid]; rfl, ?_⟩
    rcases hcheck : checkV2StreamSequence (s.streams.get? (streamKey claim)).isSome
        ((s.streams.get? (streamKey claim)).getD 0) seq with e | u
    · rw [hcheck] at h
      cases h
    · rw [hcheck] at h
      cases h
      rw [checkV2StreamSequence_eq_ok hcheck]
      cases s.streams.get? (streamKey claim) <;> rfl
  · simp at h

/-- The streams after a claim was created. -/
theorem ClaimCreated.streams_get? {claim : V2ChallengeClaim} {token : Bytes}
    {advance : Option (StreamKey × Int)} {s t : StoreState}
    (h : ClaimCreated P claim token advance s t) (k : StreamKey) :
    t.streams.get? k = if advances k (claim, token) then
        some (match s.streams.get? k with
          | some last => last + 1
          | none => 1)
      else s.streams.get? k := by
  rw [h.state]
  rcases claimStreamAdvance_eq_ok h.stream with ⟨hnone, rfl⟩ | ⟨hsome, rfl⟩
  · rw [if_neg (by simp [advances, hnone])]
    rfl
  · simp only [insertClaim, OrderedMap.get?_insert, advances, hsome, Bool.true_and,
      decide_eq_true_eq]
    split
    · rename_i hk
      rw [hk, if_pos rfl]
    · rename_i hk
      rw [if_neg (Ne.symm hk)]
      rfl

/-- The history after a claim was created. -/
theorem ClaimHistory.afterCreated {events : List StoreEvent} {claim : V2ChallengeClaim}
    {token : Bytes} {advance : Option (StreamKey × Int)} {s t : StoreState}
    (h : ClaimHistory P events s) (hnew : ClaimCreated P claim token advance s t) :
    ClaimHistory P (events ++ [(.claim claim (.ok token), .ok (.claimed
      { disposition := .created, claimedAt := s.now, ownerToken := token }))]) t := by
  generalize hi : ((.claim claim (.ok token), .ok (.claimed
    { disposition := .created, claimedAt := s.now, ownerToken := token })) : StoreEvent) = i
  have hcreated : createdClaims (events ++ [i]) = createdClaims events ++ [(claim, token)] := by
    rw [createdClaims_snoc, ← hi]
    rfl
  have hcommitted : committedClaims (events ++ [i]) = committedClaims events := by
    rw [committedClaims_snoc, ← hi]
    exact List.append_nil _
  have hget : ∀ id, t.claims.get? id = if id = claim.claimId then
      some (newClaimRecord claim (P.sha256 token) (wrapI64 (s.now + s.leaseSeconds)) s.now)
      else s.claims.get? id := by
    intro id
    rw [hnew.state]
    exact OrderedMap.get?_insert _ _ _ _
  have hold : ∀ id r, s.claims.get? id = some r → t.claims.get? id = some r := by
    intro id r hr
    rw [hget, if_neg, hr]
    rintro rfl
    rw [hnew.unused] at hr
    cases hr
  refine
    { ids := ?_, keyed := ?_, recorded := ?_, created := ?_
      commits := by rw [hcommitted]; exact h.commits
      terminal := ?_, streams := ?_ }
  · rw [hcreated, List.map_append, List.nodup_append]
    refine ⟨h.ids, List.nodup_singleton _, ?_⟩
    rintro id hid id' hid' rfl
    obtain ⟨c, hc, rfl⟩ := List.mem_map.mp hid
    obtain ⟨r, hr, -⟩ := h.recorded c hc
    rw [List.mem_singleton.mp hid', hnew.unused] at hr
    cases hr
  · intro c hc
    rw [hcreated] at hc
    rcases List.mem_append.mp hc with hc | hc
    · exact h.keyed c hc
    · rw [List.mem_singleton.mp hc]
      exact hnew.key
  · intro c hc
    rw [hcreated] at hc
    rcases List.mem_append.mp hc with hc | hc
    · obtain ⟨r, hr, hrest⟩ := h.recorded c hc
      exact ⟨r, hold _ _ hr, hrest⟩
    · rw [List.mem_singleton.mp hc]
      exact ⟨_, by rw [hget, if_pos rfl], rfl, rfl⟩
  · intro id r hr
    rw [hget] at hr
    rw [hcreated]
    split at hr
    · rename_i hid
      cases hr
      exact ⟨hid.symm, token, List.mem_append_right _ (List.mem_singleton.mpr rfl)⟩
    · obtain ⟨hid, token', hmem⟩ := h.created id r hr
      exact ⟨hid, token', List.mem_append_left _ hmem⟩
  · intro id
    rw [hcommitted, h.terminal id]
    constructor
    · rintro ⟨r, hr, hterminal⟩
      exact ⟨r, hold _ _ hr, hterminal⟩
    · rintro ⟨r, hr, hterminal⟩
      rw [hget] at hr
      split at hr
      · cases hr
        cases hterminal
      · exact ⟨r, hr, hterminal⟩
  · intro k
    have hcount : streamCount k (events ++ [i])
        = streamCount k events + if advances k (claim, token) then 1 else 0 := by
      rw [streamCount, hcreated, List.countP_append, List.countP_singleton, streamCount]
    rw [hnew.streams_get? k, hcount, h.streams k]
    split
    · rw [lastSequence_succ]
    · rfl

/-- The history after a terminal commit. -/
theorem ClaimHistory.afterCommitted {events : List StoreEvent} {call : StoreCall}
    {claimId : String} {record : ClaimRecord} {terminal body : Bytes} {horizon : Int}
    {admitted : Bool} {s t : StoreState} (h : ClaimHistory P events s)
    (hcall : call.commits = some claimId)
    (hnew : TerminalCommitted claimId record terminal body horizon admitted s t) :
    ClaimHistory P (events ++ [(call, .ok (.committed true))]) t := by
  have hcreated : createdClaims (events ++ [(call, .ok (.committed true))])
      = createdClaims events := by
    rw [createdClaims_snoc]
    cases call <;> exact List.append_nil _
  have hcommitted : committedClaims (events ++ [(call, .ok (.committed true))])
      = committedClaims events ++ [claimId] := by
    rw [committedClaims_snoc, committedClaim, hcall]
    rfl
  have hget : ∀ id, t.claims.get? id = if id = claimId then
      some (record.commit terminal body horizon s.now s.outbox.length)
      else s.claims.get? id := by
    intro id
    rw [hnew.state]
    exact OrderedMap.get?_insert _ _ _ _
  have hopen : claimId ∉ committedClaims events := by
    intro hmem
    obtain ⟨r, hr, hterminal⟩ := (h.terminal claimId).mp hmem
    rw [hnew.found] at hr
    cases hr
    rw [hnew.evaluating] at hterminal
    cases hterminal
  refine
    { ids := by rw [hcreated]; exact h.ids
      keyed := by rw [hcreated]; exact h.keyed
      recorded := ?_, created := ?_, commits := ?_, terminal := ?_, streams := ?_ }
  · intro c hc
    rw [hcreated] at hc
    obtain ⟨r, hr, hclaim, howner⟩ := h.recorded c hc
    rw [hget]
    split
    · rename_i hid
      rw [hid, hnew.found] at hr
      cases hr
      exact ⟨_, rfl, hclaim, howner⟩
    · exact ⟨r, hr, hclaim, howner⟩
  · intro id r hr
    rw [hget] at hr
    rw [hcreated]
    split at hr
    · rename_i hid
      cases hr
      rw [hid]
      exact h.created claimId record hnew.found
    · exact h.created id r hr
  · rw [hcommitted, List.nodup_append]
    refine ⟨h.commits, List.nodup_singleton _, ?_⟩
    rintro id hid id' hid' rfl
    rw [List.mem_singleton.mp hid'] at hid
    exact hopen hid
  · intro id
    rw [hcommitted, List.mem_append, List.mem_singleton, h.terminal id, hget]
    split
    · rename_i hid
      constructor
      · intro _
        exact ⟨_, rfl, rfl⟩
      · intro _
        exact .inr hid
    · rename_i hid
      constructor
      · rintro (hr | hid')
        · exact hr
        · exact absurd hid' hid
      · exact .inl
  · intro k
    rw [streamCount, hcreated, hnew.state]
    exact h.streams k

theorem ClaimHistory.step {events : List StoreEvent} {i : StoreEvent} {s t : StoreState}
    (h : ClaimHistory P events s) (heffect : CallEffect P i.1 s i.2 t) :
    ClaimHistory P (events ++ [i]) t := by
  obtain ⟨call, r⟩ := i
  cases heffect.claimEffect with
  | kept hclaims hstreams hreply => exact h.kept hclaims hstreams hreply
  | created hcall hreply hnew =>
    obtain rfl : call = _ := hcall
    obtain rfl : r = _ := hreply
    exact h.afterCreated hnew
  | committed hauthority hreply hnew =>
    obtain rfl : r = _ := hreply
    exact h.afterCommitted hauthority.commits hnew

/-- The history of every run. -/
theorem StoreRun.claimHistory {s t : Anchored ω} {events : List StoreEvent}
    (hclaims : s.store.claims = .empty) (hstreams : s.store.streams = .empty)
    (run : StoreRun P anchor s events t) : ClaimHistory P events t.store :=
  run.history (fun events t => ClaimHistory P events t.store) (.initial hclaims hstreams)
    fun _ _ _ _ _ h hlast => h.step (perform_effect hlast)

/-! ## Times and decisions -/

/-- `T_claim`, `T_final` and the allow horizon of one record. -/
structure RecordTimes (highWater : Int) (r : ClaimRecord) : Prop where
  claimed : r.claimedAt ≤ highWater
  finalized : r.state = .terminal → r.claimedAt ≤ r.finalizedAt ∧ r.finalizedAt ≤ highWater
  decided : r.state = .terminal → ∃ receipt, decodeVerificationReceiptBodyV2 r.receiptBody
    = .ok receipt ∧ horizonOk receipt.decision r.allowHorizon = true
  inTime : r.state = .terminal → 0 < r.allowHorizon →
    r.finalizedAt < r.allowHorizon ∧ r.finalizedAt < r.claim.expiresAt

theorem RecordTimes.mono {h h' : Int} {r r' : ClaimRecord} (hr : RecordTimes h r)
    (hle : h ≤ h') (hsame : SameClaim r r') : RecordTimes h' r' := by
  rw [hsame]
  exact
    { claimed := le_trans hr.claimed hle
      finalized := fun hstate => ⟨(hr.finalized hstate).1, le_trans (hr.finalized hstate).2 hle⟩
      decided := hr.decided
      inTime := hr.inTime }

/-- Every record keeps its times. -/
def TimesKept (s : StoreState) : Prop :=
  ∀ id r, s.claims.get? id = some r → RecordTimes s.highWater r

theorem TimesKept.step {call : StoreCall} {r : V2StoreResult StoreReply} {s t : StoreState}
    (h : TimesKept s) (heffect : CallEffect P call s r t) : TimesKept t := by
  intro id rec hrec
  have hle := heffect.highWater_le
  cases heffect.claimEffect with
  | kept hclaims _ _ =>
    obtain ⟨rec₀, hrec₀, hsame⟩ := hclaims.before hrec
    exact (h id rec₀ hrec₀).mono hle hsame
  | created _ _ hnew =>
    obtain rfl := hnew.state
    simp only [insertClaim, OrderedMap.get?_insert] at hrec
    split at hrec
    · cases hrec
      exact
        { claimed := le_refl _
          finalized := nofun
          decided := nofun
          inTime := nofun }
    · exact (h id rec hrec).mono hle (SameClaim.refl rec)
  | committed _ _ hnew =>
    obtain rfl := hnew.state
    simp only [committedState, OrderedMap.get?_insert] at hrec
    split at hrec
    · cases hrec
      have hclaimed := (h _ _ hnew.found).claimed
      exact
        { claimed := le_trans hclaimed hle
          finalized := fun _ => ⟨le_trans hclaimed hnew.ready.notRegressed, le_refl _⟩
          decided := fun _ => hnew.decided
          inTime := fun _ => hnew.inTime }
    · exact (h id rec hrec).mono hle (SameClaim.refl rec)

theorem StoreRun.timesKept {s t : Anchored ω} {events : List StoreEvent}
    (h : TimesKept s.store) (run : StoreRun P anchor s events t) : TimesKept t.store :=
  run.invariant (fun t => TimesKept t.store) h fun _ _ _ h hlast => h.step (perform_effect hlast)

/-- Inside the store, an allow is what has a positive horizon. -/
theorem horizonOk_allow {horizon : Int} (h : horizonOk "allow" horizon = true) : 0 < horizon := by
  simp only [horizonOk, if_true, Bool.and_eq_true, decide_eq_true_eq] at h
  exact h.1

/-! ## Permanence -/

/-- The claim has a terminal result. -/
def IsTerminal (s : StoreState) (id : String) : Prop :=
  ∃ r, s.claims.get? id = some r ∧ r.state = .terminal

/-- The terminal fields of two records agree. -/
structure SameTerminal (a b : ClaimRecord) : Prop where
  claim : b.claim = a.claim
  state : b.state = a.state
  terminal : b.terminal = a.terminal
  receiptBody : b.receiptBody = a.receiptBody
  allowHorizon : b.allowHorizon = a.allowHorizon
  finalizedAt : b.finalizedAt = a.finalizedAt

theorem SameTerminal.refl (r : ClaimRecord) : SameTerminal r r := ⟨rfl, rfl, rfl, rfl, rfl, rfl⟩

theorem SameTerminal.trans {a b c : ClaimRecord} (h₁ : SameTerminal a b)
    (h₂ : SameTerminal b c) : SameTerminal a c :=
  ⟨h₂.claim.trans h₁.claim, h₂.state.trans h₁.state, h₂.terminal.trans h₁.terminal,
    h₂.receiptBody.trans h₁.receiptBody, h₂.allowHorizon.trans h₁.allowHorizon,
    h₂.finalizedAt.trans h₁.finalizedAt⟩

theorem SameClaim.sameTerminal {a b : ClaimRecord} (h : SameClaim a b) : SameTerminal a b := by
  rw [h]
  exact ⟨rfl, rfl, rfl, rfl, rfl, rfl⟩

/-- Terminal results stay as they are. -/
def TerminalsKept (s t : StoreState) : Prop :=
  ∀ id r, s.claims.get? id = some r → r.state = .terminal →
    ∃ r', t.claims.get? id = some r' ∧ SameTerminal r r'

theorem CallEffect.terminalsKept {call : StoreCall} {r : V2StoreResult StoreReply}
    {s t : StoreState} (h : CallEffect P call s r t) : TerminalsKept s t := by
  intro id rec hrec hterminal
  cases h.claimEffect with
  | kept hclaims _ _ =>
    obtain ⟨rec', hrec', hsame⟩ := hclaims.after hrec
    exact ⟨rec', hrec', hsame.sameTerminal⟩
  | created _ _ hnew =>
    obtain rfl := hnew.state
    refine ⟨rec, ?_, .refl rec⟩
    rw [← hrec]
    apply OrderedMap.get?_insert_of_ne
    rintro rfl
    exact absurd (hrec.symm.trans hnew.unused) nofun
  | committed _ _ hnew =>
    obtain rfl := hnew.state
    refine ⟨rec, ?_, .refl rec⟩
    rw [← hrec]
    apply OrderedMap.get?_insert_of_ne
    rintro rfl
    rw [hnew.found] at hrec
    cases hrec
    rw [hnew.evaluating] at hterminal
    cases hterminal

theorem StoreRun.terminalsKept {s t : Anchored ω} {events : List StoreEvent}
    (run : StoreRun P anchor s events t) : TerminalsKept s.store t.store := by
  refine run.invariant (fun t => TerminalsKept s.store t.store)
    (fun id r hr _ => ⟨r, hr, .refl r⟩) ?_
  intro t i u h hlast id r hr hterminal
  obtain ⟨r', hr', hsame⟩ := h id r hr hterminal
  obtain ⟨r'', hr'', hsame'⟩ :=
    (perform_effect hlast).terminalsKept id r' hr' (hsame.state.trans hterminal)
  exact ⟨r'', hr'', hsame.trans hsame'⟩

/-! ## Refused calls -/

/-- No claim, stream, rate counter or log entry changed. -/
structure DurablesKept (s t : StoreState) : Prop where
  claims : t.claims = s.claims
  streams : t.streams = s.streams
  rateCommits : t.rateCommits = s.rateCommits
  outbox : t.outbox = s.outbox

theorem Quiet.durablesKept {s t : StoreState} (h : Quiet s t) : DurablesKept s t :=
  ⟨h.claims, h.streams, h.rateCommits, h.outbox⟩

theorem CallEffect.refused {call : StoreCall} {e : V2StoreError} {s t : StoreState}
    (h : CallEffect P call s (.error e) t) : DurablesKept s t := by
  cases h with
  | quiet hquiet _ => exact hquiet.durablesKept
  | forked => exact ⟨rfl, rfl, rfl, rfl⟩

/-! ## Who commits -/

/-- A token that passes the owner check of `creator`: it is `creator`, or its
SHA-256 collides with that of `creator`. -/
def PassesAs (P : Primitives) (token creator : Bytes) : Prop :=
  token = creator ∨ (token ≠ creator ∧ P.sha256 token = P.sha256 creator)

theorem passesAs_of_sha256_eq {token creator : Bytes} (h : P.sha256 token = P.sha256 creator) :
    PassesAs P token creator := by
  by_cases heq : token = creator
  · exact .inl heq
  · exact .inr ⟨heq, h⟩

/-- The call commits `id` as the creator under its live lease, or as a recovery
after the lease expired. -/
inductive CommitAllowed (P : Primitives) (before : List StoreEvent) (s : StoreState) (id : String) :
    StoreCall → Prop
  | owner {record : ClaimRecord} {token creator terminal body : Bytes} {horizon : Int}
      (found : s.claims.get? id = some record)
      (created : (record.claim, creator) ∈ createdClaims before)
      (passes : PassesAs P token creator) (afterClaim : record.claimedAt ≤ s.now)
      (leaseLive : s.now < record.leaseExpiresAt) :
      CommitAllowed P before s id (.finalize id token terminal body horizon)
  | recovery {record : ClaimRecord} {terminal body : Bytes}
      (found : s.claims.get? id = some record) (leaseExpired : record.leaseExpiresAt ≤ s.now) :
      CommitAllowed P before s id (.recover id terminal body)

theorem CommitAuthority.allowed {before : List StoreEvent} {s : StoreState} {id : String}
    {record : ClaimRecord} {call : StoreCall} (hhistory : ClaimHistory P before s)
    (hfound : s.claims.get? id = some record) (h : CommitAuthority P s id record call) :
    CommitAllowed P before s id call := by
  cases h with
  | owner hlive =>
    obtain ⟨hid, creator, hmem⟩ := hhistory.created _ _ hfound
    obtain ⟨r', hr', -, howner⟩ := hhistory.recorded _ hmem
    rw [hid, hfound] at hr'
    cases hr'
    exact .owner hfound hmem (passesAs_of_sha256_eq (hlive.owner.trans howner))
      hlive.afterClaim hlive.leaseLive
  | recovery hexpired => exact .recovery hfound hexpired

/-- A call after which a claim is terminal that was not so before. -/
theorem CallEffect.commitAllowed {before : List StoreEvent} {call : StoreCall}
    {r : V2StoreResult StoreReply} {s t : StoreState} {id : String}
    (hhistory : ClaimHistory P before s) (h : CallEffect P call s r t)
    (hafter : IsTerminal t id) (hbefore : ¬ IsTerminal s id) :
    CommitAllowed P before s id call := by
  obtain ⟨rec, hrec, hterminal⟩ := hafter
  cases h.claimEffect with
  | kept hclaims _ _ =>
    obtain ⟨rec₀, hrec₀, hsame⟩ := hclaims.before hrec
    exact absurd ⟨rec₀, hrec₀, hsame.state.symm.trans hterminal⟩ hbefore
  | created _ _ hnew =>
    obtain rfl := hnew.state
    simp only [insertClaim, OrderedMap.get?_insert] at hrec
    split at hrec
    · cases hrec
      cases hterminal
    · exact absurd ⟨rec, hrec, hterminal⟩ hbefore
  | committed hauthority _ hnew =>
    obtain rfl := hnew.state
    simp only [committedState, OrderedMap.get?_insert] at hrec
    split at hrec
    · rename_i hid
      subst hid
      exact hauthority.allowed hhistory hnew.found
    · exact absurd ⟨rec, hrec, hterminal⟩ hbefore

/-! ## Claim store safety -/

/-- Created claims with one replay key are one claim. -/
theorem ClaimHistory.createdOnce {events : List StoreEvent} {s : StoreState}
    (h : ClaimHistory P events s) :
    ((createdClaims events).map fun c => c.1.replayKey).Nodup := by
  have hids : ((createdClaims events).map fun c => c.1.claimId).Nodup := h.ids
  refine List.Nodup.map_on ?_ (List.Nodup.of_map _ hids)
  intro a ha b hb heq
  have hid := claimId_eq_of_replayKey P (h.keyed a ha) (h.keyed b hb) heq
  exact List.inj_on_of_nodup_map hids ha hb hid

/-- The replay keys of the claims a run committed. -/
def committedKeys (events : List StoreEvent) (s : StoreState) : List (String × Int × String) :=
  (committedClaims events).filterMap fun id => (s.claims.get? id).map fun r => r.claim.replayKey

theorem ClaimHistory.committedOnce {events : List StoreEvent} {s : StoreState}
    (h : ClaimHistory P events s) : (committedKeys events s).Nodup := by
  refine List.Nodup.filterMap ?_ h.commits
  intro id id' key hkey hkey'
  rw [Option.mem_def, Option.map_eq_some_iff] at hkey hkey'
  obtain ⟨r, hr, hkey⟩ := hkey
  obtain ⟨r', hr', hkey'⟩ := hkey'
  obtain ⟨hid, _, hmem⟩ := h.created id r hr
  obtain ⟨hid', _, hmem'⟩ := h.created id' r' hr'
  have heq := claimId_eq_of_replayKey P (h.keyed _ hmem) (h.keyed _ hmem')
    (hkey.trans hkey'.symm)
  exact hid.symm.trans (heq.trans hid')

theorem ClaimHistory.committedCounted {events : List StoreEvent} {s : StoreState}
    (h : ClaimHistory P events s) :
    (committedKeys events s).length = (committedClaims events).length := by
  refine List.filterMap_length_eq_length.mpr fun id hid => ?_
  obtain ⟨r, hr, -⟩ := (h.terminal id).mp hid
  rw [hr]
  rfl

/-- What holds of every run of the store from `start`. -/
structure ClaimStoreSafe (P : Primitives) (anchor : StoreAnchor ω) (start : Anchored ω)
    (events : List StoreEvent) (s : Anchored ω) : Prop where
  createdOnce : ((createdClaims events).map fun c => c.1.replayKey).Nodup
  committedOnce : (committedKeys events s.store).Nodup
  committedCounted : (committedKeys events s.store).length = (committedClaims events).length
  permanent : ∀ before after u, events = before ++ after → StoreRun P anchor start before u →
    TerminalsKept u.store s.store
  commitAllowed : ∀ before i after u v, events = before ++ i :: after →
    StoreRun P anchor start before u → Performs P anchor u i v →
    ∀ id, IsTerminal v.store id → ¬ IsTerminal u.store id →
      CommitAllowed P before u.store id i.1
  streams : ∀ k, s.store.streams.get? k = lastSequence (streamCount k events)
  allowed : ∀ id r receipt, s.store.claims.get? id = some r → r.state = .terminal →
    decodeVerificationReceiptBodyV2 r.receiptBody = .ok receipt → receipt.decision = "allow" →
      r.claimedAt ≤ r.finalizedAt ∧ r.finalizedAt < r.allowHorizon
        ∧ r.finalizedAt < r.claim.expiresAt
  refused : ∀ before call e after u v, events = before ++ (call, .error e) :: after →
    StoreRun P anchor start before u → Performs P anchor u (call, .error e) v →
    DurablesKept u.store v.store

/-- Every run of a new store is safe. -/
theorem claimStore_safe {now leaseSeconds : Int} {logId : String} {verifierKey : HybridPublicKey}
    {start : StoreState} {device : ω} {events : List StoreEvent} {s : Anchored ω}
    (hnew : StoreState.new P now leaseSeconds logId verifierKey = .ok start)
    (run : StoreRun P anchor { store := start, device } events s) :
    ClaimStoreSafe P anchor { store := start, device } events s := by
  obtain ⟨verifierId, -, -, -, hstart⟩ := StoreState.new_eq_ok hnew
  have hclaims : start.claims = .empty := by rw [hstart]
  have hstreams : start.streams = .empty := by rw [hstart]
  have hhistory : ∀ {before u}, StoreRun P anchor { store := start, device } before u →
      ClaimHistory P before u.store := fun run => run.claimHistory hclaims hstreams
  have htimes : TimesKept s.store := by
    refine run.timesKept ?_
    intro id r hr
    rw [hclaims] at hr
    cases hr
  have h := hhistory run
  refine
    { createdOnce := h.createdOnce
      committedOnce := h.committedOnce
      committedCounted := h.committedCounted
      permanent := ?_, commitAllowed := ?_
      streams := h.streams
      allowed := ?_, refused := ?_ }
  · rintro before after u rfl hu
    obtain ⟨u', hu', hafter⟩ := Run.append_iff.mp run
    obtain rfl := Run.unique performs_unique hu hu'
    exact StoreRun.terminalsKept hafter
  · intro before i after u v _ hu hlast id hv hu'
    exact (perform_effect hlast).commitAllowed (hhistory hu) hv hu'
  · intro id r receipt hr hterminal hreceipt hallow
    have hrt := htimes id r hr
    obtain ⟨receipt', hreceipt', hhorizon⟩ := hrt.decided hterminal
    rw [hreceipt] at hreceipt'
    cases hreceipt'
    rw [hallow] at hhorizon
    exact ⟨(hrt.finalized hterminal).1, hrt.inTime hterminal (horizonOk_allow hhorizon)⟩
  · intro before call e after u v _ _ hlast
    exact (perform_effect hlast).refused

/-- The safety of a run that allows one claim, refuses another for its rate, repeats
the first and recovers the second. -/
theorem claimStore_safe_hourly : ∃ (events : List StoreEvent) (s : Anchored Unit),
    ClaimStoreSafe (counting []) (none : StoreAnchor Unit) { store := firstStore, device := () }
      events s
    ∧ createdClaims events = [(hourlyClaim 1, firstToken), (hourlyClaim 2, firstToken)]
    ∧ committedClaims events = [(hourlyClaim 1).claimId, (hourlyClaim 2).claimId]
    ∧ ∃ terminal body,
      (.finalize (hourlyClaim 1).claimId firstToken terminal body 500, .ok (.committed false))
        ∈ events
      ∧ (.finalize (hourlyClaim 2).claimId firstToken terminal body 500, .error .rateLimitExceeded)
        ∈ events := by
  obtain ⟨terminal, body, terminal', body', wire, digest, -, hrun⟩ := run_hourly
  have hrate : Performs (counting []) (none : StoreAnchor Unit)
      { store := firstStore, device := () } (.withRateAtFinalization, .ok .configured)
      { store := { firstStore with rateAtFinalization := true }, device := () } := rfl
  refine ⟨_, _, claimStore_safe (accepting_counting []).new_firstStore
    ((Run.single hrate).append hrun), rfl, rfl, terminal, body, ?_, ?_⟩
  · simp [hourlyEvents]
  · simp [hourlyEvents]

end RatifyProtocol.V2
